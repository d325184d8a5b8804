import AccessLedger.Proofs.Audit.Slots
import Mathlib.Data.List.Nodup

/-!
# Slots of another batch

A slot says at which place of a batch its account stands, and not in which
batch.  So a batch that is asked about the slot of another one looks at the
same place of its own: it answers as for a slot of its own if the account
stands there too (`foreign_slots_are_told_by_place`).  Where it stands is
decided by the order in which the accounts were registered
(`LoaderHistory.place?`).  All that is sure of an answer is that it is of the
account of the slot.
-/

namespace AccessLedger

/-- Every entry of a book is of the account under whose number it stands. -/
def AccountBook.IsOrderly (book : AccountBook) : Prop :=
  ∀ id info, book id = some info → info.id = id

/-- What is found in an orderly book of an account, or a stub, is of this account. -/
theorem AccountBook.IsOrderly.id_getD {book : AccountBook} (horderly : book.IsOrderly)
    (id : AccountId) : ((book id).getD (.stub id)).id = id := by
  cases hentry : book id with
  | none => rfl
  | some info => exact horderly id info hentry

namespace LoaderHistory

/-- How many other accounts were registered before an account, if that was registered. -/
def place? (h : LoaderHistory) (id : AccountId) : Option Nat :=
  (h.issued.map Prod.fst).eraseDups.idxOf? id

variable {h : LoaderHistory} {id : AccountId} {slot : Slot}

theorem Aligned.place?_eq_some_iff (halign : h.Aligned) {i : Nat} :
    h.place? id = some i ↔ h.loader.ids[i]? = some id := by
  rw [place?, ← halign.collects]
  constructor
  · exact getElem?_of_idxOf?
  · intro hplace
    obtain ⟨hi, rfl⟩ := List.getElem?_eq_some_iff.mp hplace
    refine List.idxOf?_eq_some_iff.mpr ⟨hi, rfl, fun j hj heq => ?_⟩
    exact absurd ((List.Nodup.getElem_inj_iff halign.nodup).mp heq) (Nat.ne_of_lt hj)

theorem Aligned.place?_of_issued (halign : h.Aligned) (hissued : (id, slot) ∈ h.issued) :
    h.place? id = some slot.index :=
  halign.place?_eq_some_iff.mpr <|
    (halign.stands _ hissued).trans (congrArg some (halign.ofAccount _ hissued))

/-- A batch has issued a slot for an account exactly if the account has the place of the slot. -/
theorem Aligned.mem_issued_iff (halign : h.Aligned) (hid : slot.id = id) :
    (id, slot) ∈ h.issued ↔ h.place? id = some slot.index := by
  constructor
  · exact halign.place?_of_issued
  · intro hplace
    have hstands := halign.place?_eq_some_iff.mp hplace
    obtain ⟨own, hown⟩ := halign.mem_ids.mp (List.mem_of_getElem? hstands)
    have heq : own = slot := by
      refine (Slot.eq_iff_of_stands halign.nodup (halign.stands _ hown) ?_).mpr ?_
      · rw [Slot.Stands, hid]
        exact hstands
      · rw [halign.ofAccount _ hown, hid]
    exact heq ▸ hown

/-- A batch answers from the place of a slot, if what it has there is of the account of the slot. -/
theorem Aligned.get_eq_some_iff (halign : h.Aligned) {info : AccountInfo} :
    h.loader.get slot = some info ↔ ∃ book, h.book = some book ∧ ∃ other,
      h.place? other = some slot.index ∧ (book other).getD (.stub other) = info ∧
        info.id = slot.id := by
  simp only [halign.place?_eq_some_iff]
  cases hbook : h.book with
  | none => simp [halign.get_of_unfound hbook]
  | some book =>
    rw [IdentityLoader.get, halign.found book hbook, List.getElem?_map, Option.filter_eq_some_iff]
    constructor
    · rintro ⟨hentry, hid⟩
      obtain ⟨other, hplace, rfl⟩ := Option.map_eq_some_iff.mp hentry
      exact ⟨book, rfl, other, hplace, rfl, of_decide_eq_true hid⟩
    · rintro ⟨_, ⟨⟩, other, hplace, rfl, hid⟩
      exact ⟨Option.map_eq_some_iff.mpr ⟨other, hplace, rfl⟩, decide_eq_true hid⟩

end LoaderHistory

/--
A slot that one batch has issued for an account is answered by another one, once
that has been looked up, with what it has found at the place of the account in
the first one, if that is of the account.  If entries stand under their own
numbers, this is so exactly if the account has the same place in both, in other
words if the second batch has issued this slot itself; then it answers with what
it has found of the account.
-/
theorem foreign_slots_are_told_by_place {a b : LoaderHistory} (ha : a.Reached) (hb : b.Reached)
    {id : AccountId} {slot : Slot} (hissued : (id, slot) ∈ a.issued) :
    (∀ info, b.loader.get slot = some info ↔ ∃ book, b.book = some book ∧ ∃ other,
      b.place? other = a.place? id ∧ (book other).getD (.stub other) = info ∧ info.id = id) ∧
    (∀ book, b.book = some book → book.IsOrderly → b.loader.get slot =
      if b.place? id = a.place? id then some ((book id).getD (.stub id)) else none) ∧
    (b.place? id = a.place? id ↔ (id, slot) ∈ b.issued) := by
  have hid : slot.id = id := ha.aligned.ofAccount _ hissued
  rw [ha.aligned.place?_of_issued hissued]
  have hget (info : AccountInfo) : b.loader.get slot = some info ↔ _ := hb.aligned.get_eq_some_iff
  rw [hid] at hget
  refine ⟨hget, fun book hbook horderly => ?_, (hb.aligned.mem_issued_iff hid).symm⟩
  by_cases hplace : b.place? id = some slot.index
  · rw [if_pos hplace]
    exact (hget _).mpr ⟨book, hbook, id, hplace, rfl, horderly.id_getD id⟩
  · rw [if_neg hplace, Option.eq_none_iff_forall_ne_some]
    intro info hinfo
    obtain ⟨_, hbook', other, hother, rfl, hid'⟩ := (hget info).mp hinfo
    cases hbook.symm.trans hbook'
    rw [horderly.id_getD other] at hid'
    exact hplace (hid' ▸ hother)

/-- A book with the entry of account 1 alone. -/
def orderlyBook : AccountBook := fun id =>
  if id = ⟨1⟩ then some ⟨⟨1⟩, some "Al", none, none⟩ else none

/-- The accounts 1 and 3, looked up in the orderly book. -/
def shortHistory : LoaderHistory :=
  (LoaderHistory.ofAccounts [⟨1⟩, ⟨3⟩]).fill (recovering orderlyBook) true

theorem reached_shortHistory : shortHistory.Reached :=
  (LoaderHistory.reached_ofAccounts _).fill _ _

/--
Of the slots for the accounts 1, 2 and 3 of one batch, another one with the
accounts 1 and 3 answers the first.  A batch with account 2, whose entry is of
account 9, answers the slot of a batch with account 9.
-/
theorem first_places_are_confused :
    let long := LoaderHistory.ofAccounts [⟨1⟩, ⟨2⟩, ⟨3⟩]
    let misled := (LoaderHistory.ofAccounts [⟨2⟩]).fill (recovering mixedBook) true
    long.issued = [(⟨1⟩, ⟨0, ⟨1⟩⟩), (⟨2⟩, ⟨1, ⟨2⟩⟩), (⟨3⟩, ⟨2, ⟨3⟩⟩)] ∧
    shortHistory.loader.get ⟨0, ⟨1⟩⟩ = some ⟨⟨1⟩, some "Al", none, none⟩ ∧
    shortHistory.loader.get ⟨1, ⟨2⟩⟩ = none ∧
    shortHistory.loader.get ⟨2, ⟨3⟩⟩ = none ∧
    (LoaderHistory.ofAccounts [⟨9⟩]).issued = [(⟨9⟩, ⟨0, ⟨9⟩⟩)] ∧
    misled.loader.get ⟨0, ⟨9⟩⟩ = some ⟨⟨9⟩, some "Bo", none, none⟩ := by
  intro long misled
  have hlong : long.Reached := LoaderHistory.reached_ofAccounts _
  have horderly : orderlyBook.IsOrderly := by
    intro id info hentry
    unfold orderlyBook at hentry
    split at hentry
    · next hid =>
      cases hentry
      exact hid.symm
    · cases hentry
  have htold (id : AccountId) (slot : Slot) (hissued : (id, slot) ∈ long.issued) :=
    (foreign_slots_are_told_by_place hlong reached_shortHistory hissued).2.1 orderlyBook rfl
      horderly
  have hmisled : misled.Reached := (LoaderHistory.reached_ofAccounts [⟨2⟩]).fill _ _
  have hissued : (⟨9⟩, ⟨0, ⟨9⟩⟩) ∈ (LoaderHistory.ofAccounts [⟨9⟩]).issued := by decide +kernel
  obtain ⟨hget, -, -⟩ :=
    foreign_slots_are_told_by_place (LoaderHistory.reached_ofAccounts _) hmisled hissued
  refine ⟨by decide +kernel, ?_, ?_, ?_, by decide +kernel, ?_⟩
  · exact (htold ⟨1⟩ _ (by decide +kernel)).trans (by decide +kernel)
  · exact (htold ⟨2⟩ _ (by decide +kernel)).trans (by decide +kernel)
  · exact (htold ⟨3⟩ _ (by decide +kernel)).trans (by decide +kernel)
  · exact (hget _).mpr ⟨mixedBook, rfl, ⟨2⟩, by decide +kernel⟩

/-- Two batches with different contents, of which one answers the first slot of the other. -/
theorem foreign_slot_is_answered :
    ¬∀ a b : LoaderHistory, a.Reached → b.Reached → a.loader ≠ b.loader →
      ∀ p ∈ a.issued, b.loader.get p.2 = none := by
  intro hall
  have hdiffer : (LoaderHistory.ofAccounts [⟨1⟩]).loader ≠ shortHistory.loader :=
    fun hsame => nomatch congrArg IdentityLoader.filled hsame
  have hnone := hall _ _ (LoaderHistory.reached_ofAccounts [⟨1⟩]) reached_shortHistory hdiffer
    (⟨1⟩, ⟨0, ⟨1⟩⟩) (by decide +kernel)
  have hanswer : (shortHistory.loader.get ⟨0, ⟨1⟩⟩).isSome = true := by decide +kernel
  rw [hnone] at hanswer
  cases hanswer

end AccessLedger
