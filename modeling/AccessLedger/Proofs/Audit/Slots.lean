import AccessLedger.Proofs.Audit.Batch

/-!
# What a batch keeps

Accounts are registered in a batch, and the batch is looked up, perhaps more
than once since a look-up can fail.  A `LoaderHistory` holds next to the batch
what its callers have seen of it: the slots that it has issued, and the book of
the last look-up that succeeded.  Whoever has been asked, the places of the
batch, the issued slots and what has been found go together
(`LoaderHistory.Aligned`): every call keeps that, so it holds of all that can
be reached (`LoaderHistory.Reached.aligned`).  So an issued slot leads to the
entry of its account and to no other (`slots_lead_to_their_accounts`).
-/

namespace AccessLedger

/-! ## Taking entries out of a book -/

namespace AccountBook

/-- A book that has lost its entry of an account. -/
def without (book : AccountBook) (id : AccountId) : AccountBook :=
  fun other => if other = id then none else book other

/-- What comes of taking the entries of some accounts out of a book, with stubs for missing ones. -/
def takeOut (book : AccountBook) : List AccountId → List AccountInfo
  | [] => []
  | id :: ids => (book id).getD (.stub id) :: (book.without id).takeOut ids

/-- Nothing is taken out twice if no account comes twice. -/
theorem takeOut_eq_map {ids : List AccountId} (hnodup : ids.Nodup) (book : AccountBook) :
    book.takeOut ids = ids.map fun id => (book id).getD (.stub id) := by
  induction ids generalizing book with
  | nil => rfl
  | cons id ids ih =>
    obtain ⟨hnew, hrest⟩ := List.nodup_cons.mp hnodup
    have hkept : ∀ other ∈ ids, book.without id other = book other :=
      fun other hother => if_neg (ne_of_mem_of_not_mem hother hnew)
    rw [takeOut, ih hrest, List.map_cons]
    exact congrArg _ (List.map_congr_left fun other hother => by rw [hkept other hother])

end AccountBook

/-! ## Places -/

theorem Slot.eq_iff_of_stands {l : IdentityLoader} (hnodup : l.ids.Nodup) {s t : Slot}
    (hs : s.Stands l) (ht : t.Stands l) : s = t ↔ s.id = t.id := by
  constructor
  · exact congrArg Slot.id
  · intro hid
    have hplace : l.ids[s.index]? = l.ids[t.index]? := hs.trans (hid ▸ ht.symm)
    have hindex := (List.getElem?_inj (List.getElem?_eq_some_iff.mp hs).1 hnodup).mp hplace
    cases s
    cases t
    cases hid
    cases hindex
    rfl

/-! ## Looking up a batch -/

section

variable {σ : Type}

/-- What a backend answers to a look-up of some accounts; it is not asked for none. -/
def lookUp (answer : {β : Type} → Backend β → σ → Except Failure β × σ) (s : σ)
    (ids : List AccountId) : Except Failure AccountBook :=
  if ids = [] then .ok fun _ => none else (answer (.accounts ids) s).1

variable {l : IdentityLoader} {answer : {β : Type} → Backend β → σ → Except Failure β × σ} {s : σ}

namespace IdentityLoader

/-- A look-up fills the batch that is kept from what was answered. -/
theorem run_fill_of_ok {book : AccountBook} (hok : lookUp answer s l.ids = .ok book) :
    ∃ s', fill.run (Keeping.answer answer) (l, s) = (.ok (), l.fillFrom book, s') := by
  unfold lookUp at hok
  by_cases hempty : l.ids = []
  · simp only [hempty, if_true, Except.ok.injEq] at hok
    exact ⟨s, by simp [fill, hempty, ← hok]⟩
  · rw [if_neg hempty] at hok
    exact ⟨(answer (.accounts l.ids) s).2, by simp [fill, hempty, hok]⟩

/-- A look-up that fails leaves the batch that is kept as it was. -/
theorem run_fill_of_error {e : Failure} (herror : lookUp answer s l.ids = .error e) :
    ∃ s', fill.run (Keeping.answer answer) (l, s) = (.error e, l, s') := by
  unfold lookUp at herror
  by_cases hempty : l.ids = []
  · simp [hempty] at herror
  · rw [if_neg hempty] at herror
    exact ⟨(answer (.accounts l.ids) s).2, by simp [fill, hempty, herror]⟩

end IdentityLoader

end

/-- What is shown of a slot is always of the account of the slot. -/
@[simp]
theorem IdentityLoader.id_resolve (l : IdentityLoader) (slot : Slot) :
    (l.resolve slot).id = slot.id := by
  unfold resolve
  cases hget : l.get slot with
  | none => rfl
  | some info => exact of_decide_eq_true (Option.filter_eq_some_iff.mp hget).2

/-! ## Histories -/

/-- A batch, and what its callers have seen of it. -/
structure LoaderHistory where
  loader : IdentityLoader
  /-- The accounts that were registered, each with its slot, one after the other. -/
  issued : List (AccountId × Slot)
  /-- What was answered when a look-up succeeded for the last time. -/
  book : Option AccountBook

namespace LoaderHistory

/-- A new batch. -/
def start : LoaderHistory := ⟨.empty, [], none⟩

/-- An account is registered. -/
def register (h : LoaderHistory) (id : AccountId) : LoaderHistory where
  loader := (h.loader.register id).2
  issued := h.issued ++ [(id, (h.loader.register id).1)]
  book := h.book

/-- The batch is looked up, which may fail; what becomes of it then is up to the look-up. -/
def fill {σ : Type} (h : LoaderHistory)
    (answer : {β : Type} → Backend β → σ → Except Failure β × σ) (s : σ) : LoaderHistory where
  loader := (IdentityLoader.fill.run (Keeping.answer answer) (h.loader, s)).2.1
  issued := h.issued
  book := (lookUp answer s h.loader.ids).toOption.or h.book

/--
What can come of a new batch: accounts are registered until a look-up has
succeeded, and each look-up asks a backend of its own.
-/
inductive Reached : LoaderHistory → Prop
  | start : Reached start
  | register {h : LoaderHistory} (before : Reached h) (unfound : h.book = none) (id : AccountId) :
      Reached (h.register id)
  | fill {h : LoaderHistory} (before : Reached h) {σ : Type}
      (answer : {β : Type} → Backend β → σ → Except Failure β × σ) (s : σ) :
      Reached (h.fill answer s)

/-- The places of a batch, the slots that it has issued and what has been found go together. -/
structure Aligned (h : LoaderHistory) : Prop where
  collects : h.loader.Collects (h.issued.map Prod.fst)
  ofAccount : ∀ p ∈ h.issued, p.2.id = p.1
  stands : ∀ p ∈ h.issued, p.2.Stands h.loader
  unfilled : h.loader.filled = false ↔ h.book = none
  unfound : h.book = none → h.loader.resolved = []
  found : ∀ book, h.book = some book →
    h.loader.resolved = h.loader.ids.map fun id => (book id).getD (.stub id)

variable {h : LoaderHistory} {id : AccountId}

/-! ### One call -/

/-- A look-up fills the batch from what was answered. -/
theorem fill_of_ok {σ : Type} {answer : {β : Type} → Backend β → σ → Except Failure β × σ}
    {s : σ} {book : AccountBook} (hok : lookUp answer s h.loader.ids = .ok book) :
    h.fill answer s = { h with loader := h.loader.fillFrom book, book := some book } := by
  obtain ⟨s', hrun⟩ := IdentityLoader.run_fill_of_ok hok
  rw [fill, hrun, hok]
  rfl

/-- A look-up that fails changes nothing. -/
theorem fill_of_error {σ : Type} {answer : {β : Type} → Backend β → σ → Except Failure β × σ}
    {s : σ} {e : Failure} (herror : lookUp answer s h.loader.ids = .error e) :
    h.fill answer s = h := by
  obtain ⟨s', hrun⟩ := IdentityLoader.run_fill_of_error herror
  rw [fill, hrun, herror]
  rfl

theorem aligned_start : start.Aligned where
  collects := rfl
  ofAccount _ hp := nomatch hp
  stands _ hp := nomatch hp
  unfilled := by decide
  unfound _ := rfl
  found _ hbook := nomatch hbook

theorem Aligned.register (halign : h.Aligned) (hnone : h.book = none) (id : AccountId) :
    (h.register id).Aligned := by
  have hcollects := halign.collects.register id
  refine ⟨?_, fun p hp => ?_, fun p hp => ?_, ?_, fun _ => ?_, fun book hbook => ?_⟩
  · rw [LoaderHistory.register, List.map_append]
    exact hcollects
  · rcases List.mem_append.mp hp with hp | hp
    · exact halign.ofAccount p hp
    · cases List.mem_singleton.mp hp
      exact h.loader.id_register id
  · rcases List.mem_append.mp hp with hp | hp
    · exact halign.collects.stands hcollects (halign.stands p hp)
    · cases List.mem_singleton.mp hp
      exact h.loader.stands_register id
  · simpa [LoaderHistory.register] using halign.unfilled
  · simpa [LoaderHistory.register] using halign.unfound hnone
  · cases hnone.symm.trans hbook

theorem Aligned.fill (halign : h.Aligned) {σ : Type}
    (answer : {β : Type} → Backend β → σ → Except Failure β × σ) (s : σ) :
    (h.fill answer s).Aligned := by
  cases hlookUp : lookUp answer s h.loader.ids with
  | ok book =>
    rw [fill_of_ok hlookUp]
    refine ⟨halign.collects, halign.ofAccount, halign.stands, iff_of_false nofun nofun,
      nofun, ?_⟩
    rintro _ ⟨⟩
    rfl
  | error e =>
    rw [fill_of_error hlookUp]
    exact halign

/-! ### All calls -/

theorem Reached.aligned (hreached : h.Reached) : h.Aligned := by
  induction hreached with
  | start => exact aligned_start
  | register before unfound id ih => exact ih.register unfound id
  | fill before answer s ih => exact ih.fill answer s

/-- A batch in which some accounts have been registered. -/
def ofAccounts (ids : List AccountId) : LoaderHistory := ids.foldl register start

theorem reached_ofAccounts (ids : List AccountId) : (ofAccounts ids).Reached := by
  have hfrom (h : LoaderHistory) (hreached : h.Reached) (hnone : h.book = none) :
      (ids.foldl register h).Reached := by
    induction ids generalizing h with
    | nil => exact hreached
    | cons id ids ih => exact ih _ (hreached.register hnone id) hnone
  exact hfrom start .start rfl

/-! ### What follows -/

theorem Aligned.nodup (halign : h.Aligned) : h.loader.ids.Nodup :=
  halign.collects ▸ nodup_eraseDups _

theorem Aligned.mem_ids (halign : h.Aligned) :
    id ∈ h.loader.ids ↔ ∃ slot, (id, slot) ∈ h.issued := by
  rw [halign.collects, List.mem_eraseDups, List.mem_map]
  constructor
  · rintro ⟨p, hp, rfl⟩
    exact ⟨p.2, hp⟩
  · rintro ⟨slot, hslot⟩
    exact ⟨_, hslot, rfl⟩

/-- Two issued slots are one exactly if they were issued for one account. -/
theorem Aligned.slot_eq_iff (halign : h.Aligned) {p q : AccountId × Slot} (hp : p ∈ h.issued)
    (hq : q ∈ h.issued) : p.2 = q.2 ↔ p.1 = q.1 := by
  rw [Slot.eq_iff_of_stands halign.nodup (halign.stands p hp) (halign.stands q hq),
    halign.ofAccount p hp, halign.ofAccount q hq]

/-- An account gets the slot that was issued for it before, or else the next place. -/
theorem Aligned.register_slot (halign : h.Aligned) (id : AccountId) :
    (h.loader.register id).1 = (h.issued.lookup id).getD ⟨h.loader.size, id⟩ := by
  cases hlookup : h.issued.lookup id with
  | some slot =>
    obtain ⟨before, after, hsplit, -⟩ := List.lookup_eq_some_iff.mp hlookup
    have hissued : (id, slot) ∈ h.issued := hsplit ▸ List.mem_append_right _ List.mem_cons_self
    have hcollects := halign.collects.register id
    have hold := halign.collects.stands hcollects (halign.stands _ hissued)
    have hnodup : (h.loader.register id).2.ids.Nodup := hcollects ▸ nodup_eraseDups _
    refine (Slot.eq_iff_of_stands hnodup (h.loader.stands_register id) hold).mpr ?_
    rw [h.loader.id_register, halign.ofAccount _ hissued]
  | none =>
    have hnew : id ∉ h.loader.ids := by
      rw [halign.mem_ids]
      rintro ⟨slot, hslot⟩
      simpa using List.lookup_eq_none_iff.mp hlookup _ hslot
    rcases h.loader.register_cases id with ⟨i, hi, -⟩ | ⟨_, -, heq⟩
    · exact absurd (List.mem_of_getElem? hi) hnew
    · rw [heq]
      rfl

/-- Accounts may be registered until a look-up has succeeded. -/
theorem Aligned.register?_eq_iff (halign : h.Aligned) (id : AccountId) :
    h.loader.register? id = some (h.loader.register id) ↔ h.book = none := by
  rw [← halign.unfilled, IdentityLoader.register?]
  cases h.loader.filled <;> simp

/-- Nothing is found before a look-up has succeeded. -/
theorem Aligned.get_of_unfound (halign : h.Aligned) (hnone : h.book = none) (slot : Slot) :
    h.loader.get slot = none := by
  rw [IdentityLoader.get, halign.unfound hnone]
  rfl

end LoaderHistory

/--
The accounts of a batch are those that were registered, each once.  An account
gets the slot that was issued for it before, or else the next place, so two
slots are one exactly if they are of one account; and it can be registered
until a look-up has succeeded.  A look-up fails exactly if the backend does, and
then changes nothing.  After one that succeeded, the batch holds what comes of
its accounts when their entries are taken out of the book, and an issued slot
leads to the entry of its account: to a stub if there is none, and to nothing
if the entry is of another account.  What is shown of any slot is of its account.
-/
theorem slots_lead_to_their_accounts :
    (∀ h : LoaderHistory, h.Reached →
      (h.loader.ids.Nodup ∧ (∀ id, id ∈ h.loader.ids ↔ ∃ slot, (id, slot) ∈ h.issued) ∧
        h.loader.size = (h.issued.map Prod.fst).eraseDups.length) ∧
      (∀ id, (h.loader.register id).1 = (h.issued.lookup id).getD ⟨h.loader.size, id⟩) ∧
      (∀ p ∈ h.issued, ∀ q ∈ h.issued, p.2 = q.2 ↔ p.1 = q.1) ∧
      (∀ id, h.loader.register? id = some (h.loader.register id) ↔ h.book = none) ∧
      (∀ (σ : Type) (answer : {β : Type} → Backend β → σ → Except Failure β × σ) (s : σ)
        (e : Failure),
        let outcome := IdentityLoader.fill.run (Keeping.answer answer) (h.loader, s)
        (outcome.1 = .error e ↔ lookUp answer s h.loader.ids = .error e) ∧
          (outcome.1 = .error e → outcome.2.1 = h.loader ∧ h.fill answer s = h)) ∧
      (∀ book, h.book = some book →
        h.loader.resolved = book.takeOut h.loader.ids ∧
        ∀ p ∈ h.issued, h.loader.get p.2 = book.entry? p.1) ∧
      (h.book = none → ∀ slot, h.loader.get slot = none)) ∧
    ∀ (l : IdentityLoader) (slot : Slot), (l.resolve slot).id = slot.id := by
  refine ⟨fun h hreached => ?_, IdentityLoader.id_resolve⟩
  have halign := hreached.aligned
  refine ⟨⟨halign.nodup, fun id => halign.mem_ids, congrArg List.length halign.collects⟩,
    halign.register_slot, fun p hp q hq => halign.slot_eq_iff hp hq, halign.register?_eq_iff,
    fun σ answer s e => ?_, fun book hbook => ⟨?_, fun p hp => ?_⟩, halign.get_of_unfound⟩
  · intro outcome
    cases hlookUp : lookUp answer s h.loader.ids with
    | ok book =>
      obtain ⟨s', hrun⟩ := IdentityLoader.run_fill_of_ok hlookUp
      simp [outcome, hrun]
    | error e' =>
      obtain ⟨s', hrun⟩ := IdentityLoader.run_fill_of_error hlookUp
      simp [outcome, hrun, LoaderHistory.fill_of_error hlookUp]
  · rw [AccountBook.takeOut_eq_map halign.nodup]
    exact halign.found book hbook
  · rw [IdentityLoader.get_of_stands (halign.found book hbook) (halign.stands p hp),
      halign.ofAccount p hp]

/-- A book with the entry of account 1 and, under the number 2, that of account 9. -/
def mixedBook : AccountBook := fun id =>
  if id = ⟨1⟩ then some ⟨⟨1⟩, some "Al", none, none⟩
  else if id = ⟨2⟩ then some ⟨⟨9⟩, some "Bo", none, none⟩
  else none

/-- A backend that fails at the first question, and answers from a book then. -/
def recovering (book : AccountBook) {β : Type} : Backend β → Bool → Except Failure β × Bool
  | .accounts _, true => (.ok book, true)
  | _, _ => (.error (.store .database), true)

/-- Three accounts, one of them registered twice, are looked up in vain and then once more. -/
def mixedHistory : LoaderHistory :=
  ((LoaderHistory.ofAccounts [⟨1⟩, ⟨2⟩, ⟨3⟩, ⟨1⟩]).fill (recovering mixedBook) false).fill
    (recovering mixedBook) true

/-- Account 1 has one slot and is found, 2 has an entry of another account, and 3 has none. -/
theorem mixed_slots_lead_to_their_accounts :
    let registered := LoaderHistory.ofAccounts [⟨1⟩, ⟨2⟩, ⟨3⟩, ⟨1⟩]
    registered.Reached ∧ registered.fill (recovering mixedBook) false = registered ∧
    mixedHistory.Reached ∧ mixedHistory.loader.size = 3 ∧
    mixedHistory.loader.get ⟨0, ⟨1⟩⟩ = some ⟨⟨1⟩, some "Al", none, none⟩ ∧
    mixedHistory.loader.get ⟨1, ⟨2⟩⟩ = none ∧
    mixedHistory.loader.get ⟨2, ⟨3⟩⟩ = some (.stub ⟨3⟩) ∧
    (mixedHistory.loader.resolve ⟨1, ⟨2⟩⟩).id = ⟨2⟩ := by
  intro registered
  have hregistered : registered.Reached := LoaderHistory.reached_ofAccounts _
  have hmixed : mixedHistory.Reached := (hregistered.fill _ _).fill _ _
  obtain ⟨hhistory, hresolve⟩ := slots_lead_to_their_accounts
  obtain ⟨-, -, -, -, hfail, -, -⟩ := hhistory _ hregistered
  obtain ⟨⟨-, -, hsize⟩, -, -, -, -, hfound, -⟩ := hhistory _ hmixed
  obtain ⟨-, hget⟩ := hfound mixedBook rfl
  refine ⟨hregistered, ((hfail Bool (recovering mixedBook) false (.store .database)).2 rfl).2, hmixed,
    hsize, ?_, ?_, ?_, hresolve _ _⟩
  · exact hget (⟨1⟩, ⟨0, ⟨1⟩⟩) (by decide +kernel)
  · exact hget (⟨2⟩, ⟨1, ⟨2⟩⟩) (by decide +kernel)
  · exact hget (⟨3⟩, ⟨2, ⟨3⟩⟩) (by decide +kernel)

end AccessLedger
