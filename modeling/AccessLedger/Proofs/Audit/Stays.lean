import AccessLedger.Proofs.Audit.Log
import AccessLedger.Proofs.Calendar.Columns
import AccessLedger.Proofs.Store.Ledger

/-!
# Periods and the changes that they tell

A `Stay` is a period as it was meant: with accounts and instants in the place
of what the columns of its row hold.  A ledger tells a log of changes if its
rows are those of some stays, and the begins and ends of the stays are the
changes of the log (`Roll.Tells`).  Whatever begins a period or ends one adds
one change to the log (`Roll.Tells.enter`, `Roll.Tells.exit`).
-/

namespace AccessLedger

theorem AccountId.scalar_inj {a b : AccountId} (h : a.scalar = b.scalar) : a = b := by
  have hnat : a.toNat = b.toNat := Int.ofNat.inj (Scalar.integer.inj h)
  have hsome : some a = some b := by
    rw [← AccountId.ofInt?_toNat a, hnat, AccountId.ofInt?_toNat]
  exact Option.some.inj hsome

/-- A change of the members of a group, with the group. -/
abbrev LogEntry := GroupUuid × GroupChange

/-- The changes of one group. -/
def changesOf (group : GroupUuid) (log : List LogEntry) : List GroupChange :=
  (log.filter (·.1 = group)).map Prod.snd

/-- One of the two kinds of members: how they are kept, and how their changes are told. -/
structure Roll (α κ : Type) where
  code : α → κ
  code_inj : ∀ a b, code a = code b → a = b
  begins : AuditEventKind
  ends : AuditEventKind
  told : α → AccountId ⊕ String

@[simp]
theorem Roll.key_eq_iff {α κ : Type} (roll : Roll α κ) {group group' : GroupUuid}
    {member member' : α} : (group, roll.code member) = (group', roll.code member') ↔
      group = group' ∧ member = member' := by
  rw [Prod.mk.injEq]
  exact and_congr_right fun _ => ⟨roll.code_inj _ _, congrArg roll.code⟩

/-- Accounts that are members. -/
def memberRoll : Roll AccountId Scalar where
  code := AccountId.scalar
  code_inj _ _ := AccountId.scalar_inj
  begins := .addUser
  ends := .removeUser
  told := .inl

/-- Groups that are included. -/
def includeRoll : Roll GroupUuid GroupUuid where
  code := id
  code_inj _ _ := id
  begins := .addGroup
  ends := .removeGroup
  told u := .inr u.displayId

/-- One period of a member of a group. -/
structure Stay (α : Type) where
  group : GroupUuid
  member : α
  addedBy : AccountId
  addedOn : Instant
  removal : Option Removal

variable {α κ : Type}

namespace Stay

/-- All instants of a period have years of four digits. -/
structure Dated (s : Stay α) : Prop where
  addedOn : s.addedOn.InFourDigits
  removedOn : ∀ r ∈ s.removal, r.removedOn.InFourDigits

/-- The row of a period. -/
def period (roll : Roll α κ) (s : Stay α) : Period (GroupUuid × κ) :=
  ⟨(s.group, roll.code s.member), s.addedBy.scalar, s.addedOn.column,
   s.removal.map fun r => r.removedBy.scalar, s.removal.map fun r => r.removedOn.column⟩

/-- The changes at the begin and at the end of a period. -/
def changes (roll : Roll α κ) (s : Stay α) : List GroupChange :=
  periodChanges roll.begins roll.ends (roll.told s.member) s.addedBy s.addedOn s.removal

/-- The changes of a period, with its group. -/
def entries (roll : Roll α κ) (s : Stay α) : List LogEntry := (s.changes roll).map (s.group, ·)

@[simp]
theorem key_period_eq_iff {roll : Roll α κ} {group : GroupUuid} {member : α} {s : Stay α} :
    (s.period roll).key = (group, roll.code member) ↔ s.group = group ∧ s.member = member :=
  roll.key_eq_iff

/-- The changes of one group are those of its periods. -/
theorem changesOf_flatMap_entries (roll : Roll α κ) (group : GroupUuid) (stays : List (Stay α)) :
    changesOf group (stays.flatMap (entries roll)) =
      (stays.filter (·.group = group)).flatMap (changes roll) := by
  induction stays with
  | nil => rfl
  | cons s stays ih =>
    have hcons : changesOf group ((s :: stays).flatMap (entries roll)) =
        changesOf group (s.entries roll) ++ changesOf group (stays.flatMap (entries roll)) := by
      simp only [changesOf, List.flatMap_cons, List.filter_append, List.map_append]
    have hentries : changesOf group (s.entries roll) =
        if s.group = group then s.changes roll else [] := by
      rw [changesOf, entries, List.filter_map, List.map_map]
      by_cases hgroup : s.group = group <;> simp [Function.comp_def, hgroup]
    rw [hcons, hentries, ih]
    by_cases hgroup : s.group = group <;> simp [hgroup]

variable [DecidableEq α]

/-- Whether a period is one of this member of the group and has not ended. -/
def lasts (group : GroupUuid) (member : α) (s : Stay α) : Bool :=
  s.group = group && s.member = member && s.removal.isNone

/-- End a period if it is one of these and has not ended. -/
def close (group : GroupUuid) (member : α) (removal : Removal) (s : Stay α) : Stay α :=
  if s.lasts group member then { s with removal := some removal } else s

theorem Dated.close {s : Stay α} (h : s.Dated) (group : GroupUuid) (member : α)
    {removal : Removal} (hremoval : removal.removedOn.InFourDigits) :
    (s.close group member removal).Dated := by
  unfold Stay.close
  split
  · refine ⟨h.addedOn, fun r hr => ?_⟩
    cases hr
    exact hremoval
  · exact h

@[simp]
theorem lasts_iff {group : GroupUuid} {member : α} {s : Stay α} :
    s.lasts group member = true ↔
      (s.group = group ∧ s.member = member) ∧ s.removal = none := by
  simp only [lasts, Bool.and_eq_true, decide_eq_true_eq, Option.isNone_iff_eq_none]

variable [DecidableEq κ]

/-- Ending a period ends its row. -/
theorem period_close (roll : Roll α κ) (group : GroupUuid) (member : α) (removal : Removal)
    (s : Stay α) : (s.close group member removal).period roll =
      (s.period roll).close (group, roll.code member) removal.removedBy.scalar
        removal.removedOn.column := by
  have hcloses : (s.period roll).key = (group, roll.code member) ∧
      (s.period roll).removedOn = none ↔ s.lasts group member = true := by
    rw [lasts_iff, key_period_eq_iff, period, Option.map_eq_none_iff]
  simp only [close, Period.close, hcloses]
  split <;> rfl

/-- The periods that last are those whose rows are open. -/
theorem length_filter_lasts (roll : Roll α κ) (group : GroupUuid) (member : α)
    {l : Ledger (GroupUuid × κ)} {stays : List (Stay α)}
    (h : l.periods = stays.map (period roll)) :
    (stays.filter (lasts group member)).length =
      (l.openPeriods (group, roll.code member)).length := by
  rw [Ledger.openPeriods, h, List.filter_map, List.length_map]
  congr 1
  refine List.filter_congr fun s _ => ?_
  rw [Bool.eq_iff_iff, lasts_iff, Function.comp, Bool.and_eq_true, decide_eq_true_eq,
    key_period_eq_iff, Period.isOpen, period, Option.isNone_map, Option.isNone_map, Bool.and_self,
    Option.isNone_iff_eq_none]

end Stay

/-- A list is split at the only element that satisfies `p`. -/
theorem exists_split_of_one {σ : Type} {p : σ → Bool} {l : List σ}
    (h : (l.filter p).length = 1) : ∃ before s after, l = before ++ s :: after ∧ p s = true ∧
      ∀ r ∈ before ++ after, p r = false := by
  obtain ⟨s, hs⟩ := List.length_eq_one_iff.mp h
  obtain ⟨before, after, rfl, hbefore, hp, hafter⟩ := List.filter_eq_cons_iff.mp hs
  refine ⟨before, s, after, rfl, hp, fun r hr => Bool.eq_false_iff.mpr ?_⟩
  rcases List.mem_append.mp hr with hr | hr
  · exact hbefore r hr
  · exact List.filter_eq_nil_iff.mp hafter r hr

/-- If one element changes, the others stay where they are. -/
theorem map_of_fixed {σ : Type} {f : σ → σ} {before after : List σ} {s : σ}
    (hother : ∀ r ∈ before ++ after, f r = r) :
    (before ++ s :: after).map f = before ++ f s :: after := by
  obtain ⟨hbefore, hafter⟩ := List.forall_mem_append.mp hother
  rw [List.map_append, List.map_cons, List.map_congr_left hbefore, List.map_congr_left hafter,
    List.map_id', List.map_id']

/-- What is added at the only element that changes can be told last. -/
theorem perm_flatMap_map_of_one {σ τ : Type} {p : σ → Bool} {f : σ → σ} {g : σ → List τ} {e : τ}
    (hchanges : ∀ s, p s = true → g (f s) = g s ++ [e]) (hother : ∀ s, p s = false → f s = s)
    {l : List σ} (h : (l.filter p).length = 1) :
    ((l.map f).flatMap g).Perm (l.flatMap g ++ [e]) := by
  obtain ⟨before, s, after, rfl, hs, hrest⟩ := exists_split_of_one h
  rw [map_of_fixed fun r hr => hother r (hrest r hr), List.flatMap_append, List.flatMap_cons,
    hchanges s hs, List.flatMap_append, List.flatMap_cons]
  simp only [List.append_assoc]
  exact (List.perm_append_comm.append_left _).append_left _

namespace Roll

/-- These are the periods of a ledger, and all of them can be written. -/
structure Keeps (roll : Roll α κ) (l : Ledger (GroupUuid × κ)) (stays : List (Stay α)) :
    Prop where
  periods_eq : l.periods = stays.map (Stay.period roll)
  dated : ∀ s ∈ stays, s.Dated

section

variable {roll : Roll α κ} {l : Ledger (GroupUuid × κ)} {stays : List (Stay α)}

theorem Keeps.enter (h : roll.Keeps l stays) (group : GroupUuid) (member : α)
    (addedBy : AccountId) {now : Instant} (hnow : now.InFourDigits) :
    roll.Keeps (l.enter (group, roll.code member) addedBy.scalar now.column)
      (stays ++ [⟨group, member, addedBy, now, none⟩]) := by
  refine ⟨?_, fun s hs => ?_⟩
  · rw [Ledger.enter, h.periods_eq, List.map_append]
    rfl
  · rcases List.mem_append.mp hs with hold | hnew
    · exact h.dated s hold
    · cases List.mem_singleton.mp hnew
      refine ⟨hnow, fun _ hr => ?_⟩
      cases hr

variable [DecidableEq α] [DecidableEq κ]

theorem Keeps.exit (h : roll.Keeps l stays) (group : GroupUuid) (member : α)
    (removedBy : AccountId) {now : Instant} (hnow : now.InFourDigits) :
    roll.Keeps (l.exit (group, roll.code member) removedBy.scalar now.column)
      (stays.map (Stay.close group member ⟨removedBy, now⟩)) := by
  refine ⟨?_, fun s hs => ?_⟩
  · simp only [Ledger.exit, h.periods_eq, List.map_map]
    exact List.map_congr_left fun s _ => (s.period_close roll group member ⟨removedBy, now⟩).symm
  · obtain ⟨r, hr, rfl⟩ := List.mem_map.mp hs
    exact (h.dated r hr).close group member hnow

/-- Whoever is present has one period that lasts. -/
theorem Keeps.length_filter_lasts (h : roll.Keeps l stays) (hagrees : l.Agrees)
    {group : GroupUuid} {member : α} (hpresent : (group, roll.code member) ∈ l.present) :
    (stays.filter (Stay.lasts group member)).length = 1 := by
  rw [Stay.length_filter_lasts roll group member h.periods_eq, hagrees.length_openPeriods,
    if_pos hpresent]

/-- At the end of a period just the one that lasts is closed. -/
theorem Keeps.exists_close (h : roll.Keeps l stays) (hagrees : l.Agrees) {group : GroupUuid}
    {member : α} (hpresent : (group, roll.code member) ∈ l.present) (removal : Removal) :
    ∃ before s after, stays = before ++ s :: after ∧ s.lasts group member = true ∧
      (∀ r ∈ before ++ after, r.lasts group member = false) ∧
      stays.map (Stay.close group member removal) =
        before ++ { s with removal := some removal } :: after := by
  obtain ⟨before, s, after, rfl, hs, hrest⟩ :=
    exists_split_of_one (h.length_filter_lasts hagrees hpresent)
  have hother (r : Stay α) (hr : r ∈ before ++ after) : r.close group member removal = r :=
    if_neg (Bool.eq_false_iff.mp (hrest r hr))
  refine ⟨before, s, after, rfl, hs, hrest, ?_⟩
  rw [map_of_fixed hother, Stay.close, if_pos hs]

end

/-- The rows of a ledger tell these changes, in some order. -/
def Tells (roll : Roll α κ) (l : Ledger (GroupUuid × κ)) (log : List LogEntry) : Prop :=
  ∃ stays : List (Stay α), l.periods = stays.map (Stay.period roll) ∧ (∀ s ∈ stays, s.Dated) ∧
    (stays.flatMap (Stay.entries roll)).Perm log

variable {roll : Roll α κ} {l : Ledger (GroupUuid × κ)} {log : List LogEntry}

/-- The begin of a period is one more change. -/
theorem Tells.enter (h : roll.Tells l log) (group : GroupUuid) (member : α) (addedBy : AccountId)
    {now : Instant} (hnow : now.InFourDigits) :
    roll.Tells (l.enter (group, roll.code member) addedBy.scalar now.column)
      (log ++ [(group, ⟨roll.begins, addedBy, roll.told member, now⟩)]) := by
  obtain ⟨stays, hperiods, hdated, hlog⟩ := h
  have hkeeps := Keeps.enter ⟨hperiods, hdated⟩ group member addedBy hnow
  refine ⟨_, hkeeps.periods_eq, hkeeps.dated, ?_⟩
  rw [List.flatMap_append]
  exact hlog.append_right _

variable [DecidableEq α] [DecidableEq κ]

/-- The end of a period is one more change. -/
theorem Tells.exit (h : roll.Tells l log) (hagrees : l.Agrees) {group : GroupUuid} {member : α}
    (hpresent : (group, roll.code member) ∈ l.present) (removedBy : AccountId) {now : Instant}
    (hnow : now.InFourDigits) :
    roll.Tells (l.exit (group, roll.code member) removedBy.scalar now.column)
      (log ++ [(group, ⟨roll.ends, removedBy, roll.told member, now⟩)]) := by
  obtain ⟨stays, hperiods, hdated, hlog⟩ := h
  have hkeeps : roll.Keeps l stays := ⟨hperiods, hdated⟩
  have hclosed := hkeeps.exit group member removedBy hnow
  refine ⟨_, hclosed.periods_eq, hclosed.dated, .trans ?_ (hlog.append_right _)⟩
  refine perm_flatMap_map_of_one (fun s hs => ?_) (fun s hs => ?_)
    (hkeeps.length_filter_lasts hagrees hpresent)
  · rw [Stay.close, if_pos hs]
    obtain ⟨⟨rfl, rfl⟩, hopen⟩ := Stay.lasts_iff.mp hs
    simp only [Stay.entries, Stay.changes, periodChanges, hopen]
    rfl
  · rw [Stay.close, hs, if_neg Bool.false_ne_true]

end Roll

end AccessLedger
