import AccessLedger.Proofs.Store.Change

/-!
# Ledgers of periods

Members and included groups are kept in the same way: in one table those who
are present, in another one the periods of the past and the present.  A
`Ledger` is such a pair of tables.  A statement begins a period, ends one, or
leaves a ledger alone (`Database.step_memberLedger`,
`Database.step_includeLedger`), so whoever is present has exactly one open
period and nobody else has any (`Ledger.Agrees`), and periods are never lost
or rewritten (`Ledger.Continues`).
-/

namespace AccessLedger

variable {κ : Type}

/-- One row of an audit table; `key` says what it is a period of. -/
structure Period (κ : Type) where
  key : κ
  addedBy : Scalar
  addedOn : String
  removedBy : Option Scalar
  removedOn : Option String
  deriving DecidableEq

namespace Period

/-- Whether neither of the two columns of the end is filled. -/
def isOpen (p : Period κ) : Bool := p.removedBy.isNone && p.removedOn.isNone

/-- Both columns of the end are filled or neither is. -/
def IsWhole (p : Period κ) : Prop := p.removedBy.isSome = p.removedOn.isSome

/-- An open period may be ended; nothing else of a period changes. -/
structure MayBecome (p q : Period κ) : Prop where
  key_eq : q.key = p.key
  addedBy_eq : q.addedBy = p.addedBy
  addedOn_eq : q.addedOn = p.addedOn
  eq_of_ended : p.isOpen = false → q = p

theorem MayBecome.refl (p : Period κ) : p.MayBecome p := ⟨rfl, rfl, rfl, fun _ => rfl⟩

theorem MayBecome.trans {p q r : Period κ} (h : p.MayBecome q) (h' : q.MayBecome r) :
    p.MayBecome r where
  key_eq := h'.key_eq.trans h.key_eq
  addedBy_eq := h'.addedBy_eq.trans h.addedBy_eq
  addedOn_eq := h'.addedOn_eq.trans h.addedOn_eq
  eq_of_ended hp := by
    have hq := h.eq_of_ended hp
    rw [← hq] at hp
    exact (h'.eq_of_ended hp).trans hq

variable [DecidableEq κ]

/-- End a period if it is one of these and has not ended. -/
def close (key : κ) (removedBy : Scalar) (removedOn : String) (p : Period κ) : Period κ :=
  if p.key = key ∧ p.removedOn = none then
    { p with removedBy := some removedBy, removedOn := some removedOn }
  else p

theorem mayBecome_close {p : Period κ} (h : p.IsWhole) (key : κ) (removedBy : Scalar)
    (removedOn : String) : p.MayBecome (p.close key removedBy removedOn) := by
  unfold close
  split
  · next hopen =>
    refine ⟨rfl, rfl, rfl, fun hended => ?_⟩
    rw [IsWhole, hopen.2, Option.isSome_none, Option.isSome_eq_false_iff] at h
    rw [isOpen, h, hopen.2] at hended
    cases hended
  · exact .refl p

theorem isWhole_close {p : Period κ} (h : p.IsWhole) (key : κ) (removedBy : Scalar)
    (removedOn : String) : (p.close key removedBy removedOn).IsWhole := by
  unfold close
  split
  · rfl
  · exact h

/-- The periods of one key are all over once they have been ended. -/
@[simp]
theorem isOpen_close_self (key : κ) (removedBy : Scalar) (removedOn : String) (p : Period κ) :
    (decide ((p.close key removedBy removedOn).key = key) &&
      (p.close key removedBy removedOn).isOpen) = false := by
  by_cases hkey : p.key = key
  · cases hon : p.removedOn with
    | none => simp only [close, hkey, hon, and_self, if_true, isOpen, Option.isNone_some,
        Bool.and_false]
    | some on => simp only [close, hkey, hon, reduceCtorEq, and_false, if_false, isOpen,
        Option.isNone_some, Bool.and_false]
  · simp only [close, hkey, false_and, if_false, decide_false, Bool.false_and]

/-- The periods of other keys are left alone. -/
theorem close_of_ne {key : κ} {p : Period κ} (h : p.key ≠ key) (removedBy : Scalar)
    (removedOn : String) : p.close key removedBy removedOn = p := by
  simp only [close, h, false_and, if_false]

@[simp]
theorem key_close (key : κ) (removedBy : Scalar) (removedOn : String) (p : Period κ) :
    (p.close key removedBy removedOn).key = p.key := by
  unfold close
  split <;> rfl

end Period

/-- Who is present, and the periods of all, the oldest first. -/
structure Ledger (κ : Type) where
  present : List κ
  periods : List (Period κ)

namespace Ledger

/-- No period of the first ledger is lost in the second, and each is what it may become. -/
def Continues (l l' : Ledger κ) : Prop :=
  ∀ (i : Nat) (p : Period κ), l.periods[i]? = some p →
    ∃ q, l'.periods[i]? = some q ∧ p.MayBecome q

theorem Continues.refl (l : Ledger κ) : l.Continues l := fun _ p h => ⟨p, h, .refl p⟩

theorem Continues.trans {l m n : Ledger κ} (h : l.Continues m) (h' : m.Continues n) :
    l.Continues n := by
  intro i p hp
  obtain ⟨q, hq, hpq⟩ := h i p hp
  obtain ⟨r, hr, hqr⟩ := h' i q hq
  exact ⟨r, hr, hpq.trans hqr⟩

variable [DecidableEq κ]

/-- The periods of a key that have not ended. -/
def openPeriods (l : Ledger κ) (key : κ) : List (Period κ) :=
  l.periods.filter fun p => p.key = key && p.isOpen

/-- Whoever is present has one open period, nobody else has any, and ends are whole. -/
structure Agrees (l : Ledger κ) : Prop where
  length_openPeriods : ∀ key, (l.openPeriods key).length = if key ∈ l.present then 1 else 0
  isWhole : ∀ p ∈ l.periods, p.IsWhole

/-- Begin a period. -/
def enter (l : Ledger κ) (key : κ) (addedBy : Scalar) (addedOn : String) : Ledger κ :=
  ⟨l.present ++ [key], l.periods ++ [⟨key, addedBy, addedOn, none, none⟩]⟩

/-- End the periods of a key. -/
def exit (l : Ledger κ) (key : κ) (removedBy : Scalar) (removedOn : String) : Ledger κ :=
  ⟨l.present.filter (· ≠ key), l.periods.map (Period.close key removedBy removedOn)⟩

/-- What may happen to a ledger. -/
inductive Step (l : Ledger κ) : Ledger κ → Prop
  | same : Step l l
  | enter (key : κ) (addedBy : Scalar) (addedOn : String) (absent : key ∉ l.present) :
      Step l (l.enter key addedBy addedOn)
  | exit (key : κ) (removedBy : Scalar) (removedOn : String) (present : key ∈ l.present) :
      Step l (l.exit key removedBy removedOn)

omit [DecidableEq κ] in
@[simp]
theorem mem_present_enter {l : Ledger κ} {key k : κ} {addedBy : Scalar} {addedOn : String} :
    k ∈ (l.enter key addedBy addedOn).present ↔ k ∈ l.present ∨ k = key := by
  rw [enter, List.mem_append, List.mem_singleton]

@[simp]
theorem mem_present_exit {l : Ledger κ} {key k : κ} {removedBy : Scalar} {removedOn : String} :
    k ∈ (l.exit key removedBy removedOn).present ↔ k ∈ l.present ∧ k ≠ key := by
  rw [exit, List.mem_filter, decide_eq_true_eq]

theorem openPeriods_enter (l : Ledger κ) (key k : κ) (addedBy : Scalar) (addedOn : String) :
    ((l.enter key addedBy addedOn).openPeriods k).length =
      (l.openPeriods k).length + if k = key then 1 else 0 := by
  simp only [openPeriods, enter, List.filter_append, List.length_append]
  by_cases h : k = key
  · subst h
    simp [Period.isOpen]
  · simp [h, Ne.symm h]

@[simp]
theorem openPeriods_exit_self (l : Ledger κ) (key : κ) (removedBy : Scalar)
    (removedOn : String) : (l.exit key removedBy removedOn).openPeriods key = [] := by
  simp only [openPeriods, exit, List.filter_eq_nil_iff, List.mem_map]
  rintro _ ⟨p, -, rfl⟩
  rw [Period.isOpen_close_self]
  exact Bool.false_ne_true

theorem openPeriods_exit_of_ne (l : Ledger κ) {key k : κ} (h : k ≠ key) (removedBy : Scalar)
    (removedOn : String) : (l.exit key removedBy removedOn).openPeriods k = l.openPeriods k := by
  simp only [openPeriods, exit]
  induction l.periods with
  | nil => rfl
  | cons p ps ih =>
    simp only [List.map_cons, List.filter_cons, Period.key_close, ih]
    by_cases hk : p.key = k
    · rw [Period.close_of_ne (hk ▸ h)]
    · simp only [hk, decide_false, Bool.false_and, Bool.false_eq_true, if_false]

/-- What happens to a ledger keeps those who are present and the open periods in step. -/
theorem Agrees.step {l l' : Ledger κ} (h : l.Agrees) (hstep : Step l l') : l'.Agrees := by
  cases hstep with
  | same => exact h
  | enter key addedBy addedOn absent =>
    refine ⟨fun k => ?_, fun p hp => ?_⟩
    · rw [openPeriods_enter, h.length_openPeriods]
      by_cases hk : k = key
      · subst hk
        simp [enter, absent]
      · simp [enter, hk]
    · rcases List.mem_append.mp hp with hold | hnew
      · exact h.isWhole p hold
      · cases List.mem_singleton.mp hnew
        rfl
  | exit key removedBy removedOn present =>
    refine ⟨fun k => ?_, fun p hp => ?_⟩
    · by_cases hk : k = key
      · subst hk
        rw [openPeriods_exit_self]
        simp [exit]
      · rw [openPeriods_exit_of_ne l hk, h.length_openPeriods]
        simp [exit, hk]
    · obtain ⟨q, hq, rfl⟩ := List.mem_map.mp hp
      exact Period.isWhole_close (h.isWhole q hq) key removedBy removedOn

/-- What happens to a ledger in step loses no period and rewrites none. -/
theorem Agrees.continues {l l' : Ledger κ} (h : l.Agrees) (hstep : Step l l') :
    l.Continues l' := by
  cases hstep with
  | same => exact .refl l
  | enter key addedBy addedOn absent =>
    intro i p hp
    refine ⟨p, ?_, .refl p⟩
    rw [enter, List.getElem?_append_left (List.getElem?_eq_some_iff.mp hp).1]
    exact hp
  | exit key removedBy removedOn present =>
    intro i p hp
    refine ⟨p.close key removedBy removedOn, ?_, ?_⟩
    · rw [exit, List.getElem?_map, hp]
      rfl
    · exact Period.mayBecome_close (h.isWhole p (List.mem_of_getElem? hp)) key removedBy removedOn

end Ledger

/-! ## The two ledgers of a database -/

/-- An audit row of a member as a period. -/
def MemberAuditRow.period (r : MemberAuditRow) : Period (GroupUuid × Scalar) :=
  ⟨(r.group, r.account), r.addedBy, r.addedOn, r.removedBy, r.removedOn⟩

/-- An audit row of an included group as a period. -/
def IncludeAuditRow.period (r : IncludeAuditRow) : Period (GroupUuid × GroupUuid) :=
  ⟨(r.group, r.included), r.addedBy, r.addedOn, r.removedBy, r.removedOn⟩

namespace Database

variable {db : Database}

/-- The members of all groups with their periods. -/
def memberLedger (db : Database) : Ledger (GroupUuid × Scalar) :=
  ⟨db.members.map fun r => (r.group, r.account), db.memberAudits.map MemberAuditRow.period⟩

/-- The included groups of all groups with their periods. -/
def includeLedger (db : Database) : Ledger (GroupUuid × GroupUuid) :=
  ⟨db.includes.map fun r => (r.group, r.included), db.includeAudits.map IncludeAuditRow.period⟩

@[simp]
theorem mem_memberLedger {group : GroupUuid} {account : AccountId} :
    (group, account.scalar) ∈ db.memberLedger.present ↔ db.isMember group account = true := by
  simp only [memberLedger, isMember, List.mem_map, decide_eq_true_eq, Prod.mk.injEq]
  constructor
  · rintro ⟨⟨_, _⟩, hr, rfl, rfl⟩
    exact hr
  · exact fun h => ⟨_, h, rfl, rfl⟩

@[simp]
theorem mem_includeLedger {group included : GroupUuid} :
    (group, included) ∈ db.includeLedger.present ↔ db.isIncluded group included = true := by
  simp only [includeLedger, isIncluded, List.mem_map, decide_eq_true_eq, Prod.mk.injEq]
  constructor
  · rintro ⟨⟨_, _⟩, hr, rfl, rfl⟩
    exact hr
  · exact fun h => ⟨_, h, rfl, rfl⟩

@[simp]
theorem memberLedger_join (group : GroupUuid) (account addedBy : AccountId) (now : Instant) :
    (db.join group account addedBy now).memberLedger =
      db.memberLedger.enter (group, account.scalar) addedBy.scalar now.column := by
  simp only [memberLedger, join, Ledger.enter, List.map_append, List.map_cons, List.map_nil,
    MemberAuditRow.period]

@[simp]
theorem includeLedger_attach (group included : GroupUuid) (addedBy : AccountId) (now : Instant) :
    (db.attach group included addedBy now).includeLedger =
      db.includeLedger.enter (group, included) addedBy.scalar now.column := by
  simp only [includeLedger, attach, Ledger.enter, List.map_append, List.map_cons, List.map_nil,
    IncludeAuditRow.period]

theorem period_close_member (group : GroupUuid) (account removedBy : AccountId) (now : Instant)
    (r : MemberAuditRow) : (r.close group account removedBy now).period =
      r.period.close (group, account.scalar) removedBy.scalar now.column := by
  simp only [MemberAuditRow.close, Period.close, MemberAuditRow.period, Prod.mk.injEq, and_assoc]
  split <;> rfl

theorem period_close_include (group included : GroupUuid) (removedBy : AccountId) (now : Instant)
    (r : IncludeAuditRow) : (r.close group included removedBy now).period =
      r.period.close (group, included) removedBy.scalar now.column := by
  simp only [IncludeAuditRow.close, Period.close, IncludeAuditRow.period, Prod.mk.injEq, and_assoc]
  split <;> rfl

@[simp]
theorem memberLedger_leave (group : GroupUuid) (account removedBy : AccountId) (now : Instant) :
    (db.leave group account removedBy now).memberLedger =
      db.memberLedger.exit (group, account.scalar) removedBy.scalar now.column := by
  have hpresent : (db.members.filter (· ≠ ⟨group, account.scalar⟩)).map
      (fun r => (r.group, r.account)) =
      (db.members.map fun r => (r.group, r.account)).filter (· ≠ (group, account.scalar)) := by
    rw [List.filter_map]
    congr 1
    refine List.filter_congr fun r _ => ?_
    cases r
    simp only [ne_eq, Function.comp, MemberRow.mk.injEq, Prod.mk.injEq]
  simp only [memberLedger, leave, Ledger.exit, hpresent, List.map_map]
  congr 1
  exact List.map_congr_left fun r _ => period_close_member group account removedBy now r

@[simp]
theorem includeLedger_detach (group included : GroupUuid) (removedBy : AccountId) (now : Instant) :
    (db.detach group included removedBy now).includeLedger =
      db.includeLedger.exit (group, included) removedBy.scalar now.column := by
  have hpresent : (db.includes.filter (· ≠ ⟨group, included⟩)).map
      (fun r => (r.group, r.included)) =
      (db.includes.map fun r => (r.group, r.included)).filter (· ≠ (group, included)) := by
    rw [List.filter_map]
    congr 1
    refine List.filter_congr fun r _ => ?_
    cases r
    simp only [ne_eq, Function.comp, IncludeRow.mk.injEq, Prod.mk.injEq]
  simp only [includeLedger, detach, Ledger.exit, hpresent, List.map_map]
  congr 1
  exact List.map_congr_left fun r _ => period_close_include group included removedBy now r

/-- What a change does to the members and their periods. -/
theorem step_memberLedger {db' : Database} {β : Type} {q : Statement β} (h : Change db q db') :
    db.memberLedger.Step db'.memberLedger := by
  cases h with
  | join group account addedBy now absent =>
    rw [memberLedger_join]
    refine .enter _ _ _ fun hin => ?_
    rw [mem_memberLedger.mp hin] at absent
    cases absent
  | leave group account removedBy now present =>
    rw [memberLedger_leave]
    exact .exit _ _ _ (mem_memberLedger.mpr present)
  | _ => exact .same

/-- What a change does to the included groups and their periods. -/
theorem step_includeLedger {db' : Database} {β : Type} {q : Statement β} (h : Change db q db') :
    db.includeLedger.Step db'.includeLedger := by
  cases h with
  | attach group included addedBy now absent =>
    rw [includeLedger_attach]
    refine .enter _ _ _ fun hin => ?_
    rw [mem_includeLedger.mp hin] at absent
    cases absent
  | detach group included removedBy now present =>
    rw [includeLedger_detach]
    exact .exit _ _ _ (mem_includeLedger.mpr present)
  | _ => exact .same

end Database

end AccessLedger
