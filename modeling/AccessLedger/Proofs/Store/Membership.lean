import AccessLedger.Proofs.Store.Interleaving
import AccessLedger.Proofs.Store.Ledger

/-!
# Members and their audit trail

In every reachable database, and throughout every interleaving of operations
from there, the tables of members and included groups agree with the audit
tables, and no audit row is lost or rewritten (`trail_agrees_throughout`).
-/

namespace AccessLedger

namespace Database

/-- The audit rows say who is present: one open row for whoever is, none for anybody else. -/
structure TrailAgrees (db : Database) : Prop where
  open_member : ∀ group account,
    (db.memberLedger.openPeriods (group, account.scalar)).length =
      if db.isMember group account then 1 else 0
  open_include : ∀ group included,
    (db.includeLedger.openPeriods (group, included)).length =
      if db.isIncluded group included then 1 else 0
  whole_member : ∀ r ∈ db.memberAudits, r.removedBy.isSome = r.removedOn.isSome
  whole_include : ∀ r ∈ db.includeAudits, r.removedBy.isSome = r.removedOn.isSome

/-- No audit row of the first database is lost or rewritten in the second. -/
def TrailContinues (db db' : Database) : Prop :=
  db.memberLedger.Continues db'.memberLedger ∧ db.includeLedger.Continues db'.includeLedger

/-- Both ledgers agree with themselves. -/
def LedgersAgree (db : Database) : Prop := db.memberLedger.Agrees ∧ db.includeLedger.Agrees

variable {db db' : Database} {β : Type} {q : Statement β}

theorem ledgersAgree_empty : empty.LedgersAgree :=
  ⟨⟨fun _ => rfl, fun _ h => nomatch h⟩, ⟨fun _ => rfl, fun _ h => nomatch h⟩⟩

theorem LedgersAgree.change (h : db.LedgersAgree) (hchange : Change db q db') :
    db'.LedgersAgree :=
  ⟨h.1.step (step_memberLedger hchange), h.2.step (step_includeLedger hchange)⟩

theorem LedgersAgree.continues (h : db.LedgersAgree) (hchange : Change db q db') :
    db.TrailContinues db' :=
  ⟨h.1.continues (step_memberLedger hchange), h.2.continues (step_includeLedger hchange)⟩

theorem TrailContinues.refl (db : Database) : db.TrailContinues db :=
  ⟨Ledger.Continues.refl _, Ledger.Continues.refl _⟩

theorem TrailContinues.trans {db'' : Database} (h : db.TrailContinues db')
    (h' : db'.TrailContinues db'') : db.TrailContinues db'' :=
  ⟨h.1.trans h'.1, h.2.trans h'.2⟩

theorem LedgersAgree.trailAgrees (h : db.LedgersAgree) : db.TrailAgrees where
  open_member group account := by
    simp [h.1.length_openPeriods]
  open_include group included := by
    simp [h.2.length_openPeriods]
  whole_member r hr := h.1.isWhole r.period (List.mem_map_of_mem hr)
  whole_include r hr := h.2.isWhole r.period (List.mem_map_of_mem hr)

/-- Every statement keeps the ledgers in step and continues a trail. -/
theorem kept_ledgers (db : Database) :
    Kept fun db' => db'.LedgersAgree ∧ db.TrailContinues db' :=
  Kept.of_perform fun q db' h =>
    have hchange := db'.change_perform q
    ⟨h.1.change hchange, h.2.trans (h.1.continues hchange)⟩

end Database

theorem Reachable.ledgersAgree {db : Database} (h : Reachable db) : db.LedgersAgree :=
  (h.keeps ⟨Database.ledgersAgree_empty, .refl _⟩ (Database.kept_ledgers .empty)).1

/-- A step of a system whose ledgers agree continues the trail. -/
theorem System.trailContinues_step {s : System} (h : s.db.LedgersAgree) (i : Nat) :
    s.db.TrailContinues (s.step i).db := by
  rcases s.step_cases i with ⟨-, hstep⟩ | ⟨_, _, q, next, -, -, hstep⟩
  · rw [hstep]
    exact .refl s.db
  · rw [hstep]
    exact h.continues (s.db.change_perform q)

/--
A reachable database agrees with its audit trail, and each operation continues
it.  So does each step of operations that run at the same time.
-/
theorem trail_agrees_throughout {db : Database} (h : Reachable db) (calls : List Call)
    (schedule : List Nat) :
    let s := (System.start db calls).run schedule
    db.TrailAgrees ∧
    (∀ ⦃α : Type⦄ (operation : Operation α) (now : Instant),
      db.TrailContinues (operation.after now db)) ∧
    s.db.TrailAgrees ∧ db.TrailContinues s.db ∧
    ∀ i, s.db.TrailContinues (s.step i).db := by
  have hstart : db.LedgersAgree ∧ db.TrailContinues db := ⟨h.ledgersAgree, .refl db⟩
  have hkept := Database.kept_ledgers db
  have hrun := ((System.keeps_start hkept hstart calls).run schedule).holds
  refine ⟨hstart.1.trailAgrees, fun _ operation now => (hkept.after operation now hstart).2,
    hrun.1.trailAgrees, hrun.2, System.trailContinues_step hrun.1⟩

/-- A group is created while its creator is added and removed by calls of their own. -/
def racingCalls : List Call :=
  [⟨.createAccount none none none, .start⟩, ⟨.createGroup ⟨"g"⟩ "g" none none ⟨1⟩ .start, .start⟩,
   ⟨.addMember ⟨"g"⟩ ⟨1⟩ ⟨2⟩, .start⟩, ⟨.removeMember ⟨"g"⟩ ⟨1⟩ ⟨1⟩, .start⟩]

/-- Both additions find the account missing, one of them adds it, and the removal ends that. -/
theorem trail_agrees_in_race :
    let s := (System.start .empty racingCalls).run [0, 1, 1, 2, 1, 2, 1, 2, 3, 3]
    s.db.TrailAgrees ∧ s.db.members = [] ∧ s.db.memberAudits.length = 1 :=
  ⟨(trail_agrees_throughout .empty racingCalls _).2.2.1, by decide +kernel, by decide +kernel⟩

end AccessLedger
