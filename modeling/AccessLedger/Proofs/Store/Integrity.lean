import AccessLedger.Proofs.Audit.Completeness
import AccessLedger.Proofs.Store.Commit
import AccessLedger.Proofs.Store.References

/-!
# The store is well formed

Whatever operations have been done, successful ones or failing ones, what the
tables hold fits together (`Database.WellFormed`).  So what is asked about
groups, their audit records, projects and their sections is answered, if the
clock was in years of four digits: no column is met that cannot be read
(`store_is_well_formed`).
-/

namespace AccessLedger

/--
Each project has the revision of its sections as they are read, they are valid
and stand at positions from `0` on.  Members and included groups are those of
groups that are there, members are accounts that are there, and no number of a
group or an account is given twice.
-/
structure Database.WellFormed (db : Database) : Prop where
  projects : ∀ p ∈ db.projects, ∃ name sections, p.name = some name ∧
    (db.storedSections name).mapM AccessSection.ofStored = .ok sections ∧
    p.revision = revisionOf sections ∧ validateSections sections = .ok () ∧
    (db.sections.filter (·.project = name)).map SectionRow.position =
      (List.range sections.length).map fun i => .integer i
  members : ∀ r ∈ db.members,
    db.hasGroup r.group = true ∧ ∃ a ∈ db.accounts, r.account = .integer a.id
  includes : ∀ r ∈ db.includes, db.hasGroup r.group = true
  groupIds : (db.groups.map GroupRow.id).Nodup
  accountIds : (db.accounts.map AccountRow.id).Nodup

/-- A program gives an answer and changes nothing. -/
def StoreProgram.Answers {α : Type} (p : StoreProgram α) (db : Database) : Prop :=
  ∃ a, p.run db = (.ok a, db)

/-- Sections stand at positions from `0` on. -/
theorem Database.Holds.positions_eq {db : Database} {name : String} {sections : List AccessSection}
    (h : db.Holds name sections) :
    (db.sections.filter (·.project = name)).map SectionRow.position =
      (List.range sections.length).map fun i => .integer i := by
  rw [h, sectionRows]
  refine List.ext_getElem (by simp) fun i hi hi' => ?_
  simp only [List.getElem_map, List.getElem_mapIdx, List.getElem_range]

theorem Reachable.wellFormed {db : Database} (h : Reachable db) : db.WellFormed where
  projects p hp := by
    obtain ⟨name, sections, hname, hrevision, hvalid, hholds⟩ := h.wellKept.projects p hp
    refine ⟨name, sections, hname, ?_, hrevision, hvalid, hholds.positions_eq⟩
    rw [hholds.storedSections_eq]
    exact AccessSection.mapM_ofStored_toStored sections
  members := h.linked.members
  includes := h.linked.includes
  groupIds := h.numbered.groupIds
  accountIds := h.numbered.accountIds

/-! ## Questions are answered -/

namespace Recorded

variable {db : Database} {log : List LogEntry}

theorem answers_internalGroup (h : Recorded db log) (group : GroupUuid) :
    (Store.internalGroup group).Answers db := by
  obtain ⟨found, hfound, -, -⟩ := Database.reply_internalGroup (h.readable_group group)
  have hrun := Store.run_answer (.internalGroup group) db
  rw [hfound] at hrun
  exact ⟨found, hrun⟩

theorem answers_membersAudit (h : Recorded db log) (group : GroupUuid) :
    (Store.membersAudit group).Answers db := by
  obtain ⟨_, _, ⟨stays, hperiods, hdated, -⟩, -, -⟩ := h.trail
  exact ⟨_, Database.run_membersAudit hperiods hdated group⟩

theorem answers_subgroupsAudit (h : Recorded db log) (group : GroupUuid) :
    (Store.subgroupsAudit group).Answers db := by
  obtain ⟨_, _, -, ⟨stays, hperiods, hdated, -⟩, -⟩ := h.trail
  exact ⟨_, Database.run_subgroupsAudit hperiods hdated group⟩

end Recorded

theorem Database.WellKept.answers_access {db : Database} (h : db.WellKept) (name : String)
    (account : AccountId) : (Store.access name account).Answers db := by
  rw [StoreProgram.Answers, Store.access]
  cases hrow : db.project? name with
  | none => exact ⟨none, run_bind_of_ok (Store.run_project_of_none hrow) _⟩
  | some row =>
    obtain ⟨sections, -, -, hholds⟩ := h.found hrow
    exact ⟨_, run_bind_of_ok (Store.run_project_of_holds hrow hholds) _⟩

/--
After any calls, made one after the other from the empty database on in years
of four digits, the tables fit together, and what is asked about groups, audit
records, projects and sections is answered, whatever is asked for.
-/
theorem store_is_well_formed {calls : List Call}
    (hclock : ∀ c ∈ calls, ∀ t ∈ c.readings, t.InFourDigits) :
    let db := callAll .empty calls
    db.WellFormed ∧
    (∀ group, (Store.internalGroup group).Answers db) ∧
    (∀ group, (Store.groupDescription group).Answers db) ∧
    (∀ group account, (Store.isOwner group account).Answers db) ∧
    (∀ group, (Store.membersAudit group).Answers db) ∧
    (∀ group, (Store.subgroupsAudit group).Answers db) ∧
    (∀ project account, (Store.access project account).Answers db) ∧
    ∀ project account, (Store.ownedSections project account).Answers db := by
  intro db
  have hreachable : Reachable db := Reachable.empty.callAll calls
  have hrecorded := Recorded.empty.callAll hclock
  exact ⟨hreachable.wellFormed, hrecorded.answers_internalGroup, fun _ => ⟨_, rfl⟩,
    fun _ _ => ⟨_, rfl⟩, hrecorded.answers_membersAudit, hrecorded.answers_subgroupsAudit,
    hreachable.wellKept.answers_access, fun _ _ => ⟨_, rfl⟩⟩

/-- A group is made, a member comes and goes, and a project is stored and changed. -/
def officeCalls : List Call :=
  [⟨.createAccount none none none, second 0⟩, ⟨.createAccount none none none, second 1⟩,
   ⟨.createGroup ⟨"g"⟩ "g" none none ⟨1⟩ (second 1), second 2⟩, ⟨.addMember ⟨"g"⟩ ⟨2⟩ ⟨1⟩, second 3⟩,
   ⟨.removeMember ⟨"g"⟩ ⟨2⟩ ⟨1⟩, second 4⟩, ⟨.addSubgroup ⟨"g"⟩ ⟨"g"⟩ ⟨1⟩, second 5⟩,
   ⟨.createProject "p" none [⟨"refs/a", []⟩], second 6⟩,
   ⟨.grantSection "p" "refs/*" ⟨"g"⟩, second 7⟩,
   ⟨.applyAccess "p" ⟨1⟩ ⟨revisionOf [⟨"refs/a", []⟩], none, [⟨"refs/b", []⟩, ⟨"refs/c", []⟩]⟩,
    second 8⟩]

/-- The sections of the project have been replaced, and what is stored fits together. -/
theorem office_is_well_formed :
    let db := callAll .empty officeCalls
    db.WellFormed ∧ (∀ account, (Store.access "p" account).Answers db) ∧
      (db.members.length, db.includes.length, db.sections.map SectionRow.name) =
        (1, 1, ["refs/b", "refs/c"]) := by
  obtain ⟨hformed, -, -, -, -, -, haccess, -⟩ :=
    @store_is_well_formed officeCalls (by decide +kernel)
  refine ⟨hformed, fun account => haccess "p" account, ?_⟩
  decide +kernel

end AccessLedger
