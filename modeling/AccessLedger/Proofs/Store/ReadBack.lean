import AccessLedger.Proofs.Store.Result

/-!
# What has been written is read

The answer of a commit is made of what was loaded and merged, and is not read
from the store.  Still it is what is shown from then on, to the account that
made the commit and, but for the sections that they own, to all others
(`store_reads_its_writes`).  So to ask for the same sections once more, based
on the answer, gives the same answer and writes nothing
(`replayed_commit_changes_nothing`), although rules may have been dropped and
sections kept the first time.

Nothing is written when the revision stays the same.  A revision is a digest,
so in this case the stored sections are the answered ones unless the two lists
collide (`Store.Collision`).
-/

namespace AccessLedger

variable {db db' : Database}

namespace Store

variable {name : String} {account : AccountId} {update : AccessUpdate}
  {now : Instant} {answer : AccessConfig} {row : ProjectRow} {stored : List AccessSection}

/-- A new project has got valid sections and their revision. -/
theorem of_run_createProject {parent : Option String} {sections : List AccessSection}
    {revision : String}
    (hrun : (createProject name parent sections).run db = (.ok revision, db')) :
    db.project? name = none ∧ revision = revisionOf sections ∧
      db' = db.withProject name parent revision (sections.map AccessSection.toStored) := by
  unfold createProject at hrun
  cases hvalid : requireValid sections with
  | error e =>
    rw [hvalid] at hrun
    cases hrun
  | ok u =>
    rw [hvalid, run_bind_of_ok rfl, run_query_bind, Database.perform] at hrun
    rcases db.insertProject_cases name parent (revisionOf sections)
      (sections.map AccessSection.toStored) with h | ⟨fresh, h⟩ <;> rw [h] at hrun
    · cases hrun
    · cases hrun
      exact ⟨fresh, rfl, rfl⟩

/-- A new project is shown to all as it was made. -/
theorem run_access_of_createProject (h : db.WellKept) {parent : Option String}
    {sections : List AccessSection} {revision : String}
    (hrun : (createProject name parent sections).run db = (.ok revision, db'))
    (other : AccountId) :
    (access name other).run db' = (.ok (some
      ⟨name, revision, parent, sections, db'.ownedSections name other⟩), db') := by
  obtain ⟨fresh, -, rfl⟩ := of_run_createProject hrun
  have hrow := Database.project?_withProject fresh parent revision
    (sections.map AccessSection.toStored) name
  rw [if_pos rfl] at hrow
  exact run_access_of_holds hrow (Database.holds_withProject_self fresh h parent revision sections)

/-- Only an account that owns a section can commit. -/
theorem Committed.owned (h : Committed db name account update now row stored answer db')
    (hrun : (applyAccess name account update now).run db = (.ok answer, db')) :
    (db.ownedSections name account).isEmpty = false := by
  have hrequire : requireValid update.sections = .ok () := by rw [requireValid, h.valid]
  rw [applyAccess_eq, run_bind_of_ok (run_project_of_holds h.found h.holds)] at hrun
  simp only [commitLoaded, hrequire] at hrun
  split at hrun
  · cases hrun
  rw [run_bind_of_ok rfl, run_query_bind, Database.perform] at hrun
  simp only [commitOwned] at hrun
  split at hrun
  · cases hrun
  · next howned => simpa using howned

/--
What has been written is read.  After a commit its answer is shown, and to
other accounts the same with the sections that these own; after a project has
been made it is shown as it was made.  This holds of a commit that has written
nothing too, if the stored sections and the answered ones do not collide.
-/
theorem store_reads_its_writes (h : Reachable db) (name : String) (now : Instant) :
    (∀ account update answer db',
      (applyAccess name account update now).run db = (.ok answer, db') →
      ∃ before, (project name).run db = (.ok (some before), db) ∧
        (¬Collision before.sections answer.sections →
          (access name account).run db' = (.ok (some answer), db') ∧
          ∀ other, (access name other).run db' =
            (.ok (some { answer with ownerOf := db'.ownedSections name other }), db'))) ∧
    (∀ parent sections revision db',
      (createProject name parent sections).run db = (.ok revision, db') →
      ∀ other, (access name other).run db' = (.ok (some
        ⟨name, revision, parent, sections, db'.ownedSections name other⟩), db')) := by
  constructor
  · intro account update answer db' hrun
    obtain ⟨row, stored, hcommitted⟩ := Committed.of_run h.wellKept hrun
    refine ⟨_, run_project_of_holds hcommitted.found hcommitted.holds, fun htells => ?_⟩
    exact ⟨hcommitted.run_access htells, hcommitted.run_access_by htells⟩
  · intro parent sections revision db' hrun
    exact run_access_of_createProject h.wellKept hrun

end Store

/-- What is stored of the second project before the commit does not collide with the answer. -/
theorem not_collision_splitAnswer {before : Project}
    (hbefore : (Store.project "q").run splitProject = (.ok (some before), splitProject)) :
    ¬Store.Collision before.sections splitAnswer.sections := by
  have hloaded := Store.run_project_of_holds project?_splitProject holds_splitProject
  obtain rfl := Option.some.inj (Except.ok.inj (Prod.ext_iff.mp (hbefore.symm.trans hloaded)).1)
  have hne : revisionOf [⟨"refs/a", []⟩, ⟨"refs/b", []⟩] ≠ revisionOf splitMerged := by
    decide +kernel
  exact fun h => hne h.2

/-- The commit is shown to the account that made it, and a new project to any other. -/
theorem split_project_reads_its_writes :
    (∃ db', (Store.applyAccess "q" ⟨1⟩ splitUpdate .start).run splitProject =
        (.ok splitAnswer, db') ∧
      (Store.access "q" ⟨1⟩).run db' = (.ok (some splitAnswer), db')) ∧
    ∃ revision db',
      (Store.createProject "r" (some "q") splitMerged).run splitProject = (.ok revision, db') ∧
      (Store.access "r" ⟨2⟩).run db' = (.ok (some
        ⟨"r", revision, some "q", splitMerged, db'.ownedSections "r" ⟨2⟩⟩), db') := by
  obtain ⟨db', hrun⟩ := run_splitUpdate
  obtain ⟨hcommits, -⟩ := Store.store_reads_its_writes reachable_splitProject "q" .start
  obtain ⟨before, hbefore, hshown⟩ := hcommits _ _ _ _ hrun
  have hcreate : ((Store.createProject "r" (some "q") splitMerged).run splitProject).1 =
      .ok (revisionOf splitMerged) := by
    decide +kernel
  obtain ⟨-, hprojects⟩ := Store.store_reads_its_writes reachable_splitProject "r" .start
  exact ⟨⟨db', hrun, (hshown (not_collision_splitAnswer hbefore)).1⟩,
    _, _, Prod.ext hcreate rfl, hprojects _ _ _ _ (Prod.ext hcreate rfl) ⟨2⟩⟩

namespace Store

variable {name : String} {account : AccountId} {update : AccessUpdate} {now : Instant}
  {answer : AccessConfig}

/--
A commit that is made once more, based on its answer, has the same answer and
changes nothing, whatever is said about it and whenever, if the sections that
were stored before and the answered ones do not collide.
-/
theorem replayed_commit_changes_nothing (h : Reachable db)
    (hrun : (applyAccess name account update now).run db = (.ok answer, db')) :
    ∃ before, (project name).run db = (.ok (some before), db) ∧
      (¬Collision before.sections answer.sections → ∀ message later,
        (applyAccess name account ⟨answer.revision, message, update.sections⟩ later).run db' =
          (.ok answer, db')) := by
  obtain ⟨row, stored, hcommitted⟩ := Committed.of_run h.wellKept hrun
  have hfree : db'.contended = false :=
    (h.of_run (.applyAccess name account update) now hrun).contended_eq
  refine ⟨_, run_project_of_holds hcommitted.found hcommitted.holds, fun htells => ?_⟩
  exact hcommitted.run_again htells (hcommitted.owned hrun) hfree

end Store

/-- The commit that has dropped a rule and kept a section is made once more. -/
theorem split_commit_is_replayed : ∃ db',
    (Store.applyAccess "q" ⟨1⟩ splitUpdate .start).run splitProject = (.ok splitAnswer, db') ∧
    ∀ message later, (Store.applyAccess "q" ⟨1⟩
      ⟨splitAnswer.revision, message, splitUpdate.sections⟩ later).run db' =
        (.ok splitAnswer, db') := by
  obtain ⟨db', hrun⟩ := run_splitUpdate
  obtain ⟨before, hbefore, hagain⟩ :=
    Store.replayed_commit_changes_nothing reachable_splitProject hrun
  exact ⟨db', hrun, hagain (not_collision_splitAnswer hbefore)⟩

end AccessLedger
