import AccessLedger.Proofs.Access.Merged
import AccessLedger.Proofs.Store.Outcome

/-!
# What a commit answers and what it leaves alone

The answer of a commit is known in full from what was stored and requested
(`commits_merge_exactly`): what is found under each name, that the names are
valid and differ, and their order.  All that is stored of anything but the
project is as it was (`Database.SameOutside`).
-/

namespace AccessLedger

/-- Whether a group has a description, be it internal or not. -/
def Database.describes (db : Database) (uuid : GroupUuid) : Bool := (db.description? uuid).isSome

/-! ## Other rows -/

/-- Two databases that differ only in one project, its sections and its history. -/
structure Database.SameOutside (project : String) (db db' : Database) : Prop where
  accounts : db'.accounts = db.accounts
  groups : db'.groups = db.groups
  externals : db'.externals = db.externals
  members : db'.members = db.members
  memberAudits : db'.memberAudits = db.memberAudits
  includes : db'.includes = db.includes
  includeAudits : db'.includeAudits = db.includeAudits
  grants : db'.grants = db.grants
  projects : db'.projects.filter (·.name ≠ some project) =
    db.projects.filter (·.name ≠ some project)
  sections : db'.sections.filter (·.project ≠ project) = db.sections.filter (·.project ≠ project)
  history : db'.history.filter (·.project ≠ project) = db.history.filter (·.project ≠ project)

namespace Database.SameOutside

variable {db : Database}

theorem refl (project : String) (db : Database) : db.SameOutside project db :=
  ⟨rfl, rfl, rfl, rfl, rfl, rfl, rfl, rfl, rfl, rfl, rfl⟩

/-- New sections of a project leave all else alone. -/
theorem swap (s : SectionSwap) : db.SameOutside s.project (db.swap s) where
  accounts := rfl
  groups := rfl
  externals := rfl
  members := rfl
  memberAudits := rfl
  includes := rfl
  includeAudits := rfl
  grants := rfl
  projects := by
    refine filter_map_of_fixed _ (fun p => ?_) fun p hp => ?_
    · split <;> rfl
    · rw [if_neg (of_decide_eq_true hp)]
  sections := by
    have hnew : (sectionRows s.project s.sections).filter (·.project ≠ s.project) = [] := by
      refine List.filter_eq_nil_iff.mpr fun r hr hne => ?_
      exact of_decide_eq_true hne (project_of_mem_sectionRows hr)
    rw [Database.swap, List.filter_append, hnew, List.append_nil]
    exact filter_filter_of_imp _ fun _ h => h
  history := by
    refine filter_append_of_ne _ _ ?_
    simp

end Database.SameOutside

/-! ## Commits -/

namespace Store

variable {db db' : Database} {name : String} {account : AccountId} {update : AccessUpdate}
  {now : Instant} {answer : AccessConfig} {row : ProjectRow} {stored : List AccessSection}

/-- All groups that have a description are known to a commit. -/
theorem mergedBy_eq (stored requested : List AccessSection) :
    mergedBy db name account stored requested =
      mergeSections (db.ownedSections name account).coversSection
        db.describes stored requested :=
  mergeSections_congr fun _ hs _ hr => knownIn_eq hs hr

theorem Committed.sections_eq (h : Committed db name account update now row stored answer db') :
    answer.sections = mergeSections (db.ownedSections name account).coversSection
      db.describes stored update.sections := by
  rw [h.answer_eq, commitResult, mergedBy_eq]

theorem Committed.sameOutside (h : Committed db name account update now row stored answer db') :
    db.SameOutside name db' := by
  rw [h.after]
  split
  · exact .refl name db
  · exact .swap (commitSwap name account update now ⟨row.parent, row.revision, stored⟩
      (mergedBy db name account stored update.sections))

/--
The exact result of a commit.  Under a name that the account may change there
is the requested section without the rules for groups that have no
description, and under any other name there is what was stored.  The names are
valid, no two are the same, and they come in the order of the request and then
in that of the store.  Nothing else is changed.
-/
theorem commits_merge_exactly (h : Reachable db)
    (hrun : (applyAccess name account update now).run db = (.ok answer, db')) :
    let canChange := (db.ownedSections name account).coversSection
    ∃ before, (project name).run db = (.ok (some before), db) ∧
      (∀ n, canChange n = true →
        Option.Rel (AccessSection.Narrows fun r => db.describes r.group.uuid)
          (update.sections.find? (·.name = n)) (answer.section? n)) ∧
      (∀ n, canChange n = false → answer.section? n = before.sections.find? (·.name = n)) ∧
      (∀ s ∈ answer.sections, sectionFault? [] s.name = none) ∧
      (answer.sections.map AccessSection.name).Nodup ∧
      answer.sections.map AccessSection.name =
        mergedNames canChange (before.sections.map AccessSection.name)
          (update.sections.map AccessSection.name) ∧
      db.SameOutside name db' := by
  intro canChange
  obtain ⟨row, stored, hcommitted⟩ := Committed.of_run h.wellKept hrun
  have hstored := hcommitted.stored_valid
  have hrequested := hcommitted.valid
  have hsections := hcommitted.sections_eq
  have hvalid : validateSections answer.sections = .ok () := by
    rw [hsections]
    exact valid_mergeSections hstored hrequested
  obtain ⟨hnames, hnodup⟩ := validateSections_eq_ok.mp hvalid
  refine ⟨_, run_project_of_holds hcommitted.found hcommitted.holds, fun n hn => ?_,
    fun n hn => ?_, hnames, hnodup, ?_, hcommitted.sameOutside⟩
  · rw [AccessConfig.section?, hsections]
    exact rel_find?_mergeSections hn hstored hrequested
  · rw [AccessConfig.section?, hsections, find?_mergeSections hstored hrequested]
    exact if_neg (Bool.eq_false_iff.mp hn)
  · rw [hsections]
    exact map_name_mergeSections

end Store

/-- A second project with two sections, of which account 1 may change one, and a third one. -/
def splitProject : Database :=
  (Operation.grantSection "q" "refs/c" ⟨"g"⟩).after .start <|
  (Operation.grantSection "q" "refs/a" ⟨"g"⟩).after .start <|
  (Operation.createProject "q" none [⟨"refs/a", []⟩, ⟨"refs/b", []⟩]).after .start sharedProject

theorem reachable_splitProject : Reachable splitProject :=
  ((reachable_sharedProject.step _ _).step _ _).step _ _

theorem project?_splitProject : splitProject.project? "q" =
    some ⟨some "q", none, revisionOf [⟨"refs/a", []⟩, ⟨"refs/b", []⟩]⟩ := by
  decide +kernel

theorem holds_splitProject : splitProject.Holds "q" [⟨"refs/a", []⟩, ⟨"refs/b", []⟩] := by
  decide +kernel

/-- A rule for a group that nobody knows and two new sections, without one that is stored. -/
def splitUpdate : AccessUpdate :=
  ⟨revisionOf [⟨"refs/a", []⟩, ⟨"refs/b", []⟩], none,
   [⟨"refs/d", []⟩, ⟨"refs/c", []⟩,
    ⟨"refs/a", [⟨"read", false, [⟨⟨⟨"x"⟩, "x"⟩, .allow, false, 0, 0⟩]⟩]⟩]⟩

/-- What is stored then: a section has lost its rule, one is new, and one stays. -/
def splitMerged : List AccessSection :=
  [⟨"refs/c", []⟩, ⟨"refs/a", [⟨"read", false, []⟩]⟩, ⟨"refs/b", []⟩]

/-- What is answered then. -/
def splitAnswer : AccessConfig :=
  ⟨"q", revisionOf splitMerged, none, splitMerged, .ofList ["refs/a", "refs/c"]⟩

/-- The commit is based on the stored revision, so it is carried out. -/
theorem run_splitUpdate : ∃ db',
    (Store.applyAccess "q" ⟨1⟩ splitUpdate .start).run splitProject = (.ok splitAnswer, db') := by
  have hvalid : validateSections splitUpdate.sections = .ok () := by decide +kernel
  have howned : splitProject.ownedSections "q" ⟨1⟩ = splitAnswer.ownerOf := by decide +kernel
  have hmerged : Store.mergedBy splitProject "q" ⟨1⟩ [⟨"refs/a", []⟩, ⟨"refs/b", []⟩]
      splitUpdate.sections = splitMerged := by
    decide +kernel
  have hsome : (splitProject.ownedSections "q" ⟨1⟩).isEmpty = false := by decide +kernel
  have hrun := @Store.run_applyAccess splitProject "q" ⟨1⟩ splitUpdate .start _ _
    holds_splitProject project?_splitProject rfl hvalid hsome reachable_splitProject.contended_eq
  simp only [hmerged, howned] at hrun
  exact ⟨_, hrun⟩

/-- A rule is lost, and the other project stays as it is. -/
theorem split_commit_merges_exactly : ∃ db',
    (Store.applyAccess "q" ⟨1⟩ splitUpdate .start).run splitProject = (.ok splitAnswer, db') ∧
    Option.Rel (AccessSection.Narrows fun r => splitProject.describes r.group.uuid)
      (splitUpdate.sections.find? (·.name = "refs/a")) (splitAnswer.section? "refs/a") ∧
    splitProject.SameOutside "q" db' := by
  obtain ⟨db', hrun⟩ := run_splitUpdate
  obtain ⟨-, -, hmine, -, -, -, -, houtside⟩ :=
    Store.commits_merge_exactly reachable_splitProject hrun
  exact ⟨db', hrun, hmine "refs/a" (by decide +kernel), houtside⟩

end AccessLedger
