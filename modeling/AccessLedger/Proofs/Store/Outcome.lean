import AccessLedger.Proofs.Access.Unapplied
import AccessLedger.Proofs.Store.Commits
import AccessLedger.Proofs.Store.Effects

/-!
# What a commit comes to

A commit that runs undisturbed and succeeds has found a project and a valid
request, and answers the merged sections (`Store.Committed.of_run`).  They are
what is stored then, unless their revision has been the stored one before
(`Store.Committed.exists_current`).
-/

namespace AccessLedger

/-- No lock is held by a database that operations have made. -/
theorem Reachable.contended_eq {db : Database} (h : Reachable db) : db.contended = false := by
  have hkept : Kept fun db => db.contended = false := .of_perform fun q db hfree => by
    have hchange := db.change_perform q
    generalize (db.perform q).2 = db' at hchange ⊢
    cases hchange <;> exact hfree
  exact @Reachable.keeps (fun db => db.contended = false) rfl hkept db h

namespace Store

variable {db db' : Database} {name : String} {account : AccountId} {update : AccessUpdate}
  {now : Instant} {answer : AccessConfig} {row : ProjectRow} {stored : List AccessSection}

/-! ## The groups of a request -/

theorem mem_referencedGroups {sections : List AccessSection} {s : AccessSection}
    {r : PermissionRule} (hs : s ∈ sections) (hr : r ∈ s.rules) :
    r.group.uuid ∈ referencedGroups sections := by
  refine List.mem_map.mpr ⟨r.group.uuid.text, NameSet.mem_ofList.mpr ?_, rfl⟩
  exact List.mem_flatMap.mpr ⟨s, hs, List.mem_map_of_mem (List.mem_map_of_mem hr)⟩

/-- The group of a requested rule is known if it has a description. -/
theorem knownIn_eq {sections : List AccessSection} {s : AccessSection} {r : PermissionRule}
    (hs : s ∈ sections) (hr : r ∈ s.rules) :
    knownIn db sections r.group.uuid = (db.description? r.group.uuid).isSome := by
  rw [knownIn, Bool.eq_iff_iff, decide_eq_true_eq, List.mem_filter]
  exact and_iff_right (mem_referencedGroups hs hr)

/-! ## What is shown of a project -/

/-- What a project holds is shown, with the sections that the account owns. -/
theorem run_access_of_holds (hrow : db.project? name = some row) (hholds : db.Holds name stored) :
    (access name account).run db =
      (.ok (some ⟨name, row.revision, row.parent, stored, db.ownedSections name account⟩), db) := by
  rw [access, run_bind_of_ok (run_project_of_holds hrow hholds)]
  rfl

/-! ## Commits that succeed -/

/-- What a commit makes of the stored sections on behalf of an account. -/
def mergedBy (db : Database) (name : String) (account : AccountId)
    (stored requested : List AccessSection) : List AccessSection :=
  mergeSections (db.ownedSections name account).coversSection (knownIn db requested) stored
    requested

/-- A commit has found a project with these sections, and has merged its own into them. -/
structure Committed (db : Database) (name : String) (account : AccountId) (update : AccessUpdate)
    (now : Instant) (row : ProjectRow) (stored : List AccessSection) (answer : AccessConfig)
    (db' : Database) : Prop where
  found : db.project? name = some row
  revision : row.revision = revisionOf stored
  holds : db.Holds name stored
  stored_valid : validateSections stored = .ok ()
  valid : validateSections update.sections = .ok ()
  answer_eq : answer = commitResult name ⟨row.parent, row.revision, stored⟩
    (db.ownedSections name account) (mergedBy db name account stored update.sections)
  after : db' = if revisionOf (mergedBy db name account stored update.sections) = row.revision
    then db
    else db.swap (commitSwap name account update now ⟨row.parent, row.revision, stored⟩
      (mergedBy db name account stored update.sections))

/-- A commit that comes too late fails, whatever it reads then. -/
theorem exists_error_commitLost (name : String) (update : AccessUpdate) (db : Database) :
    ∃ e, (commitLost name update).run db = (.error e, db) := by
  rcases run_bind_of_asks_isRead (asks_project name) _ db with ⟨e, h⟩ | ⟨_, -, h⟩
  · exact ⟨e, h⟩
  · exact ⟨_, h⟩

/-- A commit that succeeds has passed all checks, and has stored what it answers or nothing. -/
theorem Committed.of_run (h : db.WellKept)
    (hrun : (applyAccess name account update now).run db = (.ok answer, db')) :
    ∃ row stored, Committed db name account update now row stored answer db' := by
  rw [applyAccess_eq] at hrun
  cases hrow : db.project? name with
  | none =>
    rw [run_bind_of_ok (run_project_of_none hrow)] at hrun
    cases hrun
  | some row =>
    obtain ⟨stored, hrevision, hstored, hholds⟩ := h.found hrow
    refine ⟨row, stored, ?_⟩
    rw [run_bind_of_ok (run_project_of_holds hrow hholds)] at hrun
    simp only [commitLoaded] at hrun
    split at hrun
    · cases hrun
    cases hvalid : requireValid update.sections with
    | error e =>
      rw [hvalid] at hrun
      cases hrun
    | ok u =>
      rw [hvalid, run_bind_of_ok rfl, run_query_bind, Database.perform] at hrun
      simp only [commitOwned] at hrun
      split at hrun
      · cases hrun
      rw [run_query_bind, Database.perform] at hrun
      change StoreProgram.run (commitMerged name account update now _ _
        (mergedBy db name account stored update.sections)) db = _ at hrun
      have hvalid := requireValid_eq_ok hvalid
      simp only [commitMerged] at hrun
      split at hrun
      · next hsame =>
        cases hrun
        exact ⟨hrow, hrevision, hholds, hstored, hvalid, rfl, (if_pos hsame).symm⟩
      · next hdiffers =>
        rw [run_query_bind, Database.perform] at hrun
        rcases db.swapSections_cases (commitSwap name account update now
            ⟨row.parent, row.revision, stored⟩ (mergedBy db name account stored update.sections))
          with hswap | ⟨p, -, -, hswap⟩ <;> rw [hswap] at hrun
        · obtain ⟨e, hlost⟩ := exists_error_commitLost name update db
          have hfail := hlost.symm.trans hrun
          cases hfail
        · cases hrun
          exact ⟨hrow, hrevision, hholds, hstored, hvalid, rfl, (if_neg hdiffers).symm⟩

/--
A commit that passes all checks succeeds if no other writer comes first.  It
swaps the merged sections in unless the revision is the same.
-/
theorem run_applyAccess (hholds : db.Holds name stored) (hrow : db.project? name = some row)
    (hcurrent : update.revision = row.revision)
    (hvalid : validateSections update.sections = .ok ())
    (howned : (db.ownedSections name account).isEmpty = false) (hfree : db.contended = false) :
    let loaded : Project := ⟨row.parent, row.revision, stored⟩
    let merged := mergedBy db name account stored update.sections
    (applyAccess name account update now).run db =
      (.ok (commitResult name loaded (db.ownedSections name account) merged),
       if revisionOf merged = row.revision then db
       else db.swap (commitSwap name account update now loaded merged)) := by
  intro loaded merged
  rw [applyAccess_eq, run_bind_of_ok (run_project_of_holds hrow hholds)]
  have hrequire : requireValid update.sections = .ok () := by
    rw [requireValid, hvalid]
  simp only [commitLoaded, hcurrent, ne_eq, not_true_eq_false, if_false]
  rw [hrequire, run_bind_of_ok rfl, run_query_bind, Database.perform]
  simp only [commitOwned, howned, Bool.false_eq_true, if_false]
  rw [run_query_bind, Database.perform]
  change StoreProgram.run (commitMerged name account update now loaded _ merged) db = _
  simp only [commitMerged]
  split
  · rfl
  · have hswap : db.swapSections (commitSwap name account update now loaded merged) =
        (.ok true, db.swap (commitSwap name account update now loaded merged)) := by
      simp [Database.swapSections, Database.swap, commitSwap, loaded, hrow, hfree]
    rw [run_query_bind, Database.perform, hswap]
    rfl

theorem exists_run_applyAccess (hholds : db.Holds name stored)
    (hrow : db.project? name = some row) (hcurrent : update.revision = row.revision)
    (hvalid : validateSections update.sections = .ok ())
    (howned : (db.ownedSections name account).isEmpty = false) (hfree : db.contended = false) :
    ∃ answer db', (applyAccess name account update now).run db = (.ok answer, db') :=
  ⟨_, _, run_applyAccess hholds hrow hcurrent hvalid howned hfree⟩

/-- Two different lists of sections have one revision. -/
def Collision (a b : List AccessSection) : Prop := a ≠ b ∧ revisionOf a = revisionOf b

/-- Sections that do not collide have one revision if they are the same. -/
theorem revisionOf_eq_iff {a b : List AccessSection} (htells : ¬Collision a b) :
    revisionOf b = revisionOf a ↔ b = a := by
  constructor
  · intro hrevision
    by_contra hne
    exact htells ⟨Ne.symm hne, hrevision.symm⟩
  · rintro rfl
    rfl

/--
After a commit the project has the revision that is answered, and holds the
answered sections, unless their revision is that of other sections which were
stored before.
-/
theorem Committed.exists_holds (h : Committed db name account update now row stored answer db') :
    ∃ row' current, db'.project? name = some row' ∧ db'.Holds name current ∧
      row'.parent = row.parent ∧ row'.revision = answer.revision ∧
      (current = answer.sections ∨ Collision stored answer.sections) := by
  obtain ⟨hrow, hrevision, hholds, -, -, rfl, rfl⟩ := h
  split
  · next hsame =>
    refine ⟨row, stored, hrow, hholds, rfl, hsame.symm, ?_⟩
    by_cases hstored : stored = mergedBy db name account stored update.sections
    · exact .inl hstored
    · exact .inr ⟨hstored, hrevision.symm.trans hsame.symm⟩
  · have hrow' := Database.project?_swap_self (commitSwap name account update now
      ⟨row.parent, row.revision, stored⟩ (mergedBy db name account stored update.sections)) hrow
    have hholds' := @Database.holds_swap_self db (commitSwap name account update now
      ⟨row.parent, row.revision, stored⟩ (mergedBy db name account stored update.sections)) _ rfl
    exact ⟨_, _, hrow', hholds', rfl, rfl, .inl rfl⟩

/-- If the answered sections collide with the ones that were stored, those stay. -/
theorem Committed.eq_of_collision (h : Committed db name account update now row stored answer db')
    (hcollision : Collision stored answer.sections) : db' = db := by
  have hsame : revisionOf (mergedBy db name account stored update.sections) = row.revision := by
    rw [h.revision, hcollision.2, h.answer_eq, commitResult]
  rw [h.after, if_pos hsame]

/-- What is loaded after a commit has the revision that is answered. -/
theorem Committed.exists_current (h : Committed db name account update now row stored answer db') :
    ∃ current, (project name).run db' = (.ok (some current), db') ∧
      current.revision = answer.revision ∧
      (current.sections = answer.sections ∨ Collision stored answer.sections) := by
  obtain ⟨row', current, hrow, hholds, -, hrevision, hcurrent⟩ := h.exists_holds
  exact ⟨_, run_project_of_holds hrow hholds, hrevision, hcurrent⟩

/-- A commit changes neither who owns sections nor which groups are known. -/
theorem Committed.sameTables (h : Committed db name account update now row stored answer db') :
    db'.ownedSections = db.ownedSections ∧ knownIn db' = knownIn db := by
  rw [h.after]
  split <;> exact ⟨rfl, rfl⟩

/-- After a commit its answer is what is shown to all, but for the sections that they own. -/
theorem Committed.run_access_by (h : Committed db name account update now row stored answer db')
    (htells : ¬Collision stored answer.sections) (other : AccountId) :
    (access name other).run db' =
      (.ok (some { answer with ownerOf := db'.ownedSections name other }), db') := by
  obtain ⟨row', current, hrow, hholds, hparent, hrevision, hcurrent⟩ := h.exists_holds
  obtain rfl := hcurrent.resolve_right htells
  rw [run_access_of_holds hrow hholds, hparent, hrevision, h.answer_eq]
  rfl

/-- After a commit its answer is what is shown. -/
theorem Committed.run_access (h : Committed db name account update now row stored answer db')
    (htells : ¬Collision stored answer.sections) :
    (access name account).run db' = (.ok (some answer), db') := by
  have howned : db'.ownedSections name account = answer.ownerOf := by
    rw [h.sameTables.1, h.answer_eq, commitResult]
  rw [h.run_access_by htells, howned]

/-- To ask for the same sections once more gives the same answer and changes nothing. -/
theorem Committed.run_again (h : Committed db name account update now row stored answer db')
    (htells : ¬Collision stored answer.sections)
    (howned : (db.ownedSections name account).isEmpty = false) (hfree : db'.contended = false)
    (message : Option String) (later : Instant) :
    (applyAccess name account ⟨answer.revision, message, update.sections⟩ later).run db' =
      (.ok answer, db') := by
  obtain ⟨row', current, hrow, hholds, hparent, hrevision, hcurrent⟩ := h.exists_holds
  obtain rfl := hcurrent.resolve_right htells
  obtain ⟨howns, hknown⟩ := h.sameTables
  have hsections : answer.sections = mergedBy db name account stored update.sections := by
    rw [h.answer_eq, commitResult]
  have hanswer : answer.revision = revisionOf answer.sections := by
    rw [h.answer_eq, commitResult]
  have hmerged : mergedBy db' name account answer.sections update.sections = answer.sections := by
    simp only [mergedBy, howns, hknown, hsections]
    exact mergeSections_merged h.stored_valid h.valid
  have hrun := @run_applyAccess db' name account ⟨answer.revision, message, update.sections⟩
    later row' answer.sections hholds hrow hrevision.symm h.valid
    (by rw [howns]; exact howned) hfree
  simp only [hmerged, hrevision, ← hanswer, if_true, howns, hparent] at hrun
  rw [hrun, commitResult, ← hanswer, h.answer_eq]
  rfl

/-- The answer differs from the request at the names that are unapplied. -/
theorem Committed.mem_sectionDifference
    (h : Committed db name account update now row stored answer db') {n : String} :
    n ∈ sectionDifference update.sections answer.sections ↔
      Unapplied (db.ownedSections name account).coversSection
        (fun u => (db.description? u).isSome) stored update.sections n := by
  have hknown (s : AccessSection) (hs : s ∈ update.sections) (r : PermissionRule)
      (hr : r ∈ s.rules) : knownIn db update.sections r.group.uuid =
        (db.description? r.group.uuid).isSome := knownIn_eq hs hr
  rw [h.answer_eq, commitResult, mergedBy,
    mem_sectionDifference_mergeSections h.stored_valid h.valid]
  constructor
  · exact Unapplied.congr hknown
  · exact Unapplied.congr fun s hs r hr => (hknown s hs r hr).symm

theorem Committed.namedOnce_answer
    (h : Committed db name account update now row stored answer db') :
    NamedOnce answer.sections := by
  rw [h.answer_eq]
  exact namedOnce_of_valid (valid_mergeSections h.stored_valid h.valid)

/-- The answer differs nowhere if it has the sections of the request, in whatever order. -/
theorem Committed.isEmpty_sectionDifference
    (h : Committed db name account update now row stored answer db') :
    (sectionDifference update.sections answer.sections).isEmpty = true ↔
      answer.sections.Perm update.sections := by
  rw [AccessLedger.isEmpty_sectionDifference (namedOnce_of_valid h.valid) h.namedOnce_answer]
  exact List.perm_comm

end Store

end AccessLedger
