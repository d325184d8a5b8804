import AccessLedger.Proofs.Store.Authority
import AccessLedger.Proofs.Store.ReadBack

/-!
# Why a commit is refused

A commit makes four checks, one after the other: the project is there, it has
the revision that the commit is based on, the requested sections are valid, and
the account owns a section.  `Store.CommitRefused` says of each failure what
the tables are like when it is answered; of several reasons the first one
counts.  On a reachable database nothing else can go wrong, since what is
stored can be read and nobody else writes between the checks and the swap
(`Store.refusals_are_exact`).  A commit that passes adds a row to the history,
unless it comes to the sections that are stored already.
-/

namespace AccessLedger

/-- An account owns no section if none is granted to a group of which it is a direct member. -/
theorem Database.isEmpty_ownedSections {db : Database} {name : String} {account : AccountId} :
    (db.ownedSections name account).isEmpty = true ↔
      ∀ g ∈ db.grants, g.project = name → db.isMember g.group account = false := by
  rw [NameSet.isEmpty_iff]
  constructor
  · intro hnone g hg hproject
    refine Bool.eq_false_iff.mpr fun hmember => hnone g.sectionName ?_
    exact mem_ownedSections.mpr ⟨g, hg, hproject, rfl, hmember⟩
  · intro hnone n hn
    obtain ⟨g, hg, hproject, -, hmember⟩ := mem_ownedSections.mp hn
    rw [hnone g hg hproject] at hmember
    cases hmember

namespace Store

section

variable (db : Database) (name : String) (account : AccountId) (update : AccessUpdate)

/-- Why a commit is refused; each reason counts only if those before it do not apply. -/
inductive CommitRefused : Failure → Prop
  | noProject (absent : db.project? name = none) : CommitRefused (.projectNotFound name)
  | stale {row : ProjectRow} (found : db.project? name = some row)
      (other : row.revision ≠ update.revision) :
      CommitRefused (.staleRevision row.revision update.revision)
  | invalid {row : ProjectRow} {fault : SectionFault} (found : db.project? name = some row)
      (current : row.revision = update.revision)
      (faulty : validateSections update.sections = .error fault) :
      CommitRefused (.validation fault.message)
  | notOwner {row : ProjectRow} (found : db.project? name = some row)
      (current : row.revision = update.revision)
      (valid : validateSections update.sections = .ok ())
      (nothing : ∀ g ∈ db.grants, g.project = name → db.isMember g.group account = false) :
      CommitRefused .notOwner

/-- A commit that no check refuses. -/
structure CommitPasses (row : ProjectRow) : Prop where
  found : db.project? name = some row
  current : update.revision = row.revision
  valid : validateSections update.sections = .ok ()
  owned : (db.ownedSections name account).isEmpty = false

/-- One of the checks refuses a commit, or all are passed. -/
theorem refused_or_passes :
    (∃ e, CommitRefused db name account update e) ∨
      ∃ row, CommitPasses db name account update row := by
  cases found : db.project? name with
  | none => exact .inl ⟨_, .noProject found⟩
  | some row =>
    by_cases current : row.revision = update.revision
    · cases valid : validateSections update.sections with
      | error fault => exact .inl ⟨_, .invalid found current valid⟩
      | ok u =>
        cases owned : (db.ownedSections name account).isEmpty with
        | true =>
          have nothing := Database.isEmpty_ownedSections.mp owned
          exact .inl ⟨_, .notOwner found current valid nothing⟩
        | false => exact .inr ⟨row, found, current.symm, valid, owned⟩
    · exact .inl ⟨_, .stale found current⟩

end

variable {db : Database} {name : String} {account : AccountId} {update : AccessUpdate}
  {now : Instant}

/-- A commit of a project that is there goes on with what the project holds. -/
theorem run_applyAccess_of_found (h : db.WellKept) {row : ProjectRow}
    (found : db.project? name = some row) :
    ∃ stored, (applyAccess name account update now).run db =
      (commitLoaded name account update now (some ⟨row.parent, row.revision, stored⟩)).run db := by
  obtain ⟨stored, -, -, hholds⟩ := h.found found
  refine ⟨stored, ?_⟩
  rw [applyAccess_eq, run_bind_of_ok (run_project_of_holds found hholds)]

/-- The reason for which a commit is refused is what it fails with. -/
theorem CommitRefused.run (h : db.WellKept) {e : Failure}
    (hrefused : CommitRefused db name account update e) :
    (applyAccess name account update now).run db = (.error e, db) := by
  cases hrefused with
  | noProject absent =>
    rw [applyAccess_eq, run_bind_of_ok (run_project_of_none absent)]
    rfl
  | stale found other =>
    obtain ⟨stored, hrun⟩ := run_applyAccess_of_found h found
    rw [hrun, commitLoaded, if_pos other]
    rfl
  | invalid found current faulty =>
    obtain ⟨stored, hrun⟩ := run_applyAccess_of_found h found
    rw [hrun, commitLoaded, if_neg (not_not_intro current), requireValid, faulty]
    rfl
  | notOwner found current valid nothing =>
    obtain ⟨stored, hrun⟩ := run_applyAccess_of_found h found
    rw [hrun, commitLoaded, if_neg (not_not_intro current), requireValid, valid, run_bind_of_ok rfl,
      run_query_bind, Database.perform]
    simp only [commitOwned, Database.isEmpty_ownedSections.mpr nothing, if_true]
    rfl

/-- A commit that passes is answered, and writes a row of history unless nothing is to be changed. -/
theorem CommitPasses.run (h : Reachable db) {row : ProjectRow}
    (hpasses : CommitPasses db name account update row) :
    ∃ before answer db', (project name).run db = (.ok (some before), db) ∧
      (applyAccess name account update now).run db = (.ok answer, db') ∧
      answer.sections = mergeSections (db.ownedSections name account).coversSection db.describes
        before.sections update.sections ∧
      (¬Collision before.sections answer.sections →
        db'.history = if answer.sections = before.sections then db.history
          else db.history ++ [⟨name, revisionOf answer.sections, update.message, account.scalar,
            now.column⟩]) := by
  obtain ⟨stored, hrevision, -, hholds⟩ := h.wellKept.found hpasses.found
  have hrun := @run_applyAccess db name account update now row stored hholds hpasses.found
    hpasses.current hpasses.valid hpasses.owned h.contended_eq
  refine ⟨_, _, _, run_project_of_holds hpasses.found hholds, hrun, ?_, fun htells => ?_⟩
  · rw [commitResult, mergedBy_eq]
  · have hmoves : revisionOf (mergedBy db name account stored update.sections) = row.revision ↔
        mergedBy db name account stored update.sections = stored := by
      rw [hrevision]
      exact revisionOf_eq_iff htells
    by_cases hsame : mergedBy db name account stored update.sections = stored
    · exact (congrArg Database.history (if_pos (hmoves.mpr hsame))).trans (if_pos hsame).symm
    · exact (congrArg Database.history (if_neg (mt hmoves.mp hsame))).trans (if_neg hsame).symm

/--
The exact refusals of a commit with no other writer.  It fails for the reason
of the first check that it does not pass, and then has changed nothing.  If it
passes all of them it is answered with the merged sections, and there is one
more row of history exactly if these differ from the stored ones or come in
another order, unless the two lists collide.
-/
theorem refusals_are_exact (h : Reachable db) (name : String) (account : AccountId)
    (update : AccessUpdate) (now : Instant) :
    let commit := (applyAccess name account update now).run db
    (∀ e, commit = (.error e, db) ↔ CommitRefused db name account update e) ∧
    ((∀ e, ¬CommitRefused db name account update e) →
      ∃ before answer db', (project name).run db = (.ok (some before), db) ∧
        commit = (.ok answer, db') ∧
        answer.sections = mergeSections (db.ownedSections name account).coversSection db.describes
          before.sections update.sections ∧
        (¬Collision before.sections answer.sections →
          db'.history = if answer.sections = before.sections then db.history
            else db.history ++ [⟨name, revisionOf answer.sections, update.message, account.scalar,
              now.column⟩])) := by
  intro commit
  rcases refused_or_passes db name account update with ⟨e, hrefused⟩ | ⟨row, hpasses⟩
  · have hrun : commit = (.error e, db) := hrefused.run h.wellKept
    refine ⟨fun e' => ⟨fun hfailed => ?_, fun hrefused' => hrefused'.run h.wellKept⟩,
      fun hnone => absurd hrefused (hnone e)⟩
    cases hrun.symm.trans hfailed
    exact hrefused
  · obtain ⟨before, answer, db', hbefore, hrun, hanswer⟩ := hpasses.run h
    refine ⟨fun e => ⟨fun hfailed => ?_, fun hrefused => hrefused.run h.wellKept⟩,
      fun _ => ⟨before, answer, db', hbefore, hrun, hanswer⟩⟩
    cases hrun.symm.trans hfailed

end Store

/--
To the second project account 2 may write nothing, and account 1 writes a row
of history.
-/
theorem split_commits_are_judged :
    (Store.applyAccess "q" ⟨2⟩ splitUpdate .start).run splitProject =
      (.error .notOwner, splitProject) ∧
    ∃ db', (Store.applyAccess "q" ⟨1⟩ splitUpdate .start).run splitProject =
        (.ok splitAnswer, db') ∧
      db'.history = splitProject.history ++
        [⟨"q", revisionOf splitMerged, none, .integer 1, Instant.start.column⟩] := by
  obtain ⟨hrefused, -⟩ :=
    Store.refusals_are_exact reachable_splitProject "q" ⟨2⟩ splitUpdate .start
  obtain ⟨hrefused', hpassed⟩ :=
    Store.refusals_are_exact reachable_splitProject "q" ⟨1⟩ splitUpdate .start
  have hvalid : validateSections splitUpdate.sections = .ok () := by decide +kernel
  have hnothing : ∀ g ∈ splitProject.grants, g.project = "q" →
      splitProject.isMember g.group ⟨2⟩ = false := by
    decide +kernel
  obtain ⟨db', hrun⟩ := run_splitUpdate
  refine ⟨(hrefused _).mpr (.notOwner project?_splitProject rfl hvalid hnothing), db', hrun, ?_⟩
  obtain ⟨before, answer, after, hbefore, hcommit, -, hhistory⟩ := hpassed fun e he => by
    cases hrun.symm.trans ((hrefused' e).mpr he)
  cases hrun.symm.trans hcommit
  have hcollision := not_collision_splitAnswer hbefore
  have hloaded := Store.run_project_of_holds project?_splitProject holds_splitProject
  cases hbefore.symm.trans hloaded
  exact hhistory hcollision

end AccessLedger
