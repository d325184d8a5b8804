import AccessLedger.Proofs.Store.ReadBack
import AccessLedger.Proofs.Store.Refusal

/-!
# Sending back what was read

An account that sends back the sections that it was shown has asked for no
change.  Still a project is made without a look at the groups of its rules,
and a merge does look at them.  So the commit drops the rules for groups
without a description, in the sections that the account may change, and writes
a row of history if there are any (`resubmission_drops_unknown_rules`).
Otherwise nothing at all is changed.
-/

namespace AccessLedger

namespace Store

variable {db : Database} {name : String} {account : AccountId}

/-- What is shown to an account that owns a section is sent back with this result. -/
theorem run_resubmission (h : Reachable db) {row : ProjectRow} {stored : List AccessSection}
    (found : db.project? name = some row) (holds : db.Holds name stored)
    (valid : validateSections stored = .ok ())
    (owned : (db.ownedSections name account).isEmpty = false) (message : Option String)
    (now : Instant) :
    let loaded : Project := ⟨row.parent, row.revision, stored⟩
    let merged := mergeSections (db.ownedSections name account).coversSection db.describes stored
      stored
    (applyAccess name account ⟨row.revision, message, stored⟩ now).run db =
      (.ok (commitResult name loaded (db.ownedSections name account) merged),
       if revisionOf merged = row.revision then db
       else db.swap (commitSwap name account ⟨row.revision, message, stored⟩ now loaded merged)) := by
  intro loaded merged
  rw [show merged = mergedBy db name account stored stored from (mergedBy_eq stored stored).symm]
  exact run_applyAccess holds found rfl valid owned h.contended_eq

/--
Of what is sent back as it was shown, just the rules are lost that are for
groups without a description and in sections that the account may change.
The commit always goes through, and it changes nothing exactly if there are no
such rules; otherwise it adds one row of history.  What is stored after it is
the answer.  All this but the answer itself is said of stored and answered
sections that do not collide.
-/
theorem resubmission_drops_unknown_rules (h : Reachable db) (hproject : (db.project? name).isSome)
    (howned : (db.ownedSections name account).isEmpty = false) :
    let canChange := (db.ownedSections name account).coversSection
    let losesRule := AccessSection.LosesRule canChange db.describes
    ∃ config, (access name account).run db = (.ok (some config), db) ∧
      ∀ message now, ∃ answer db',
        (applyAccess name account ⟨config.revision, message, config.sections⟩ now).run db =
          (.ok answer, db') ∧
        (answer = config ↔ ∀ s ∈ config.sections, ¬losesRule s) ∧
        List.Forall₂ (AccessSection.Resubmits canChange db.describes) config.sections
          answer.sections ∧
        (∀ n, n ∈ sectionDifference config.sections answer.sections ↔
          ∃ s ∈ config.sections, s.name = n ∧ losesRule s) ∧
        (¬Collision config.sections answer.sections →
          (access name account).run db' = (.ok (some answer), db') ∧
          (db' = db ↔ ∀ s ∈ config.sections, ¬losesRule s) ∧
          ((∃ s ∈ config.sections, losesRule s) →
            db'.history = db.history ++
              [⟨name, answer.revision, message, account.scalar, now.column⟩])) := by
  intro canChange losesRule
  obtain ⟨row, hrow⟩ := Option.isSome_iff_exists.mp hproject
  obtain ⟨stored, hrevision, hvalid, hholds⟩ := h.wellKept.found hrow
  have honce := namedOnce_of_valid hvalid
  refine ⟨_, run_access_of_holds hrow hholds, fun message now => ?_⟩
  have hrun := run_resubmission h hrow hholds hvalid howned message now
  have hsame : mergeSections canChange db.describes stored stored = stored ↔
      ∀ s ∈ stored, ¬losesRule s := mergeSections_self_eq_iff honce
  refine ⟨_, _, hrun, ?_, forall₂_mergeSections_self honce, fun n => ?_, fun htells => ?_⟩
  · rw [← hsame]
    constructor
    · exact congrArg AccessConfig.sections
    · intro heq
      rw [commitResult, heq, ← hrevision]
  · exact (mem_sectionDifference_mergeSections hvalid hvalid).trans (unapplied_self_iff honce)
  · obtain ⟨row', stored', hcommitted⟩ := Committed.of_run h.wellKept hrun
    obtain rfl := hholds.unique hcommitted.holds
    have hmoves : revisionOf (mergeSections canChange db.describes stored stored) = row.revision ↔
        ∀ s ∈ stored, ¬losesRule s := by
      rw [← hsame, hrevision]
      exact revisionOf_eq_iff htells
    refine ⟨hcommitted.run_access htells, ?_, fun hloses => ?_⟩
    · rw [← hmoves]
      constructor
      · intro hkept
        by_contra hmoved
        -- a swap adds a row of history
        rw [if_neg hmoved] at hkept
        simpa [Database.swap] using congrArg (·.history.length) hkept
      · intro hkept
        exact if_pos hkept
    · obtain ⟨s, hs, hloses⟩ := hloses
      rw [if_neg fun hkept => hmoves.mp hkept s hs hloses]
      rfl

end Store

/-- A section with a rule for a group that nobody knows. -/
def straySections : List AccessSection :=
  [⟨"refs/a", [⟨"read", false, [⟨⟨⟨"x"⟩, "x"⟩, .allow, false, 0, 0⟩]⟩]⟩]

/-- A project that was made with this section, which account 1 may change. -/
def strayProject : Database :=
  (Operation.grantSection "s" "refs/a" ⟨"g"⟩).after .start <|
  (Operation.createProject "s" none straySections).after .start sharedProject

/-- The rule is dropped, and this is a row of history. -/
theorem stray_rule_is_dropped : ∃ config answer db',
    (Store.access "s" ⟨1⟩).run strayProject = (.ok (some config), strayProject) ∧
    (Store.applyAccess "s" ⟨1⟩ ⟨config.revision, none, config.sections⟩ .start).run strayProject =
      (.ok answer, db') ∧
    "refs/a" ∈ sectionDifference config.sections answer.sections ∧
    (Store.access "s" ⟨1⟩).run db' = (.ok (some answer), db') ∧
    db'.history = strayProject.history ++
      [⟨"s", answer.revision, none, .integer 1, Instant.start.column⟩] := by
  have hreachable : Reachable strayProject := (reachable_sharedProject.step _ _).step _ _
  have hproject : (strayProject.project? "s").isSome = true := by decide +kernel
  have howned : (strayProject.ownedSections "s" ⟨1⟩).isEmpty = false := by decide +kernel
  have hholds : strayProject.Holds "s" straySections := by decide +kernel
  have hvalid : validateSections straySections = .ok () := by decide +kernel
  have hloses : ∃ s ∈ straySections, s.name = "refs/a" ∧
      s.LosesRule (strayProject.ownedSections "s" ⟨1⟩).coversSection strayProject.describes := by
    refine ⟨_, .head _, rfl, ?_, _, .head _, ?_⟩ <;> decide +kernel
  have htells : revisionOf straySections ≠ revisionOf (mergeSections
      (strayProject.ownedSections "s" ⟨1⟩).coversSection strayProject.describes straySections
      straySections) := by
    decide +kernel
  obtain ⟨config, hshown, hresubmit⟩ :=
    Store.resubmission_drops_unknown_rules hreachable hproject howned
  obtain ⟨answer, db', hrun, -, -, hdiff, hstored⟩ := hresubmit none .start
  obtain ⟨row, hrow⟩ := Option.isSome_iff_exists.mp hproject
  cases hshown.symm.trans (Store.run_access_of_holds hrow hholds)
  cases hrun.symm.trans
    (Store.run_resubmission hreachable hrow hholds hvalid howned none .start)
  obtain ⟨hread, -, hhistory⟩ := hstored fun hcollision => htells hcollision.2
  refine ⟨_, _, _, hshown, hrun, (hdiff _).mpr hloses, hread, hhistory ?_⟩
  obtain ⟨s, hs, -, hlost⟩ := hloses
  exact ⟨s, hs, hlost⟩

end AccessLedger
