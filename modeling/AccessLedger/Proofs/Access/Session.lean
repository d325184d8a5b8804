import AccessLedger.Proofs.Access.Editing
import AccessLedger.Proofs.Store.Outcome

/-!
# Editor and store together

A page is opened on what the store shows of a project, its user does anything
with it, and every commit that the page issues is carried out by the store and
answered at once (`Session.step`).  While nobody else uses the store, the page
shows what is stored: this is what a step keeps (`InStep`), and it rests on the
two facts that a commit based on the stored revision is carried out
(`Store.run_applyAccess`) and that its answer is what is stored then.  So every
commit that is issued goes through one `Round`.
-/

namespace AccessLedger

/-- What is asked of the store by a commit. -/
def CommitRequest.update (request : CommitRequest) : AccessUpdate :=
  ⟨request.revision, request.message, request.sections⟩

/-- A page and the store that answers it. -/
structure Session where
  editor : Editor
  db : Database

namespace Session

section

variable (project : String) (account : AccountId) (explain : Failure → CommitFailure)

/-- One step of the user at an instant; a commit is answered by the store before the next step. -/
def step (s : Session) (x : UserStep) (now : Instant) : Session :=
  match s.editor.perform (.user x) with
  | (.ok (.issued request), waiting) =>
    match (Store.applyAccess project account request.update now).run s.db with
    | (.ok stored, db) => ⟨(waiting.acceptResult stored).2, db⟩
    | (.error failure, db) => ⟨(waiting.acceptFailure (explain failure)).2, db⟩
  | (_, editor) => { s with editor }

/-- The session after some steps. -/
def run (s : Session) : List (UserStep × Instant) → Session
  | [] => s
  | (x, now) :: rest => (s.step project account explain x now).run rest

/-- The lists of sections that the page has been given, the first one before any step. -/
def shown (s : Session) : List (UserStep × Instant) → List (List AccessSection)
  | [] => [s.editor.access.sections]
  | (x, now) :: rest =>
    s.editor.access.sections :: (s.step project account explain x now).shown rest

end

end Session

/-- Of these lists of sections, those with one revision have one text. -/
def DigestTells (lists : List (List AccessSection)) : Prop :=
  ∀ a ∈ lists, ∀ b ∈ lists, revisionOf a = revisionOf b → sectionsText a = sectionsText b

theorem DigestTells.mono {lists lists' : List (List AccessSection)} (h : DigestTells lists)
    (hsub : ∀ a ∈ lists', a ∈ lists) : DigestTells lists' :=
  fun a ha b hb => h a (hsub a ha) b (hsub b hb)

theorem DigestTells.not_collision {lists : List (List AccessSection)} (h : DigestTells lists)
    {a b : List AccessSection} (ha : a ∈ lists) (hb : b ∈ lists) : ¬Store.Collision a b :=
  fun hcollision => hcollision.1 (sectionsText_injective (h a ha b hb hcollision.2))

/-- It is enough that two lists are told apart, if there are no others. -/
theorem DigestTells.of_ne {a b : List AccessSection} (hne : revisionOf a ≠ revisionOf b)
    {lists : List (List AccessSection)} (hlists : ∀ l ∈ lists, l = a ∨ l = b) :
    DigestTells lists := by
  intro c hc d hd he
  rcases hlists c hc with rfl | rfl <;> rcases hlists d hd with rfl | rfl
  · rfl
  · exact absurd he hne
  · exact absurd he.symm hne
  · rfl

/-- The page shows what is stored, and its user may change some of it. -/
structure InStep (project : String) (account : AccountId) (s : Session) : Prop where
  reachable : Reachable s.db
  shows : (Store.access project account).run s.db = (.ok (some s.editor.access), s.db)
  owns : s.editor.access.ownsAny = true
  idle : s.editor.phase ≠ .submitting

/--
A commit goes through.  The store carries the request out, and the page then
shows what is stored if this is what was asked for, in whatever order; else the
draft stays open, with the names at which it differs.  To ask for the same
sections again changes nothing, whatever is said about it and whenever.
-/
structure Round (project : String) (account : AccountId) (explain : Failure → CommitFailure)
    (s : Session) (request : CommitRequest) (now : Instant) (s' : Session) : Prop where
  project_eq : request.project = project
  sections_eq : request.sections = s.editor.draft
  applied : (Store.applyAccess project account request.update now).run s.db =
    (.ok s'.editor.access, s'.db)
  shows : (Store.access project account).run s'.db = (.ok (some s'.editor.access), s'.db)
  readOnly : s'.editor.phase = .readOnly ↔ s'.editor.access.sections.Perm request.sections
  editing : s'.editor.phase ≠ .readOnly → s'.editor.phase = .editing ∧
    s'.editor.draft = request.sections ∧
    s'.editor.warnings = (sectionDifference request.sections s'.editor.access.sections).names
  differs : ∀ n, n ∈ sectionDifference request.sections s'.editor.access.sections ↔
    request.sections.find? (·.name = n) ≠ s'.editor.access.sections.find? (·.name = n)
  again : ∀ message later,
    (Store.applyAccess project account
      ⟨s'.editor.access.revision, message, request.sections⟩ later).run s'.db =
    (.ok s'.editor.access, s'.db)
  resubmitted : s'.editor.phase = .editing → ∀ message before later,
    s'.run project account explain [(.setMessage message, before), (.commit, later)] = s'

/-! ## The page and its answers -/

namespace Editor

variable {e : Editor}

/-- The page after its draft has been submitted and answered. -/
def settled (e : Editor) (stored : AccessConfig) : Editor :=
  if (sectionDifference e.draft stored.sections).isEmpty then
    { e with message := "" }.display stored
  else e.reopened stored

theorem perform_commit (hphase : e.phase = .editing) (hvalid : validateSections e.draft = .ok ()) :
    e.perform (.user .commit) = (.ok (.issued e.request), { e with phase := .submitting }) := by
  simp only [perform, commit, guarded_of_eq .commit hphase, hvalid]
  rfl

theorem acceptResult_of_submitted (e : Editor) (stored : AccessConfig) :
    ({ e with phase := .submitting }.acceptResult stored).2 = e.settled stored := by
  have hphase : { e with phase := .submitting }.phase = EditAction.acceptResult.phase := rfl
  simp only [acceptResult, guarded_of_eq .acceptResult hphase, settled]
  split <;> rfl

@[simp]
theorem settled_access (stored : AccessConfig) : (e.settled stored).access = stored := by
  unfold settled
  split <;> rfl

@[simp]
theorem settled_phase (stored : AccessConfig) : (e.settled stored).phase =
    if (sectionDifference e.draft stored.sections).isEmpty then .readOnly else .editing := by
  unfold settled
  split <;> rfl

theorem settled_of_not_readOnly {stored : AccessConfig}
    (h : (e.settled stored).phase ≠ .readOnly) :
    (sectionDifference e.draft stored.sections).isEmpty = false ∧
      e.settled stored = e.reopened stored := by
  unfold settled at h ⊢
  split at h
  · exact absurd rfl h
  · next hdiffers => exact ⟨Bool.eq_false_iff.mpr hdiffers, if_neg hdiffers⟩

/-- A page that stays open is the same after the same answer, whatever was said meanwhile. -/
theorem settled_again {stored : AccessConfig} (h : (e.settled stored).phase ≠ .readOnly)
    (message : String) :
    ((e.settled stored).setMessage message).settled stored = e.settled stored := by
  obtain ⟨hdiffers, hopen⟩ := settled_of_not_readOnly h
  rw [hopen]
  simp [settled, hdiffers, setMessage, reopened]

/-- A step of the user that issues nothing leaves the configuration, and waits for no answer. -/
theorem access_of_user {x : UserStep} (hidle : e.phase ≠ .submitting)
    (hquiet : ∀ request, (e.perform (.user x)).1 ≠ .ok (.issued request)) :
    (e.perform (.user x)).2.access = e.access ∧
      (e.perform (.user x)).2.phase ≠ .submitting := by
  have hmoves := e.moves_perform (.user x)
  generalize (e.perform (.user x)).1 = outcome at hmoves hquiet
  generalize (e.perform (.user x)).2 = e' at hmoves ⊢
  cases hmoves with
  | refused | invalid | changed | worded => exact ⟨rfl, hidle⟩
  | begun | cancelled => exact ⟨rfl, nofun⟩
  | submitted => exact absurd rfl (hquiet e.request)

/-- Only a commit issues a request, which is the one for the valid draft. -/
theorem eq_commit_of_issued {x : UserStep} {request : CommitRequest}
    (h : (e.perform (.user x)).1 = .ok (.issued request)) :
    x = .commit ∧ request = e.request ∧ e.phase = .editing ∧
      validateSections e.draft = .ok () := by
  have hmoves := e.moves_perform (.user x)
  rw [h] at hmoves
  generalize (e.perform (.user x)).2 = e' at hmoves
  cases hmoves with
  | submitted editing valid => exact ⟨rfl, rfl, editing, valid⟩

end Editor

/-! ## Steps of a session -/

section

variable {project : String} {account : AccountId} {explain : Failure → CommitFailure}
  {s : Session} {now : Instant}

theorem Session.step_of_quiet {x : UserStep}
    (hquiet : ∀ request, (s.editor.perform (.user x)).1 ≠ .ok (.issued request)) :
    s.step project account explain x now =
      { s with editor := (s.editor.perform (.user x)).2 } := by
  unfold step
  split
  · next request waiting h => exact absurd (congrArg Prod.fst h) (hquiet request)
  · next h => rw [h]

/-- A valid draft is submitted, and answered if the store carries it out. -/
theorem Session.step_commit {stored : AccessConfig} {db' : Database}
    (hphase : s.editor.phase = .editing) (hvalid : validateSections s.editor.draft = .ok ())
    (hrun : (Store.applyAccess project account s.editor.request.update now).run s.db =
      (.ok stored, db')) :
    s.step project account explain .commit now = ⟨s.editor.settled stored, db'⟩ := by
  simp only [step, Editor.perform_commit hphase hvalid, hrun, Editor.acceptResult_of_submitted]

/-- What has been asked for is asked for once more. -/
theorem Session.run_resubmit {e : Editor} {stored : AccessConfig} {db : Database}
    (hopen : (e.settled stored).phase = .editing) (hvalid : validateSections e.draft = .ok ())
    (hagain : ∀ message later, (Store.applyAccess project account
      ⟨stored.revision, message, e.draft⟩ later).run db = (.ok stored, db))
    (message : String) (before later : Instant) :
    (⟨e.settled stored, db⟩ : Session).run project account explain
      [(.setMessage message, before), (.commit, later)] = ⟨e.settled stored, db⟩ := by
  have hnot : (e.settled stored).phase ≠ .readOnly := by
    rw [hopen]
    nofun
  have hdraft : (e.settled stored).draft = e.draft := by
    rw [(Editor.settled_of_not_readOnly hnot).2]
    rfl
  let worded : Session := ⟨(e.settled stored).setMessage message, db⟩
  change worded.step project account explain .commit later = _
  have hrun : (Store.applyAccess project account worded.editor.request.update later).run db =
      (.ok stored, db) := by
    have hupdate : worded.editor.request.update = ⟨(e.settled stored).access.revision,
        trimmedMessage message, (e.settled stored).draft⟩ := rfl
    rw [hupdate, Editor.settled_access, hdraft]
    exact hagain _ _
  rw [Session.step_commit hopen (hdraft ▸ hvalid) hrun, Editor.settled_again hnot]

theorem Session.run_concat (s : Session) (steps : List (UserStep × Instant)) (x : UserStep)
    (now : Instant) : s.run project account explain (steps ++ [(x, now)]) =
      (s.run project account explain steps).step project account explain x now := by
  induction steps generalizing s with
  | nil => rfl
  | cons step steps ih => exact ih _

theorem Session.shown_concat (s : Session) (steps : List (UserStep × Instant)) (x : UserStep)
    (now : Instant) : s.shown project account explain (steps ++ [(x, now)]) =
      s.shown project account explain steps ++
        [(s.run project account explain (steps ++ [(x, now)])).editor.access.sections] := by
  induction steps generalizing s with
  | nil => rfl
  | cons step steps ih => exact congrArg (_ :: ·) (ih _)

theorem Session.mem_shown (s : Session) (steps : List (UserStep × Instant)) :
    s.editor.access.sections ∈ s.shown project account explain steps := by
  cases steps <;> exact List.mem_cons_self

/-- The digest tells what is shown before and after a step if it tells all that is shown. -/
theorem DigestTells.of_shown {x : UserStep} {later : List (UserStep × Instant)}
    (h : DigestTells (s.shown project account explain ((x, now) :: later))) :
    DigestTells [s.editor.access.sections,
      (s.step project account explain x now).editor.access.sections] := by
  refine h.mono fun a ha => ?_
  rcases List.mem_cons.mp ha with rfl | ha
  · exact List.mem_cons_self
  · rw [List.mem_singleton.mp ha]
    exact List.mem_cons_of_mem _ (Session.mem_shown _ later)

namespace InStep

/-- What is shown is read from the rows of the project. -/
theorem exists_row (h : InStep project account s) :
    ∃ row stored, s.db.project? project = some row ∧ s.db.Holds project stored ∧
      s.editor.access =
        ⟨project, row.revision, row.parent, stored, s.db.ownedSections project account⟩ := by
  have hshows := h.shows
  cases hrow : s.db.project? project with
  | none =>
    rw [Store.access, run_bind_of_ok (Store.run_project_of_none hrow)] at hshows
    cases hshows
  | some row =>
    obtain ⟨stored, -, -, hholds⟩ := h.reachable.wellKept.found hrow
    have hread := (Store.run_access_of_holds hrow hholds).symm.trans hshows
    simp only [Prod.mk.injEq, Except.ok.injEq, Option.some.injEq, and_true] at hread
    exact ⟨row, stored, rfl, hholds, hread.symm⟩

theorem owned (h : InStep project account s) :
    (s.db.ownedSections project account).isEmpty = false := by
  obtain ⟨row, stored, -, -, haccess⟩ := h.exists_row
  have howns := h.owns
  rw [haccess] at howns
  simpa [AccessConfig.ownsAny] using howns

/-- A valid draft is stored. -/
theorem exists_committed (h : InStep project account s)
    (hvalid : validateSections s.editor.draft = .ok ()) (now : Instant) :
    ∃ answer db' row,
      (Store.applyAccess project account s.editor.request.update now).run s.db =
        (.ok answer, db') ∧
      Store.Committed s.db project account s.editor.request.update now row
        s.editor.access.sections answer db' := by
  obtain ⟨row, stored, hrow, hholds, haccess⟩ := h.exists_row
  have hcurrent : s.editor.request.update.revision = row.revision :=
    congrArg AccessConfig.revision haccess
  obtain ⟨answer, db', hrun⟩ : ∃ answer db', (Store.applyAccess project account
      s.editor.request.update now).run s.db = (.ok answer, db') :=
    Store.exists_run_applyAccess hholds hrow hcurrent hvalid h.owned h.reachable.contended_eq
  obtain ⟨row', stored', hcommitted⟩ := Store.Committed.of_run h.reachable.wellKept hrun
  obtain rfl := hcommitted.holds.unique hholds
  rw [haccess]
  exact ⟨answer, db', row', hrun, hcommitted⟩

/-- What is issued is for the project. -/
theorem project_request (h : InStep project account s) : s.editor.request.project = project := by
  obtain ⟨row, stored, -, -, haccess⟩ := h.exists_row
  exact congrArg AccessConfig.project haccess

theorem reachable_step (h : InStep project account s) {request : CommitRequest}
    {stored : AccessConfig} {db' : Database}
    (hrun : (Store.applyAccess project account request.update now).run s.db = (.ok stored, db')) :
    Reachable db' :=
  h.reachable.of_run (.applyAccess project account request.update) now hrun

/-- An issued request goes through, if the digest tells what is stored before and after. -/
theorem round (h : InStep project account s) {request : CommitRequest}
    (hissued : (s.editor.perform (.user .commit)).1 = .ok (.issued request))
    (hdigest : DigestTells [s.editor.access.sections,
      (s.step project account explain .commit now).editor.access.sections]) :
    Round project account explain s request now (s.step project account explain .commit now) := by
  obtain ⟨-, rfl, hphase, hvalid⟩ := Editor.eq_commit_of_issued hissued
  obtain ⟨answer, db', row, hrun, hcommitted⟩ := h.exists_committed hvalid now
  rw [Session.step_commit hphase hvalid hrun] at hdigest ⊢
  have hanswer : (s.editor.settled answer).access = answer := Editor.settled_access answer
  have htells : ¬Store.Collision s.editor.access.sections answer.sections :=
    hdigest.not_collision List.mem_cons_self (by simp)
  have hfree : db'.contended = false := (h.reachable_step hrun).contended_eq
  have hagain := hcommitted.run_again htells h.owned hfree
  have hsame : (sectionDifference s.editor.draft answer.sections).isEmpty = true ↔
      answer.sections.Perm s.editor.draft := hcommitted.isEmpty_sectionDifference
  have hphase' := Editor.settled_phase (e := s.editor) answer
  constructor
  case project_eq => exact h.project_request
  case sections_eq => rfl
  case applied => rw [hanswer, hrun]
  case shows => rw [hanswer, hcommitted.run_access htells]
  case readOnly =>
    rw [hphase', hanswer]
    change _ ↔ answer.sections.Perm s.editor.draft
    rw [← hsame]
    simp
  case editing =>
    intro hopen
    rw [(Editor.settled_of_not_readOnly hopen).2]
    exact ⟨rfl, rfl, rfl⟩
  case differs =>
    intro n
    rw [hanswer]
    exact mem_sectionDifference_iff_find? (namedOnce_of_valid hvalid) hcommitted.namedOnce_answer
  case again =>
    rw [hanswer]
    exact hagain
  case resubmitted =>
    intro hopen message before later
    exact Session.run_resubmit hopen hvalid hagain message before later

/-- A step keeps the page and the store in step, if the digest tells what they show. -/
theorem step (h : InStep project account s) (x : UserStep)
    (hdigest : DigestTells [s.editor.access.sections,
      (s.step project account explain x now).editor.access.sections]) :
    InStep project account (s.step project account explain x now) := by
  by_cases hissued : ∃ request, (s.editor.perform (.user x)).1 = .ok (.issued request)
  · obtain ⟨request, hissued⟩ := hissued
    obtain ⟨rfl, rfl, hphase, hvalid⟩ := Editor.eq_commit_of_issued hissued
    have hround := h.round hissued hdigest
    refine ⟨h.reachable_step hround.applied, hround.shows, ?_, fun hwaits => ?_⟩
    · obtain ⟨answer, db', row, hrun, hcommitted⟩ := h.exists_committed hvalid now
      have hanswer := (Prod.ext_iff.mp (hrun.symm.trans hround.applied)).1
      cases hanswer
      rw [hcommitted.answer_eq, Store.commitResult, AccessConfig.ownsAny, h.owned, Bool.not_false]
    · have hediting := (hround.editing fun hreadOnly => by cases hwaits.symm.trans hreadOnly).1
      cases hwaits.symm.trans hediting
  · rw [not_exists] at hissued
    obtain ⟨haccess, hidle⟩ := Editor.access_of_user h.idle hissued
    rw [Session.step_of_quiet hissued]
    refine ⟨h.reachable, ?_, ?_, hidle⟩
    · rw [haccess]
      exact h.shows
    · rw [haccess]
      exact h.owns

/-- What a step keeps is kept by a whole run, up to each of its states. -/
theorem run (h : InStep project account s) (before rest : List (UserStep × Instant))
    (hdigest : DigestTells (s.shown project account explain (before ++ rest))) :
    InStep project account (s.run project account explain before) ∧
      DigestTells ((s.run project account explain before).shown project account explain rest) := by
  induction before generalizing s with
  | nil => exact ⟨h, hdigest⟩
  | cons step before ih =>
    obtain ⟨x, now⟩ := step
    have htail : DigestTells ((s.step project account explain x now).shown project account explain
        (before ++ rest)) := hdigest.mono fun a ha => List.mem_cons_of_mem _ ha
    exact ih (h.step x hdigest.of_shown) htail

end InStep

/--
A page is opened on a project of a reachable database by an account that owns
one of its sections, any steps follow, and the store is used by nobody else.
If the digest tells the lists of sections apart that are shown, the page shows
what is stored after each of the steps, and each commit that it issues goes
through (`Round`).
-/
theorem editor_and_store_stay_in_step {db : Database} (h : Reachable db) (project : String)
    (account : AccountId) (hproject : (db.project? project).isSome = true)
    (howns : (db.ownedSections project account).isEmpty = false) :
    ∃ config, (Store.access project account).run db = (.ok (some config), db) ∧
      ∀ explain steps,
        let start : Session := ⟨.ofConfig config, db⟩
        DigestTells (start.shown project account explain steps) →
        ∀ before rest, steps = before ++ rest →
          let s := start.run project account explain before
          (Store.access project account).run s.db = (.ok (some s.editor.access), s.db) ∧
          ∀ request now later, rest = (.commit, now) :: later →
            s.editor.commit.1 = .ok request →
            Round project account explain s request now
              (s.step project account explain .commit now) := by
  obtain ⟨row, hrow⟩ := Option.isSome_iff_exists.mp hproject
  obtain ⟨stored, -, -, hholds⟩ := h.wellKept.found hrow
  refine ⟨_, Store.run_access_of_holds hrow hholds, ?_⟩
  rintro explain _ start hdigest before rest rfl s
  have hstart : InStep project account start := by
    refine ⟨h, Store.run_access_of_holds hrow hholds, ?_, nofun⟩
    simp [start, Editor.ofConfig, AccessConfig.ownsAny, howns]
  obtain ⟨hs, htells⟩ := hstart.run before rest hdigest
  refine ⟨hs.shows, ?_⟩
  rintro request now later rfl hcommit
  have hissued : (s.editor.perform (.user .commit)).1 = .ok (.issued request) := by
    simp only [Editor.perform, hcommit]
    rfl
  exact hs.round hissued htells.of_shown

end

/-- A section with a rule for a group that nobody knows, and an empty one. -/
def sharedDraft : List AccessSection :=
  [⟨"refs/a", [⟨"read", false, [⟨⟨⟨"x"⟩, "x"⟩, .allow, false, 0, 0⟩]⟩]⟩, ⟨"refs/b", []⟩]

/-- The draft is written. -/
def draftSteps : List (UserStep × Instant) :=
  [(.beginEdit, .start), (.change fun _ => sharedDraft, .start)]

/-- The draft is written and submitted. -/
def sharedSteps : List (UserStep × Instant) := draftSteps ++ [(.commit, .start)]

/-- The page of a project without sections. -/
def sharedPage : Session :=
  ⟨.ofConfig ⟨"p", revisionOf [], none, [], .ofList [allRefs]⟩, sharedProject⟩

/-- All failures look alike to the page. -/
def lost (_ : Failure) : CommitFailure := .transport "lost"

/-- The rule is not stored, so the draft stays open. -/
theorem editor_sharedSteps :
    let e := (sharedPage.run "p" ⟨1⟩ lost sharedSteps).editor
    (e.phase, e.warnings) = (.editing, ["refs/a"]) ∧
      e.access.sections = [⟨"refs/a", [⟨"read", false, []⟩]⟩, ⟨"refs/b", []⟩] := by
  decide +kernel

theorem digestTells_sharedSteps : DigestTells (sharedPage.shown "p" ⟨1⟩ lost sharedSteps) := by
  have hne : revisionOf [] ≠ revisionOf [⟨"refs/a", [⟨"read", false, []⟩]⟩, ⟨"refs/b", []⟩] := by
    decide +kernel
  have hshown : sharedPage.shown "p" ⟨1⟩ lost sharedSteps =
      sharedPage.shown "p" ⟨1⟩ lost draftSteps ++
        [(sharedPage.run "p" ⟨1⟩ lost sharedSteps).editor.access.sections] :=
    Session.shown_concat _ _ _ _
  have hbefore : sharedPage.shown "p" ⟨1⟩ lost draftSteps = [[], [], []] := rfl
  rw [hshown, hbefore, editor_sharedSteps.2]
  exact .of_ne hne (by simp)

/-- The rule is not stored, so the draft stays open, and the page shows what is stored. -/
theorem shared_page_stays_in_step :
    let s := sharedPage.run "p" ⟨1⟩ lost sharedSteps
    (s.editor.phase, s.editor.warnings) = (.editing, ["refs/a"]) ∧
      (Store.access "p" ⟨1⟩).run s.db = (.ok (some s.editor.access), s.db) ∧
      ∃ before request, Round "p" ⟨1⟩ lost before request .start s := by
  obtain ⟨config, hconfig, hall⟩ := editor_and_store_stay_in_step
    reachable_sharedProject "p" ⟨1⟩ (by decide +kernel) (by decide +kernel)
  have hfound : ((Store.access "p" ⟨1⟩).run sharedProject).1 =
      .ok (some sharedPage.editor.access) := by
    decide +kernel
  rw [hconfig] at hfound
  obtain rfl := Option.some.inj (Except.ok.inj hfound)
  obtain ⟨hshows, -⟩ := hall lost sharedSteps digestTells_sharedSteps sharedSteps [] rfl
  obtain ⟨-, hround⟩ := hall lost sharedSteps digestTells_sharedSteps draftSteps
    [(.commit, .start)] rfl
  have hissued : ((sharedPage.run "p" ⟨1⟩ lost draftSteps).editor.commit).1 =
      .ok ⟨"p", revisionOf [], none, sharedDraft⟩ := rfl
  have hcommit := hround _ _ _ rfl hissued
  rw [← Session.run_concat] at hcommit
  exact ⟨editor_sharedSteps.1, hshows, _, _, hcommit⟩

end AccessLedger
