import AccessLedger.Access.Editor

/-!
# Runs of the editor

The operations of the page are the steps of a machine, and any of them may
come at any time: a step that does not fit is refused, and the machine goes on.
`Editor.Moves` lists all that a step can do.  From it comes what every state
that is reached has in common (`Editor.Sound`), which speaks of the request
that was sent last and of the one that was answered last, so these are kept
beside the state (`EditHistory`).  What the page draws says which steps will
not be refused (`Editor.isOk_perform`).
-/

namespace AccessLedger

/-- What the user of the page can do. -/
inductive UserStep where
  | beginEdit
  | change (f : List AccessSection → List AccessSection)
  | cancel
  | setMessage (message : String)
  | commit

/-- What can happen to the page: its user does something, or a commit is answered. -/
inductive PageStep where
  | user (step : UserStep)
  | acceptResult (stored : AccessConfig)
  | acceptFailure (failure : CommitFailure)

/-- What a step that is not refused tells the world outside. -/
inductive EditorEvent where
  | quiet
  | issued (request : CommitRequest)
  | answered (stored : AccessConfig)

/-- What has been sent and received. -/
structure EditHistory where
  /-- The request that was issued last. -/
  issued : Option CommitRequest := none
  /-- The request that was answered last, with its answer. -/
  answered : Option (CommitRequest × AccessConfig) := none

/-- An answer is the one to the request that was issued last. -/
def EditHistory.note (h : EditHistory) : Except EditFault EditorEvent → EditHistory
  | .ok (.issued request) => { h with issued := some request }
  | .ok (.answered stored) => { h with answered := h.issued.map (·, stored) }
  | _ => h

namespace Editor

/-- What a step of the page comes to. -/
def perform (e : Editor) : PageStep → Except EditFault EditorEvent × Editor
  | .user .beginEdit => (e.beginEdit.1.map fun _ => .quiet, e.beginEdit.2)
  | .user (.change f) => ((e.change f).1.map fun _ => .quiet, (e.change f).2)
  | .user .cancel => (e.cancel.1.map fun _ => .quiet, e.cancel.2)
  | .user (.setMessage message) => (.ok .quiet, e.setMessage message)
  | .user .commit => (e.commit.1.map .issued, e.commit.2)
  | .acceptResult stored =>
    ((e.acceptResult stored).1.map fun _ => .answered stored, (e.acceptResult stored).2)
  | .acceptFailure failure =>
    ((e.acceptFailure failure).1.map fun _ => .quiet, (e.acceptFailure failure).2)

/-- The page and its history after some steps. -/
def follow (e : Editor) (h : EditHistory) : List PageStep → Editor × EditHistory
  | [] => (e, h)
  | step :: rest => (e.perform step).2.follow (h.note (e.perform step).1) rest

/-- What a commit of the draft asks for. -/
def request (e : Editor) : CommitRequest :=
  ⟨e.access.project, e.access.revision, trimmedMessage e.message, e.draft⟩

/-! ## What a step can do -/

/-- The page where an answer leaves it that differs from the draft. -/
def reopened (e : Editor) (stored : AccessConfig) : Editor :=
  { e with
    phase := .editing
    access := stored
    message := ""
    warnings := (sectionDifference e.draft stored.sections).names
    error := none }

/-- All that a step can do, with what it needs for that. -/
inductive Moves (e : Editor) : PageStep → Except EditFault EditorEvent → Editor → Prop
  | refused (step : PageStep) (fault : EditFault) : Moves e step (.error fault) e
  | invalid (text : String) (editing : e.phase = .editing) :
      Moves e (.user .commit) (.error (.invalid text)) { e with error := some text }
  | begun (readOnly : e.phase = .readOnly) :
      Moves e (.user .beginEdit) (.ok .quiet)
        { e with phase := .editing, draft := e.access.sections, warnings := [], error := none }
  | changed (f : List AccessSection → List AccessSection) (editing : e.phase = .editing) :
      Moves e (.user (.change f)) (.ok .quiet) { e with draft := f e.draft }
  | cancelled (editing : e.phase = .editing) :
      Moves e (.user .cancel) (.ok .quiet) (e.display e.access)
  | worded (message : String) :
      Moves e (.user (.setMessage message)) (.ok .quiet) { e with message }
  | submitted (editing : e.phase = .editing) (valid : validateSections e.draft = .ok ()) :
      Moves e (.user .commit) (.ok (.issued e.request)) { e with phase := .submitting }
  | shown (stored : AccessConfig) (submitting : e.phase = .submitting)
      (same : (sectionDifference e.draft stored.sections).isEmpty = true) :
      Moves e (.acceptResult stored) (.ok (.answered stored))
        ({ e with message := "" }.display stored)
  | reopened (stored : AccessConfig) (submitting : e.phase = .submitting)
      (differs : (sectionDifference e.draft stored.sections).isEmpty = false) :
      Moves e (.acceptResult stored) (.ok (.answered stored)) (e.reopened stored)
  | failed (failure : CommitFailure) (text message : String) (submitting : e.phase = .submitting) :
      Moves e (.acceptFailure failure) (.ok .quiet)
        { e with phase := .editing, warnings := [], error := some text, message }

theorem guarded_of_eq {α : Type} {e : Editor} (action : EditAction)
    (h : e.phase = action.phase) (perform : Except EditFault α × Editor) :
    e.guarded action perform = perform := if_pos h

theorem guarded_of_ne {α : Type} {e : Editor} (action : EditAction)
    (h : e.phase ≠ action.phase) (perform : Except EditFault α × Editor) :
    e.guarded action perform = (.error (.wrongPhase action e.phase), e) := if_neg h

theorem moves_commit (e : Editor) :
    e.Moves (.user .commit) (e.perform (.user .commit)).1 (e.perform (.user .commit)).2 := by
  by_cases hphase : e.phase = .editing
  · simp only [perform, commit, guarded_of_eq .commit hphase]
    cases hvalid : validateSections e.draft with
    | error fault => exact .invalid _ hphase
    | ok u => exact .submitted hphase hvalid
  · simp only [perform, commit, guarded_of_ne .commit hphase]
    exact .refused _ _

theorem moves_acceptResult (e : Editor) (stored : AccessConfig) :
    e.Moves (.acceptResult stored) (e.perform (.acceptResult stored)).1
      (e.perform (.acceptResult stored)).2 := by
  by_cases hphase : e.phase = .submitting
  · simp only [perform, acceptResult, guarded_of_eq .acceptResult hphase]
    cases hsame : (sectionDifference e.draft stored.sections).isEmpty with
    | true => exact .shown stored hphase hsame
    | false => exact .reopened stored hphase hsame
  · simp only [perform, acceptResult, guarded_of_ne .acceptResult hphase]
    exact .refused _ _

/-- Every step does one of these things. -/
theorem moves_perform (e : Editor) (step : PageStep) :
    e.Moves step (e.perform step).1 (e.perform step).2 := by
  cases step with
  | user step =>
    cases step with
    | beginEdit =>
      by_cases hphase : e.phase = .readOnly
      · simp only [perform, beginEdit, guarded_of_eq .begin hphase]
        split
        · exact .begun hphase
        · exact .refused _ _
      · simp only [perform, beginEdit, guarded_of_ne .begin hphase]
        exact .refused _ _
    | change f =>
      by_cases hphase : e.phase = .editing
      · simp only [perform, change, guarded_of_eq .change hphase]
        exact .changed f hphase
      · simp only [perform, change, guarded_of_ne .change hphase]
        exact .refused _ _
    | cancel =>
      by_cases hphase : e.phase = .editing
      · simp only [perform, cancel, guarded_of_eq .cancel hphase]
        exact .cancelled hphase
      · simp only [perform, cancel, guarded_of_ne .cancel hphase]
        exact .refused _ _
    | setMessage message => exact .worded message
    | commit => exact e.moves_commit
  | acceptResult stored => exact e.moves_acceptResult stored
  | acceptFailure failure =>
    by_cases hphase : e.phase = .submitting
    · simp only [perform, acceptFailure, guarded_of_eq .acceptFailure hphase]
      cases failure with
      | validation text => exact .failed _ text e.message hphase
      | transport text => exact .failed _ text "" hphase
    · simp only [perform, acceptFailure, guarded_of_ne .acceptFailure hphase]
      exact .refused _ _

/-! ## What every run keeps -/

/-- What holds of a page that has shown `initial` first and has this history. -/
structure Sound (initial : AccessConfig) (h : EditHistory) (e : Editor) : Prop where
  /-- What is shown is what was loaded, and there is nothing to be said about it. -/
  readOnly : e.phase = .readOnly → e.draft = e.access.sections ∧ e.warnings = [] ∧ e.error = none
  /-- What is waited for is the answer to the last request, which was for the valid draft. -/
  submitting : e.phase = .submitting → validateSections e.draft = .ok () ∧
    ∃ request, h.issued = some request ∧ request.sections = e.draft ∧
      request.project = e.access.project ∧ request.revision = e.access.revision
  access : e.access = (h.answered.map Prod.snd).getD initial
  /-- Warnings tell where the last answer differs from the request that it answers. -/
  warnings : e.warnings = [] ∨ ∃ request stored, h.answered = some (request, stored) ∧
    e.warnings = (sectionDifference request.sections e.access.sections).names

variable {initial : AccessConfig} {h : EditHistory} {e e' : Editor}

theorem sound_ofConfig (initial : AccessConfig) : Sound initial {} (ofConfig initial) where
  readOnly _ := ⟨rfl, rfl, rfl⟩
  submitting hphase := nomatch hphase
  access := rfl
  warnings := .inl rfl

/-- An answer is accepted when it answers the request for the draft. -/
theorem Sound.answered (hs : Sound initial h e) (hphase : e.phase = .submitting)
    (stored : AccessConfig) : ∃ request, request.sections = e.draft ∧
      (h.note (.ok (.answered stored))).answered = some (request, stored) := by
  obtain ⟨-, request, hissued, hsections, -, -⟩ := hs.submitting hphase
  refine ⟨request, hsections, ?_⟩
  simp only [EditHistory.note, hissued, Option.map_some]

theorem Sound.moves (hs : Sound initial h e) {step : PageStep}
    {outcome : Except EditFault EditorEvent} (hmoves : e.Moves step outcome e') :
    Sound initial (h.note outcome) e' := by
  cases hmoves with
  | refused step fault => exact hs
  | invalid text editing =>
    refine ⟨fun hphase => ?_, fun hphase => ?_, hs.access, hs.warnings⟩
    · cases editing.symm.trans hphase
    · cases editing.symm.trans hphase
  | begun readOnly => exact ⟨nofun, nofun, hs.access, .inl rfl⟩
  | changed f editing =>
    refine ⟨fun hphase => ?_, fun hphase => ?_, hs.access, hs.warnings⟩
    · cases editing.symm.trans hphase
    · cases editing.symm.trans hphase
  | cancelled editing => exact ⟨fun _ => ⟨rfl, rfl, rfl⟩, nofun, hs.access, .inl rfl⟩
  | worded message => exact ⟨hs.readOnly, hs.submitting, hs.access, hs.warnings⟩
  | submitted editing valid =>
    exact ⟨nofun, fun _ => ⟨valid, e.request, rfl, rfl, rfl, rfl⟩, hs.access, hs.warnings⟩
  | shown stored submitting same =>
    obtain ⟨request, -, hanswered⟩ := hs.answered submitting stored
    refine ⟨fun _ => ⟨rfl, rfl, rfl⟩, nofun, ?_, .inl rfl⟩
    rw [hanswered]
    rfl
  | reopened stored submitting differs =>
    obtain ⟨request, hsections, hanswered⟩ := hs.answered submitting stored
    refine ⟨nofun, nofun, ?_, .inr ⟨request, stored, hanswered, ?_⟩⟩
    · rw [hanswered]
      rfl
    · rw [hsections]
      rfl
  | failed failure text message submitting => exact ⟨nofun, nofun, hs.access, .inl rfl⟩

theorem Sound.follow (hs : Sound initial h e) (steps : List PageStep) :
    Sound initial (e.follow h steps).2 (e.follow h steps).1 := by
  induction steps generalizing e h with
  | nil => exact hs
  | cons step rest ih => exact ih (hs.moves (e.moves_perform step))

theorem Sound.view_sections (hs : Sound initial h e) : e.view.sections = e.draft := by
  simp only [view]
  split
  · next hphase => exact (hs.readOnly hphase).1.symm
  · rfl

end Editor

/-- The steps that a page lets pass, as far as it can be seen. -/
def EditView.allows (v : EditView) : PageStep → Bool
  | .user .beginEdit => v.editEnabled
  | .user (.change _) | .user .cancel => v.commitToolsVisible && v.controlsEnabled
  | .user (.setMessage _) => true
  | .user .commit =>
    v.commitToolsVisible && v.controlsEnabled && (validateSections v.sections).isOk
  | .acceptResult _ | .acceptFailure _ => !v.controlsEnabled

/-- A step is refused or not as can be seen before. -/
theorem Editor.isOk_perform (e : Editor) (step : PageStep) :
    (e.perform step).1.isOk = e.view.allows step := by
  obtain ⟨phase, access, draft, message, warnings, error⟩ := e
  cases step with
  | user step =>
    cases step with
    | beginEdit =>
      cases phase <;> cases howns : access.ownsAny <;>
        simp [perform, beginEdit, guarded, EditAction.phase, view, EditView.allows, howns,
          Except.map, Except.isOk, Except.toBool]
    | commit =>
      cases phase <;> cases hvalid : validateSections draft <;>
        simp [perform, commit, guarded, EditAction.phase, view, EditView.allows, hvalid,
          Except.map, Except.isOk, Except.toBool]
    | _ => cases phase <;> rfl
  | _ => cases phase <;> rfl

/--
The page has shown a configuration, and any steps have followed, refused ones
too.  Then it is sound: it shows what was loaded, waits for the answer to its
last request, or lets the draft be edited; its configuration is the last one
that was answered, and its warnings are about that.  What it draws are the
sections of the draft, and whether a step will be refused.
-/
theorem editor_stays_sound (initial : AccessConfig) (steps : List PageStep) :
    let (e, history) := (Editor.ofConfig initial).follow {} steps
    e.Sound initial history ∧ e.view.sections = e.draft ∧
      ∀ step, (e.perform step).1.isOk = e.view.allows step := by
  have hsound := (Editor.sound_ofConfig initial).follow steps
  exact ⟨hsound, hsound.view_sections, Editor.isOk_perform _⟩

end AccessLedger
