import AccessLedger.Proofs.Access.Editing

/-!
# What the user has typed

The draft is what the user of the page has typed.  Whatever is refused leaves
the page as it was, but for a commit that is refused for its draft: what is
wrong with the draft is shown, and nothing else changes
(`Editor.refuses_perform`).  A draft is replaced by its user, by giving it up,
or by an answer that has the same sections in it (`Editor.Replaces`).  To begin
to edit copies the stored sections over the draft, and loses nothing, since a
page that only shows what is stored has no other draft (`Editor.Sound`).  So a
run loses nothing that has been typed (`editor_keeps_the_draft`).
-/

namespace AccessLedger

/-- The operation that a step asks for; the message may be changed in every phase. -/
def PageStep.action? : PageStep → Option EditAction
  | .user .beginEdit => some .begin
  | .user (.change _) => some .change
  | .user .cancel => some .cancel
  | .user (.setMessage _) => none
  | .user .commit => some .commit
  | .acceptResult _ => some .acceptResult
  | .acceptFailure _ => some .acceptFailure

/-- The steps that leave the draft alone, whatever they come to. -/
def PageStep.sparesDraft : PageStep → Bool
  | .user .beginEdit | .user (.setMessage _) | .user .commit | .acceptFailure _ => true
  | .user (.change _) | .user .cancel | .acceptResult _ => false

namespace Editor

variable {initial : AccessConfig} {h : EditHistory} {e e' : Editor} {step : PageStep}

/-! ## Refusals -/

/-- Why a step is refused, and the page after it. -/
inductive Refuses (e : Editor) : PageStep → EditFault → Editor → Prop
  | misplaced {step : PageStep} {action : EditAction} (asks : step.action? = some action)
      (misfit : e.phase ≠ action.phase) : Refuses e step (.wrongPhase action e.phase) e
  | stranger (readOnly : e.phase = .readOnly) (owns : e.access.ownsAny = false) :
      Refuses e (.user .beginEdit) .notAnOwner e
  | flawed {fault : SectionFault} (editing : e.phase = .editing)
      (invalid : validateSections e.draft = .error fault) :
      Refuses e (.user .commit) (.invalid (Failure.validation fault.message).message)
        { e with error := some (Failure.validation fault.message).message }

/-- A step that does not fit the phase is refused for that. -/
theorem perform_of_misfit {action : EditAction} (asks : step.action? = some action)
    (misfit : e.phase ≠ action.phase) :
    e.perform step = (.error (.wrongPhase action e.phase), e) := by
  rcases step with (_ | _ | _ | _ | _) | _ | _ <;> cases asks <;>
    simp only [perform, beginEdit, change, cancel, commit, acceptResult, acceptFailure,
      guarded_of_ne _ misfit] <;> rfl

/-- A step that fits the phase is refused for what it finds there. -/
theorem refuses_of_fit {fault : EditFault} (fits : ∀ action, step.action? = some action →
    e.phase = action.phase) (hfault : (e.perform step).1 = .error fault) :
    e.Refuses step fault (e.perform step).2 := by
  cases step with
  | user step =>
    cases step with
    | beginEdit =>
      have hphase := fits .begin rfl
      simp only [perform, beginEdit, guarded_of_eq .begin hphase] at hfault ⊢
      cases howns : e.access.ownsAny with
      | true => simp [howns, Except.map] at hfault
      | false =>
        simp only [howns, Bool.false_eq_true, if_false] at hfault ⊢
        cases hfault
        exact .stranger hphase howns
    | change f =>
      simp only [perform, change, guarded_of_eq .change (fits .change rfl)] at hfault
      cases hfault
    | cancel =>
      simp only [perform, cancel, guarded_of_eq .cancel (fits .cancel rfl)] at hfault
      cases hfault
    | setMessage message => cases hfault
    | commit =>
      have hphase := fits .commit rfl
      simp only [perform, commit, guarded_of_eq .commit hphase] at hfault ⊢
      cases hvalid : validateSections e.draft with
      | ok u => simp [hvalid, Except.map] at hfault
      | error flaw =>
        simp only [hvalid] at hfault ⊢
        cases hfault
        exact .flawed hphase hvalid
  | acceptResult stored =>
    simp only [perform, acceptResult, guarded_of_eq .acceptResult (fits .acceptResult rfl)]
      at hfault
    cases hfault
  | acceptFailure failure =>
    simp only [perform, acceptFailure, guarded_of_eq .acceptFailure (fits .acceptFailure rfl)]
      at hfault
    cases hfault

/-- Every refusal is one of these. -/
theorem refuses_perform {fault : EditFault} (hfault : (e.perform step).1 = .error fault) :
    e.Refuses step fault (e.perform step).2 := by
  by_cases hmisfit : ∃ action, step.action? = some action ∧ e.phase ≠ action.phase
  · obtain ⟨action, asks, misfit⟩ := hmisfit
    rw [perform_of_misfit asks misfit] at hfault ⊢
    cases hfault
    exact .misplaced asks misfit
  · refine refuses_of_fit (fun action asks => ?_) hfault
    exact Decidable.byContradiction fun misfit => hmisfit ⟨action, asks, misfit⟩

/-! ## The draft -/

/-- The steps that put something else in the place of the draft. -/
inductive Replaces (e : Editor) : PageStep → List AccessSection → Prop
  | changed (f : List AccessSection → List AccessSection) (editing : e.phase = .editing) :
      Replaces e (.user (.change f)) (f e.draft)
  | cancelled (editing : e.phase = .editing) : Replaces e (.user .cancel) e.access.sections
  | confirmed (stored : AccessConfig) (submitting : e.phase = .submitting)
      (same : (sectionDifference e.draft stored.sections).isEmpty = true) :
      Replaces e (.acceptResult stored) stored.sections

theorem Replaces.not_spared {draft : List AccessSection} (hreplaces : e.Replaces step draft) :
    step.sparesDraft = false := by
  cases hreplaces <;> rfl

/-- A step replaces the draft in one of these ways, or keeps it. -/
theorem Moves.draft_cases {outcome : Except EditFault EditorEvent} (hs : Sound initial h e)
    (hmoves : e.Moves step outcome e') : e'.draft = e.draft ∨ e.Replaces step e'.draft := by
  cases hmoves with
  | begun readOnly => exact .inl (hs.readOnly readOnly).1.symm
  | changed f editing => exact .inr (.changed f editing)
  | cancelled editing => exact .inr (.cancelled editing)
  | shown stored submitting same => exact .inr (.confirmed stored submitting same)
  | refused | invalid | worded | submitted | reopened | failed => exact .inl rfl

/--
What a step with this outcome leaves of the page and of its draft.  The request
that was sent last stands in the history.
-/
structure KeepsTyped (e : Editor) (h : EditHistory) (step : PageStep)
    (outcome : Except EditFault EditorEvent) (e' : Editor) : Prop where
  refused : ∀ fault, outcome = .error fault → e.Refuses step fault e'
  spared : step.sparesDraft = true → e'.draft = e.draft
  replaced : e'.draft ≠ e.draft → e.Replaces step e'.draft
  /-- The draft is what was submitted.  It stays, or what is stored has the same sections. -/
  answered : ∀ stored differences, step = .acceptResult stored →
    (e.acceptResult stored).1 = .ok differences →
    ∃ request, h.issued = some request ∧ e.draft = request.sections ∧
      (differences.isEmpty = false → e'.draft = request.sections) ∧
      (differences.isEmpty = true → ∀ s, s ∈ e'.draft ↔ s ∈ request.sections)

/-- An answer is accepted while it is waited for, and tells what it differs in. -/
theorem acceptResult_eq_ok {stored : AccessConfig} {differences : NameSet}
    (haccepts : (e.acceptResult stored).1 = .ok differences) :
    e.phase = .submitting ∧ differences = sectionDifference e.draft stored.sections ∧
      (e.acceptResult stored).2.draft =
        if differences.isEmpty = true then stored.sections else e.draft := by
  by_cases hphase : e.phase = .submitting
  · simp only [acceptResult, guarded_of_eq .acceptResult hphase, Except.ok.injEq] at haccepts ⊢
    subst haccepts
    refine ⟨hphase, rfl, ?_⟩
    split <;> rfl
  · simp only [acceptResult, guarded_of_ne .acceptResult hphase] at haccepts
    cases haccepts

/-- Whatever happens to a sound page, the draft is kept. -/
theorem Sound.keepsTyped (hs : Sound initial h e) (step : PageStep) :
    e.KeepsTyped h step (e.perform step).1 (e.perform step).2 := by
  have hdraft := (e.moves_perform step).draft_cases hs
  constructor
  case refused => exact fun fault hfault => refuses_perform hfault
  case spared =>
    intro hspared
    refine hdraft.resolve_right fun hreplaces => ?_
    rw [hreplaces.not_spared] at hspared
    cases hspared
  case replaced => exact fun hne => hdraft.resolve_left hne
  case answered =>
    rintro stored differences rfl haccepts
    obtain ⟨hphase, rfl, hafter⟩ := acceptResult_eq_ok haccepts
    obtain ⟨-, request, hissued, hsections, -, -⟩ := hs.submitting hphase
    refine ⟨request, hissued, hsections.symm, fun hdiffers => ?_, fun hsame s => ?_⟩
    · rw [perform, hafter, hdiffers, if_neg Bool.false_ne_true, hsections]
    · rw [perform, hafter, hsame, if_pos rfl, hsections]
      exact (isEmpty_sectionDifference_iff.mp hsame s).symm

end Editor

/--
A page has shown a configuration, and any steps have followed.  Whatever comes
next, a refusal changes nothing but what is said about a draft that is not
valid.  The draft is kept by all steps that are not about it, and by an answer
that differs from it.  Only its user replaces it, or an answer with the same
sections in whatever order.
-/
theorem editor_keeps_the_draft (initial : AccessConfig) (steps : List PageStep)
    (step : PageStep) :
    let (e, history) := (Editor.ofConfig initial).follow {} steps
    e.KeepsTyped history step (e.perform step).1 (e.perform step).2 :=
  ((Editor.sound_ofConfig initial).follow steps).keepsTyped step

end AccessLedger
