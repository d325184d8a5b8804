import AccessLedger.Program

/-!
# Transcripts of programs

The transcript of a run lists the questions of a program, one after the other,
with what came back: an answer, or a failure.  `Program.Talks` says which
transcripts a program can have at all, and what it comes to then, whoever
answers it, and however the answers depend on what was asked before
(`Program.talks_transcript`).  A program that goes on has the transcript of its
first part and then that of the second one (`Program.Talks.bind_cases`), and
after a failure nothing is asked (`Program.Talks.failure`).
-/

namespace AccessLedger

/-- A question and what came back. -/
structure Exchange (Q : Type → Type) (ε : Type) where
  {β : Type}
  question : Q β
  answer : Except ε β

namespace Program

variable {Q : Type → Type} {ε α β σ : Type}

/-- The exchanges of a run, one after the other. -/
def transcript (answer : {β : Type} → Q β → σ → Except ε β × σ) :
    Program Q ε α → σ → List (Exchange Q ε)
  | done _, _ => []
  | fail _, _ => []
  | ask q next, s =>
    match answer q s with
    | (.ok b, s) => ⟨q, .ok b⟩ :: transcript answer (next b) s
    | (.error e, _) => [⟨q, .error e⟩]

/-- A program can have these exchanges with someone, and comes to this outcome then. -/
inductive Talks : Program Q ε α → List (Exchange Q ε) → Except ε α → Prop
  | done (a : α) : Talks (done a) [] (.ok a)
  | fail (e : ε) : Talks (fail e) [] (.error e)
  | failed {β : Type} (q : Q β) (next : β → Program Q ε α) (e : ε) :
      Talks (ask q next) [⟨q, .error e⟩] (.error e)
  | answered {β : Type} {q : Q β} {next : β → Program Q ε α} {b : β} {calls : List (Exchange Q ε)}
      {r : Except ε α} (h : Talks (next b) calls r) :
      Talks (ask q next) (⟨q, .ok b⟩ :: calls) r

/-- A run is one of those that there can be. -/
theorem talks_transcript (answer : {β : Type} → Q β → σ → Except ε β × σ) (p : Program Q ε α)
    (s : σ) : p.Talks (p.transcript answer s) (p.run answer s).1 := by
  induction p generalizing s with
  | done a => exact .done a
  | fail e => exact .fail e
  | ask q next ih =>
    simp only [transcript, run]
    obtain ⟨r, after⟩ := answer q s
    cases r with
    | ok b => exact .answered (ih b after)
    | error e => exact .failed q next e

namespace Talks

variable {p : Program Q ε α} {calls : List (Exchange Q ε)}

/-- After a failure nothing is asked, and the failure is the outcome. -/
theorem failure {r : Except ε α} (h : p.Talks calls r) {before after : List (Exchange Q ε)}
    {x : Exchange Q ε} (hcalls : calls = before ++ x :: after) {e : ε} (hx : x.answer = .error e) :
    after = [] ∧ r = .error e := by
  induction h generalizing before with
  | done a => cases before <;> cases hcalls
  | fail e => cases before <;> cases hcalls
  | failed q next e' =>
    cases before with
    | nil =>
      cases hcalls
      cases hx
      exact ⟨rfl, rfl⟩
    | cons y before =>
      obtain ⟨-, hrest⟩ := List.cons.inj hcalls
      cases before <;> cases hrest
  | answered h ih =>
    cases before with
    | nil =>
      cases hcalls
      cases hx
    | cons y before => exact ih (List.cons.inj hcalls).2

/-- A program fails in its first part, or goes on with the value of it. -/
theorem bind_cases {f : α → Program Q ε β} {r : Except ε β} (h : (p >>= f).Talks calls r) :
    (∃ e, p.Talks calls (.error e) ∧ r = .error e) ∨
      ∃ a before after, calls = before ++ after ∧ p.Talks before (.ok a) ∧ (f a).Talks after r := by
  rw [bind_eq_andThen] at h
  induction p generalizing calls with
  | done a => exact .inr ⟨a, [], calls, rfl, .done a, h⟩
  | fail e =>
    cases h
    exact .inl ⟨e, .fail e, rfl⟩
  | ask q next ih =>
    cases h with
    | failed => exact .inl ⟨_, .failed q next _, rfl⟩
    | answered h =>
      rcases ih _ h with ⟨e, hnext, rfl⟩ | ⟨a, before, after, rfl, hnext, hf⟩
      · exact .inl ⟨e, .answered hnext, rfl⟩
      · exact .inr ⟨a, _, after, rfl, .answered hnext, hf⟩

theorem query_bind_cases {q : Q α} {f : α → Program Q ε β} {r : Except ε β}
    (h : (query q >>= f).Talks calls r) :
    (∃ e, calls = [⟨q, .error e⟩] ∧ r = .error e) ∨
      ∃ a after, calls = ⟨q, .ok a⟩ :: after ∧ (f a).Talks after r := by
  cases h with
  | failed => exact .inl ⟨_, rfl, rfl⟩
  | answered h => exact .inr ⟨_, _, rfl, h⟩

/-- What becomes of the value of a program is not asked of anybody. -/
theorem map_cases {f : α → β} {r : Except ε β}
    (h : (p >>= fun a => pure (f a)).Talks calls r) :
    ∃ value, p.Talks calls value ∧ ∀ b, r = .ok b → ∃ a, value = .ok a ∧ b = f a := by
  rcases h.bind_cases with ⟨e, hp, rfl⟩ | ⟨a, before, after, rfl, hp, hafter⟩
  · refine ⟨.error e, hp, ?_⟩
    intro b hb
    cases hb
  · cases hafter
    rw [List.append_nil]
    refine ⟨.ok a, hp, ?_⟩
    intro b hb
    cases hb
    exact ⟨a, rfl, rfl⟩

end Talks

end Program

end AccessLedger
