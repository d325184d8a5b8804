/-!
# Programs that ask

A `Program` computes a value and asks questions on the way; `Q β` is the type
of the questions that are answered by a `β`.  Whoever runs a program decides
what a question means and what it does to a state (`Program.run`), and may
answer it by a failure, which ends the program.  So the questions that a
program asks, their order, and what happens between two of them are all there
to be spoken about.

A program may also keep a value on the way, which it reads and replaces
(`Keeping`).  Whoever runs it has the value afterwards, also if it fails.
-/

namespace AccessLedger

/-- A computation of an `α` that may ask questions and may fail with an `ε`. -/
inductive Program (Q : Type → Type) (ε α : Type) : Type 1 where
  | done (a : α)
  | fail (e : ε)
  | ask {β : Type} (question : Q β) (next : β → Program Q ε α)

namespace Program

variable {Q R : Type → Type} {ε α β σ : Type}

/-- Go on with the value of a program. -/
def andThen : Program Q ε α → (α → Program Q ε β) → Program Q ε β
  | done a, f => f a
  | fail e, _ => fail e
  | ask q next, f => ask q fun b => (next b).andThen f

instance : Monad (Program Q ε) where
  pure := done
  bind := andThen

/-- Ask one question. -/
def query (q : Q α) : Program Q ε α := ask q done

/-- The value that has been computed elsewhere, or its failure. -/
def ofExcept : Except ε α → Program Q ε α
  | .ok a => done a
  | .error e => fail e

/-- Run a program, where `answer` says what each question does. -/
def run (answer : {β : Type} → Q β → σ → Except ε β × σ) :
    Program Q ε α → σ → Except ε α × σ
  | done a, s => (.ok a, s)
  | fail e, s => (.error e, s)
  | ask q next, s =>
    match answer q s with
    | (.ok b, s) => run answer (next b) s
    | (.error e, s) => (.error e, s)

/-- The program in which every question is answered by a program of other questions. -/
def interpret (meaning : {β : Type} → Q β → Program R ε β) : Program Q ε α → Program R ε α
  | done a => done a
  | fail e => fail e
  | ask q next => (meaning q).andThen fun b => (next b).interpret meaning

@[simp]
theorem andThen_done (p : Program Q ε α) : p.andThen done = p := by
  induction p with
  | done a => rfl
  | fail e => rfl
  | ask q next ih => simp only [andThen, ih]

theorem andThen_assoc {γ : Type} (p : Program Q ε α) (f : α → Program Q ε β)
    (g : β → Program Q ε γ) : (p.andThen f).andThen g = p.andThen fun a => (f a).andThen g := by
  induction p with
  | done a => rfl
  | fail e => rfl
  | ask q next ih => simp only [andThen, ih]

instance : LawfulMonad (Program Q ε) := LawfulMonad.mk'
  (Program Q ε) (fun p => andThen_done p) (fun _ _ => rfl) andThen_assoc

theorem bind_eq_andThen (p : Program Q ε α) (f : α → Program Q ε β) : p >>= f = p.andThen f := rfl

@[simp]
theorem run_pure (answer : {β : Type} → Q β → σ → Except ε β × σ) (a : α) (s : σ) :
    (pure a : Program Q ε α).run answer s = (.ok a, s) := rfl

/-- Asking one question does what its answer does. -/
@[simp]
theorem run_query (answer : {β : Type} → Q β → σ → Except ε β × σ) (q : Q α) (s : σ) :
    (query q).run answer s = answer q s := by
  simp only [query, run]
  match answer q s with
  | (.ok _, _) => rfl
  | (.error _, _) => rfl

/-- A value that has been computed elsewhere leaves the state as it is. -/
@[simp]
theorem run_ofExcept (answer : {β : Type} → Q β → σ → Except ε β × σ) (r : Except ε α) (s : σ) :
    (ofExcept r : Program Q ε α).run answer s = (r, s) := by
  cases r <;> rfl

/-- A program that goes on runs the first part and then, unless that fails, the second. -/
theorem run_andThen (answer : {β : Type} → Q β → σ → Except ε β × σ) (p : Program Q ε α)
    (f : α → Program Q ε β) (s : σ) :
    (p.andThen f).run answer s = match p.run answer s with
      | (.ok a, s) => (f a).run answer s
      | (.error e, s) => (.error e, s) := by
  induction p generalizing s with
  | done a => rfl
  | fail e => rfl
  | ask q next ih =>
    simp only [andThen, run]
    split
    · exact ih _ _
    · rfl

@[simp]
theorem run_bind (answer : {β : Type} → Q β → σ → Except ε β × σ) (p : Program Q ε α)
    (f : α → Program Q ε β) (s : σ) :
    (p >>= f).run answer s = match p.run answer s with
      | (.ok a, s) => (f a).run answer s
      | (.error e, s) => (.error e, s) :=
  run_andThen answer p f s

@[simp]
theorem run_map (answer : {β : Type} → Q β → σ → Except ε β × σ) (f : α → β)
    (p : Program Q ε α) (s : σ) :
    (f <$> p).run answer s = ((p.run answer s).1.map f, (p.run answer s).2) := by
  rw [← bind_pure_comp, run_bind]
  rcases p.run answer s with ⟨_ | _, _⟩ <;> rfl

/-- An interpreted program answers every question by running its meaning. -/
@[simp]
theorem run_interpret (meaning : {β : Type} → Q β → Program R ε β)
    (answer : {β : Type} → R β → σ → Except ε β × σ) (p : Program Q ε α) (s : σ) :
    (p.interpret meaning).run answer s = p.run (fun q s => (meaning q).run answer s) s := by
  induction p generalizing s with
  | done a => rfl
  | fail e => rfl
  | ask q next ih =>
    simp only [interpret, run, run_andThen]
    match (meaning q).run answer s with
    | (.ok b, s) => exact ih b s
    | (.error e, s) => rfl

end Program

/-! ## Keeping a value -/

/-- What a program does with the value that is kept for it. -/
inductive Access (S : Type) : Type → Type where
  /-- Read the value. -/
  | current : Access S S
  /-- Put another value in its place. -/
  | replace (value : S) : Access S Unit

/-- A question, or an access to the value of type `S` that is kept. -/
inductive Keeping (S : Type) (Q : Type → Type) (β : Type) : Type where
  | access (access : Access S β)
  | other (question : Q β)

/-- Whoever answers questions keeps a value beside their own state. -/
def Keeping.answer {S σ ε : Type} {Q : Type → Type}
    (answer : {β : Type} → Q β → σ → Except ε β × σ) :
    {β : Type} → Keeping S Q β → S × σ → Except ε β × S × σ
  | _, .access .current, (kept, s) => (.ok kept, kept, s)
  | _, .access (.replace value), (_, s) => (.ok (), value, s)
  | _, .other q, (kept, s) => ((answer q s).1, kept, (answer q s).2)

namespace Program

variable {S ε α σ : Type} {Q : Type → Type}

/-- The value that is kept. -/
def current : Program (Keeping S Q) ε S := query (.access .current)

/-- Put another value in the place of the one that is kept. -/
def replace (value : S) : Program (Keeping S Q) ε Unit := query (.access (.replace value))

/-- Ask a question, with the kept value as it is. -/
def other {β : Type} (q : Q β) : Program (Keeping S Q) ε β := query (.other q)

section

variable (answer : {β : Type} → Q β → σ → Except ε β × σ) (kept : S) (s : σ)

@[simp]
theorem run_current :
    (current : Program (Keeping S Q) ε S).run (Keeping.answer answer) (kept, s) =
      (.ok kept, kept, s) := rfl

@[simp]
theorem run_replace (value : S) :
    (replace value : Program (Keeping S Q) ε Unit).run (Keeping.answer answer) (kept, s) =
      (.ok (), value, s) := rfl

/-- A question leaves the kept value as it is, also if it is answered by a failure. -/
@[simp]
theorem run_other {β : Type} (q : Q β) :
    (other q : Program (Keeping S Q) ε β).run (Keeping.answer answer) (kept, s) =
      ((answer q s).1, kept, (answer q s).2) :=
  run_query _ _ _

end

/-- Go through a program that keeps a value, which comes out beside what it computes. -/
def keep : Program (Keeping S Q) ε α → S → Program Q ε (α × S)
  | done a, kept => done (a, kept)
  | fail e, _ => fail e
  | ask (.access .current) next, kept => (next kept).keep kept
  | ask (.access (.replace value)) next, _ => (next ()).keep value
  | ask (.other q) next, kept => ask q fun b => (next b).keep kept

end Program

end AccessLedger
