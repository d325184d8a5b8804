import AccessLedger.Proofs.Store.Operation

/-!
# Operations that run at the same time

A `System` is a database with a list of programs that are run on it.  A step
executes the next statement of one of them; a schedule says whose turn it is,
step after step.  Every execution of a statement is a `Visit` of the trace.
A trace leads from the first database to the last one (`System.chained_trace`),
the visits of one call follow its program (`System.follows_trace`), and what
all programs keep holds throughout (`System.Keeps.run`, `System.Keeps.trace`).
-/

namespace AccessLedger

/-- One execution of a statement: what was asked, and of which database. -/
structure Visit where
  {β : Type}
  question : Statement β
  before : Database

namespace Visit

/-- The answer, or the refusal. -/
def answer (v : Visit) : Except Failure v.β := (v.before.perform v.question).1

/-- The database after it. -/
def after (v : Visit) : Database := (v.before.perform v.question).2

end Visit

/-- What is left of a program. -/
structure Running where
  {α : Type}
  program : StoreProgram α

/-- What is left of a program once its question has been answered. -/
def resume {α β : Type} (next : β → StoreProgram α) : Except Failure β → Running
  | .ok b => ⟨next b⟩
  | .error e => ⟨(.fail e : StoreProgram α)⟩

/-- A database, and what is left of the programs that are run on it. -/
structure System where
  db : Database
  running : List Running

/-- An operation that has been called, and what the clock shows then. -/
structure Call where
  {α : Type}
  operation : Operation α
  now : Instant

/-- What the clock shows to a call, one reading after the other. -/
def Call.readings (c : Call) : List Instant := c.operation.readings c.now

namespace System

/-- No call has done anything yet. -/
def start (db : Database) (calls : List Call) : System :=
  ⟨db, calls.map fun c => ⟨c.operation.program c.now⟩⟩

/-- The next visit of a program, if there is one. -/
def visit? (s : System) (i : Nat) : Option Visit :=
  match s.running[i]? with
  | some ⟨.ask q _⟩ => some ⟨q, s.db⟩
  | _ => none

/-- Execute the next statement of a program; one that has ended does nothing. -/
def step (s : System) (i : Nat) : System :=
  match s.running[i]? with
  | some ⟨.ask q next⟩ =>
    ⟨(s.db.perform q).2, s.running.set i (resume next (s.db.perform q).1)⟩
  | _ => s

/-- The system after a schedule. -/
def run (s : System) : List Nat → System
  | [] => s
  | i :: schedule => (s.step i).run schedule

/-- The visits of a schedule, each with the program that it is a visit of. -/
def trace (s : System) : List Nat → List (Nat × Visit)
  | [] => []
  | i :: schedule => ((s.visit? i).map (i, ·)).toList ++ (s.step i).trace schedule

end System

/-- The visits of one program, in order. -/
def visitsOf (i : Nat) (trace : List (Nat × Visit)) : List Visit :=
  (trace.filter (·.1 = i)).map Prod.snd

/-- Visits of a program, and what they leave of it. -/
inductive Follows : Running → List Visit → Running → Prop
  | nil (r : Running) : Follows r [] r
  | cons {α β : Type} {q : Statement β} {next : β → StoreProgram α} {db : Database}
      {visits : List Visit} {r : Running} (h : Follows (resume next (db.perform q).1) visits r) :
      Follows ⟨.ask q next⟩ (⟨q, db⟩ :: visits) r

/-- Visits that lead from one database to another. -/
inductive Chained : Database → List Visit → Database → Prop
  | nil (db : Database) : Chained db [] db
  | cons {v : Visit} {visits : List Visit} {db : Database} (h : Chained v.after visits db) :
      Chained v.before (v :: visits) db

namespace System

/-- A step does nothing, or it makes the next visit of a program. -/
theorem step_cases (s : System) (i : Nat) :
    (s.visit? i = none ∧ s.step i = s) ∨
    ∃ (α β : Type) (q : Statement β) (next : β → StoreProgram α),
      s.running[i]? = some ⟨.ask q next⟩ ∧ s.visit? i = some ⟨q, s.db⟩ ∧
      s.step i = ⟨(s.db.perform q).2, s.running.set i (resume next (s.db.perform q).1)⟩ := by
  unfold visit? step
  match h : s.running[i]? with
  | some ⟨.ask q next⟩ => exact .inr ⟨_, _, q, next, rfl, rfl, rfl⟩
  | some ⟨.done a⟩ => exact .inl ⟨rfl, rfl⟩
  | some ⟨.fail e⟩ => exact .inl ⟨rfl, rfl⟩
  | none => exact .inl ⟨rfl, rfl⟩

@[simp]
theorem length_running_step (s : System) (i : Nat) :
    (s.step i).running.length = s.running.length := by
  rcases s.step_cases i with ⟨-, h⟩ | ⟨_, _, q, next, -, -, h⟩
  · rw [h]
  · rw [h, List.length_set]

/-- A trace leads from the first database to the last one. -/
theorem chained_trace (s : System) (schedule : List Nat) :
    Chained s.db ((s.trace schedule).map Prod.snd) (s.run schedule).db := by
  induction schedule generalizing s with
  | nil => exact .nil s.db
  | cons i schedule ih =>
    have hrest := ih (s.step i)
    rw [trace, run, List.map_append]
    rcases s.step_cases i with ⟨hvisit, hstep⟩ | ⟨_, _, q, next, -, hvisit, hstep⟩
    · rw [hvisit]
      rw [hstep] at hrest ⊢
      exact hrest
    · rw [hvisit]
      rw [hstep] at hrest ⊢
      exact Chained.cons (v := ⟨q, s.db⟩) hrest

@[simp]
theorem visitsOf_cons_self (i : Nat) (v : Visit) (trace : List (Nat × Visit)) :
    visitsOf i ((i, v) :: trace) = v :: visitsOf i trace := by
  simp only [visitsOf, decide_true, List.filter_cons_of_pos, List.map_cons]

theorem visitsOf_cons_of_ne {i j : Nat} (h : j ≠ i) (v : Visit) (trace : List (Nat × Visit)) :
    visitsOf i ((j, v) :: trace) = visitsOf i trace := by
  simp only [visitsOf, h, decide_false, Bool.false_eq_true, not_false_eq_true,
    List.filter_cons_of_neg]

@[simp]
theorem mem_visitsOf {i : Nat} {v : Visit} {trace : List (Nat × Visit)} :
    v ∈ visitsOf i trace ↔ (i, v) ∈ trace := by
  simp only [visitsOf, List.mem_map, List.mem_filter, decide_eq_true_eq]
  constructor
  · rintro ⟨⟨j, w⟩, ⟨hin, rfl⟩, rfl⟩
    exact hin
  · exact fun h => ⟨(i, v), ⟨h, rfl⟩, rfl⟩

/-- The visits of a call follow its program. -/
theorem follows_trace {s : System} {i : Nat} {r : Running} (h : s.running[i]? = some r)
    (schedule : List Nat) : ∃ r', (s.run schedule).running[i]? = some r' ∧
      Follows r (visitsOf i (s.trace schedule)) r' := by
  induction schedule generalizing s r with
  | nil => exact ⟨r, h, .nil r⟩
  | cons j schedule ih =>
    rw [trace, run]
    rcases s.step_cases j with ⟨hvisit, hstep⟩ | ⟨_, _, q, next, hj, hvisit, hstep⟩
    · rw [hvisit, hstep]
      exact ih h
    · rw [hvisit]
      simp only [Option.map_some, Option.toList_some, List.singleton_append]
      by_cases hij : j = i
      · subst hij
        rw [h] at hj
        cases hj
        have hnext : (s.step j).running[j]? = some (resume next (s.db.perform q).1) := by
          rw [hstep]
          exact List.getElem?_set_self (List.getElem?_eq_some_iff.mp h).1
        obtain ⟨r', hr', hfollows⟩ := ih hnext
        rw [visitsOf_cons_self]
        exact ⟨r', hr', .cons hfollows⟩
      · have hnext : (s.step j).running[i]? = some r := by
          rw [hstep]
          exact (List.getElem?_set_ne hij).trans h
        rw [visitsOf_cons_of_ne hij]
        exact ih hnext

/-- A visit is made by a program. -/
theorem lt_of_mem_trace {s : System} {schedule : List Nat} {i : Nat} {v : Visit}
    (h : (i, v) ∈ s.trace schedule) : i < s.running.length := by
  induction schedule generalizing s with
  | nil => cases h
  | cons j schedule ih =>
    rw [trace, List.mem_append] at h
    rcases h with hnow | hlater
    · rcases s.step_cases j with ⟨hvisit, -⟩ | ⟨_, _, q, next, hj, hvisit, -⟩
      · rw [hvisit] at hnow
        cases hnow
      · rw [hvisit] at hnow
        cases List.mem_singleton.mp hnow
        exact (List.getElem?_eq_some_iff.mp hj).1
    · have hlt := ih hlater
      rwa [length_running_step] at hlt

/-- An invariant holds, and every program keeps it. -/
structure Keeps (inv : Database → Prop) (s : System) : Prop where
  holds : inv s.db
  safe : ∀ r ∈ s.running, Safe inv (fun _ => True) r.program

variable {inv : Database → Prop}

theorem keeps_start (h : Kept inv) {db : Database} (hdb : inv db) (calls : List Call) :
    Keeps inv (start db calls) := by
  refine ⟨hdb, fun r hr => ?_⟩
  obtain ⟨c, -, rfl⟩ := List.mem_map.mp hr
  exact h c.operation c.now

theorem Keeps.step {s : System} (h : Keeps inv s) (i : Nat) : Keeps inv (s.step i) := by
  rcases s.step_cases i with ⟨-, hstep⟩ | ⟨_, _, q, next, hi, -, hstep⟩
  · rw [hstep]
    exact h
  · obtain ⟨hkept, hnext⟩ := h.safe _ (List.mem_of_getElem? hi) s.db h.holds
    rw [hstep]
    refine ⟨hkept, fun r hr => ?_⟩
    rcases List.mem_or_eq_of_mem_set hr with hold | rfl
    · exact h.safe r hold
    · cases hb : (s.db.perform q).1 with
      | ok b => exact hnext b hb
      | error e => trivial

theorem Keeps.run {s : System} (h : Keeps inv s) (schedule : List Nat) :
    Keeps inv (s.run schedule) := by
  induction schedule generalizing s with
  | nil => exact h
  | cons i schedule ih => exact ih (h.step i)

/-- What all programs keep holds before every visit. -/
theorem Keeps.trace {s : System} (h : Keeps inv s) {schedule : List Nat} {i : Nat} {v : Visit}
    (hv : (i, v) ∈ s.trace schedule) : inv v.before := by
  induction schedule generalizing s with
  | nil => cases hv
  | cons j schedule ih =>
    rw [System.trace, List.mem_append] at hv
    rcases hv with hnow | hlater
    · rcases s.step_cases j with ⟨hvisit, -⟩ | ⟨_, _, q, next, -, hvisit, -⟩
      · rw [hvisit] at hnow
        cases hnow
      · rw [hvisit] at hnow
        cases List.mem_singleton.mp hnow
        exact h.holds
    · exact ih (h.step j) hlater

end System

end AccessLedger
