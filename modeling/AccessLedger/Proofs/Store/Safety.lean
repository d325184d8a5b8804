import AccessLedger.Store.Groups
import AccessLedger.Store.Perform

/-!
# Programs that keep an invariant

`Program.Asks P p` says that all questions of a program, on any answers, are
of the kind `P`.  `Safe inv post p` says more of a program of the store: each
of its statements keeps the invariant `inv`, whatever others, who keep it too,
have done since the one before, and an answer of the program satisfies `post`.
A program runs through undisturbed as a special case (`Safe.run`).
-/

namespace AccessLedger

namespace Program

variable {Q R : Type → Type} {ε α β : Type}

/-- All questions that a program can ask are of the kind `P`. -/
def Asks (P : {β : Type} → Q β → Prop) : Program Q ε α → Prop
  | done _ => True
  | fail _ => True
  | ask q next => P q ∧ ∀ b, (next b).Asks P

variable {P : {β : Type} → Q β → Prop}

theorem asks_query {q : Q α} (h : P q) : (query q : Program Q ε α).Asks P :=
  ⟨h, fun _ => trivial⟩

theorem asks_ofExcept (r : Except ε α) : (ofExcept r : Program Q ε α).Asks P := by
  cases r <;> trivial

theorem asks_bind {p : Program Q ε α} {f : α → Program Q ε β} (hp : p.Asks P)
    (hf : ∀ a, (f a).Asks P) : (p >>= f).Asks P := by
  rw [bind_eq_andThen]
  induction p with
  | done a => exact hf a
  | fail e => trivial
  | ask q next ih => exact ⟨hp.1, fun b => ih b (hp.2 b)⟩

theorem interpret_andThen (meaning : {β : Type} → Q β → Program R ε β) (p : Program Q ε α)
    (f : α → Program Q ε β) :
    (p.andThen f).interpret meaning =
      (p.interpret meaning).andThen fun a => (f a).interpret meaning := by
  induction p with
  | done a => rfl
  | fail e => rfl
  | ask q next ih => simp only [andThen, interpret, andThen_assoc, ih]

/-- A program asks what the meanings of its questions ask. -/
theorem asks_interpret {P : {β : Type} → R β → Prop} {meaning : {β : Type} → Q β → Program R ε β}
    (h : ∀ {β : Type} (q : Q β), (meaning q).Asks P) (p : Program Q ε α) :
    (p.interpret meaning).Asks P := by
  induction p with
  | done a => trivial
  | fail e => trivial
  | ask q next ih =>
    rw [interpret, ← bind_eq_andThen]
    exact asks_bind (h q) ih

theorem Asks.mono {P' : {β : Type} → Q β → Prop} {p : Program Q ε α} (hp : p.Asks P)
    (h : ∀ {β : Type} (q : Q β), P q → P' q) : p.Asks P' := by
  induction p with
  | done a => trivial
  | fail e => trivial
  | ask q next ih => exact ⟨h q hp.1, fun b => ih b (hp.2 b)⟩

end Program

/--
Each statement of the program keeps `inv`, on any database with `inv`, and the
answer of the program satisfies `post`.
-/
def Safe {α : Type} (inv : Database → Prop) (post : α → Prop) : StoreProgram α → Prop
  | .done a => post a
  | .fail _ => True
  | .ask q next => ∀ db, inv db → inv (db.perform q).2 ∧
      ∀ b, (db.perform q).1 = .ok b → Safe inv post (next b)

namespace Safe

variable {α β : Type} {inv : Database → Prop} {post : α → Prop}

/-- A program whose statements all keep the invariant is safe. -/
theorem of_asks {p : StoreProgram α}
    (h : p.Asks fun q => ∀ db, inv db → inv (db.perform q).2) : Safe inv (fun _ => True) p := by
  induction p with
  | done a => trivial
  | fail e => trivial
  | ask q next ih => exact fun db hdb => ⟨h.1 db hdb, fun b _ => ih b (h.2 b)⟩

theorem bind {post' : β → Prop} {p : StoreProgram α} {f : α → StoreProgram β}
    (hp : Safe inv post p) (hf : ∀ a, post a → Safe inv post' (f a)) :
    Safe inv post' (p >>= f) := by
  rw [Program.bind_eq_andThen]
  induction p with
  | done a => exact hf a hp
  | fail e => trivial
  | ask q next ih =>
    intro db hdb
    obtain ⟨hkept, hnext⟩ := hp db hdb
    exact ⟨hkept, fun b hb => ih b (hnext b hb)⟩

theorem mono {post' : α → Prop} {p : StoreProgram α} (hp : Safe inv post p)
    (h : ∀ a, post a → post' a) : Safe inv post' p := by
  induction p with
  | done a => exact h a hp
  | fail e => trivial
  | ask q next ih =>
    intro db hdb
    obtain ⟨hkept, hnext⟩ := hp db hdb
    exact ⟨hkept, fun b hb => ih b (hnext b hb)⟩

/-- One statement, with what its answer tells. -/
theorem query {q : Statement α}
    (h : ∀ db, inv db → inv (db.perform q).2 ∧ ∀ b, (db.perform q).1 = .ok b → post b) :
    Safe inv post (Program.query q) := h

theorem ofExcept {r : Except Failure α} (h : ∀ a, r = .ok a → post a) :
    Safe inv post (Program.ofExcept r) := by
  cases r with
  | ok a => exact h a rfl
  | error e => trivial

/-- A safe program that runs through keeps the invariant and answers as it should. -/
theorem run {p : StoreProgram α} (hp : Safe inv post p) {db : Database} (hdb : inv db) :
    inv (p.run db).2 ∧ ∀ a, (p.run db).1 = .ok a → post a := by
  induction p generalizing db with
  | done a =>
    refine ⟨hdb, fun b hb => ?_⟩
    cases hb
    exact hp
  | fail e => exact ⟨hdb, fun b hb => by cases hb⟩
  | ask q next ih =>
    obtain ⟨hkept, hnext⟩ := hp db hdb
    simp only [StoreProgram.run, Program.run] at ih ⊢
    split
    · next b db' h =>
      rw [h] at hkept hnext
      exact ih b (hnext b rfl) hkept
    · next e db' h =>
      rw [h] at hkept
      exact ⟨hkept, fun b hb => by cases hb⟩

end Safe

/-! ## Statements that only read -/

/-- Whether a statement changes nothing. -/
def Statement.isRead {β : Type} : Statement β → Bool
  | .group _ | .description _ | .isOwner _ _ | .memberAudits _ | .includeAudits _
  | .accountExists _ | .accounts _ | .knownGroups _ | .project _ | .ownedSections _ _ => true
  | _ => false

namespace Database

@[simp]
theorem answer_snd {β : Type} (db : Database) (b : Option β) : (db.answer b).2 = db := by
  cases b <;> rfl

theorem perform_of_isRead {β : Type} {q : Statement β} (h : q.isRead = true) (db : Database) :
    (db.perform q).2 = db := by
  cases q with
  | group uuid =>
    simp only [perform]
    split
    · rfl
    · exact answer_snd db _
  | description uuid => rfl
  | isOwner uuid account => rfl
  | memberAudits group => exact answer_snd db _
  | includeAudits group => exact answer_snd db _
  | accountExists id => rfl
  | accounts ids =>
    simp only [perform]
    split <;> rfl
  | knownGroups uuids => rfl
  | project name => rfl
  | ownedSections project account => rfl
  | _ => cases h

end Database

namespace Store

/-- The answers of the store to a backend's questions only read. -/
theorem asks_answer {β : Type} (q : Backend β) :
    (answer q).Asks fun q => q.isRead = true := by
  cases q with
  | internalGroup uuid =>
    refine Program.asks_bind (Program.asks_query rfl) fun g => ?_
    cases g with
    | none => trivial
    | some g => exact Program.asks_bind (Program.asks_ofExcept _) fun _ => trivial
  | groupDescription uuid => exact Program.asks_query rfl
  | isOwner uuid account => exact Program.asks_query rfl
  | membersAudit uuid =>
    exact Program.asks_bind (Program.asks_query rfl) fun _ => Program.asks_ofExcept _
  | subgroupsAudit uuid =>
    exact Program.asks_bind (Program.asks_query rfl) fun _ => Program.asks_ofExcept _
  | accounts ids =>
    refine Program.asks_bind ?_ fun _ => trivial
    unfold accounts
    split
    · trivial
    · exact Program.asks_query rfl

theorem asks_ask {α : Type} (p : BackendProgram α) : (ask p).Asks fun q => q.isRead = true :=
  Program.asks_interpret asks_answer p

end Store

/-- A program that only reads leaves the database as it is. -/
theorem run_of_asks_isRead {α : Type} {p : StoreProgram α}
    (h : p.Asks fun q => q.isRead = true) (db : Database) : (p.run db).2 = db := by
  have hsafe : Safe (· = db) (fun _ => True) p :=
    Safe.of_asks (h.mono fun _ hq _ e => (Database.perform_of_isRead hq _).trans e)
  exact (hsafe.run rfl).1

end AccessLedger
