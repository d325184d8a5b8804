import AccessLedger.Proofs.Store.Commit
import AccessLedger.Proofs.Store.Effects

/-!
# Calls that fail change nothing

A program is all or nothing (`AllOrNothing`) if a statement of it
that changes anything is followed by an answer, with no other statement in
between.  So all that can fail comes before the change, or is the statement
itself, which is undone then.  This is a matter of the program alone: whatever
the database holds, rows that nobody can read included, a run that fails leaves
it as it was (`AllOrNothing.run_error`).  Two operations are not
all or nothing: a new account stays although its number is out of range, and a
new group although its creator is missing.
-/

namespace AccessLedger

/-- A statement that changes something is answered, and its answer ends the program. -/
def AllOrNothing {α : Type} : StoreProgram α → Prop
  | .done _ => True
  | .fail _ => True
  | .ask q next =>
    (∀ db : Database, (db.perform q).2 = db ∨
      ∃ b a, (db.perform q).1 = .ok b ∧ next b = .done a) ∧
    ∀ b, AllOrNothing (next b)

namespace AllOrNothing

variable {α β : Type} {p : StoreProgram α}

theorem of_asks_isRead (h : p.Asks fun q => q.isRead = true) : AllOrNothing p := by
  induction p with
  | done a => trivial
  | fail e => trivial
  | ask q next ih =>
    refine ⟨fun db => .inl (Database.perform_of_isRead h.1 db), fun b => ?_⟩
    exact ih b (h.2 b)

/-- Whatever is read first makes no difference. -/
theorem bind_of_asks_isRead (h : p.Asks fun q => q.isRead = true) {f : α → StoreProgram β}
    (hf : ∀ a, AllOrNothing (f a)) : AllOrNothing (p >>= f) := by
  rw [Program.bind_eq_andThen]
  induction p with
  | done a => exact hf a
  | fail e => trivial
  | ask q next ih =>
    refine ⟨fun db => .inl (Database.perform_of_isRead h.1 db), fun b => ?_⟩
    exact ih b (h.2 b)

/-- Nor does it make a difference what becomes of the answer. -/
theorem bind_done (h : AllOrNothing p) (f : α → β) :
    AllOrNothing (p >>= fun a => Program.done (f a)) := by
  rw [Program.bind_eq_andThen]
  induction p with
  | done a => trivial
  | fail e => trivial
  | ask q next ih =>
    refine ⟨fun db => ?_, fun b => ih b (h.2 b)⟩
    rcases h.1 db with hsame | ⟨b, a, hb, hnext⟩
    · exact .inl hsame
    · refine .inr ⟨b, f a, hb, ?_⟩
      simp only [hnext]
      rfl

/-- A run that fails leaves the database as it was. -/
theorem run_error (h : AllOrNothing p) {db db' : Database} {e : Failure}
    (hrun : p.run db = (.error e, db')) : db' = db := by
  induction p generalizing db with
  | done a => cases hrun
  | fail e =>
    cases hrun
    rfl
  | ask q next ih =>
    simp only [StoreProgram.run, Program.run] at hrun
    obtain ⟨hstep, hrest⟩ := h
    specialize hstep db
    generalize db.perform q = performed at hrun hstep
    obtain ⟨r, after⟩ := performed
    rcases hstep with hsame | ⟨b, a, hb, hnext⟩
    · cases hsame
      cases r with
      | ok b => exact ih b (hrest b) hrun
      | error e =>
        cases hrun
        rfl
    -- the answer that ends the program is no failure
    · cases hb
      simp only [hnext] at hrun
      cases hrun

end AllOrNothing

/-! ## Operations -/

namespace Store

variable (group : GroupUuid) (now : Instant)

theorem allOrNothing_addMember (member addedBy : AccountId) :
    AllOrNothing (addMember group member addedBy now) := by
  refine .bind_of_asks_isRead (asks_ask _) fun _ => ?_
  refine .bind_of_asks_isRead (Program.asks_query rfl) fun found => ?_
  cases found with
  | false => trivial
  | true =>
    refine ⟨fun db => ?_, fun _ => trivial⟩
    rw [Database.perform]
    rcases db.beginMembership_cases group member addedBy now with ⟨-, h⟩ | ⟨-, h | h⟩ <;> rw [h]
    · exact .inl rfl
    · exact .inl rfl
    · exact .inr ⟨true, (), rfl, rfl⟩

theorem allOrNothing_removeMember (member removedBy : AccountId) :
    AllOrNothing (removeMember group member removedBy now) := by
  refine .bind_of_asks_isRead (asks_ask _) fun _ => ⟨fun db => ?_, fun removed => ?_⟩
  · rw [Database.perform]
    rcases db.endMembership_cases group member removedBy now with ⟨-, h⟩ | ⟨-, h⟩ <;> rw [h]
    · exact .inl rfl
    · exact .inr ⟨true, (), rfl, rfl⟩
  · cases removed <;> trivial

theorem allOrNothing_addSubgroup (included : GroupUuid) (addedBy : AccountId) :
    AllOrNothing (addSubgroup group included addedBy now) := by
  refine .bind_of_asks_isRead (asks_ask _) fun _ => ?_
  refine .bind_of_asks_isRead (Program.asks_query rfl) fun d => ?_
  cases d with
  | none => trivial
  | some d =>
    refine ⟨fun db => ?_, fun _ => trivial⟩
    rw [Database.perform]
    rcases db.beginInclusion_cases group included addedBy now with ⟨-, h⟩ | ⟨-, h | h⟩ <;> rw [h]
    · exact .inl rfl
    · exact .inl rfl
    · exact .inr ⟨true, (), rfl, rfl⟩

theorem allOrNothing_removeSubgroup (included : GroupUuid) (removedBy : AccountId) :
    AllOrNothing (removeSubgroup group included removedBy now) := by
  refine .bind_of_asks_isRead (asks_ask _) fun _ => ⟨fun db => ?_, fun removed => ?_⟩
  · rw [Database.perform]
    rcases db.endInclusion_cases group included removedBy now with ⟨-, h⟩ | ⟨-, h⟩ <;> rw [h]
    · exact .inl rfl
    · exact .inr ⟨true, (), rfl, rfl⟩
  · cases removed <;> trivial

theorem allOrNothing_describeExternal (d : GroupDescription) :
    AllOrNothing (describeExternal d) :=
  ⟨fun _ => .inr ⟨(), d, rfl, rfl⟩, fun _ => trivial⟩

theorem allOrNothing_createProject (name : String) (parent : Option String)
    (sections : List AccessSection) : AllOrNothing (createProject name parent sections) := by
  refine .bind_of_asks_isRead (Program.asks_ofExcept _) fun _ => ⟨fun db => ?_, fun _ => trivial⟩
  rw [Database.perform]
  rcases db.insertProject_cases name parent (revisionOf sections)
    (sections.map AccessSection.toStored) with h | ⟨-, h⟩ <;> rw [h]
  · exact .inl rfl
  · exact .inr ⟨(), _, rfl, rfl⟩

theorem allOrNothing_grantSection (project sectionName : String) :
    AllOrNothing (grantSection project sectionName group) := by
  refine ⟨fun db => ?_, fun _ => trivial⟩
  rw [Database.perform, Database.insertGrant]
  split
  · exact .inl rfl
  · split
    · exact .inl rfl
    · exact .inr ⟨(), (), rfl, rfl⟩

/-- A commit writes last, and it answers unless another writer has come first. -/
theorem allOrNothing_applyAccess (name : String) (account : AccountId) (update : AccessUpdate) :
    AllOrNothing (applyAccess name account update now) := by
  rw [applyAccess_eq]
  refine .bind_of_asks_isRead (asks_project name) fun loaded => ?_
  cases loaded with
  | none => trivial
  | some stored =>
    simp only [commitLoaded]
    split
    · trivial
    refine .bind_of_asks_isRead (Program.asks_ofExcept _) fun _ => ?_
    refine .bind_of_asks_isRead (Program.asks_query rfl) fun owned => ?_
    unfold commitOwned
    split
    · trivial
    refine .bind_of_asks_isRead (Program.asks_query rfl) fun known => ?_
    unfold commitMerged
    split
    · trivial
    refine ⟨fun db => ?_, fun swapped => ?_⟩
    · rw [Database.perform]
      rcases db.swapSections_cases (commitSwap name account update now stored
          (mergeSections owned.coversSection (fun u => u ∈ known) stored.sections
            update.sections)) with h | ⟨_, -, -, h⟩ <;> rw [h]
      · exact .inl rfl
      · exact .inr ⟨true, _, rfl, rfl⟩
    · cases swapped with
      | false => exact .of_asks_isRead asks_commitLost
      | true => trivial

end Store

/-- Whether an operation adds an account or an internal group. -/
def Operation.registers {α : Type} : Operation α → Bool
  | .createAccount _ _ _ | .createGroup _ _ _ _ _ _ => true
  | _ => false

/-- All operations but these two are all or nothing. -/
theorem Operation.allOrNothing {α : Type} {operation : Operation α}
    (h : operation.registers = false) (now : Instant) :
    AllOrNothing (operation.program now) := by
  cases operation with
  | createAccount | createGroup => cases h
  | describeExternal d => exact Store.allOrNothing_describeExternal d
  | createProject => exact Store.allOrNothing_createProject _ _ _
  | grantSection => exact Store.allOrNothing_grantSection _ _ _
  | addMember => exact Store.allOrNothing_addMember _ _ _ _
  | removeMember => exact Store.allOrNothing_removeMember _ _ _ _
  | addSubgroup => exact Store.allOrNothing_addSubgroup _ _ _ _
  | removeSubgroup => exact Store.allOrNothing_removeSubgroup _ _ _ _
  | applyAccess => exact Store.allOrNothing_applyAccess _ _ _ _

end AccessLedger
