import AccessLedger.Proofs.Store.Safety
import AccessLedger.Store.Projects

/-!
# Operations and reachable databases

`Operation` lists what may be asked of the store to change it, and
`Operation.program` is what is done then: it reads, and it executes the
statements that are there for it (`Operation.asks_program`).  The reachable
databases are those that operations, one after the other, make of the empty
one.  What each statement of each operation keeps holds of all of them
(`Reachable.keeps`).
-/

namespace AccessLedger

/--
A public operation of the store, with the type of its answer.  Whoever creates a
group reads the clock twice: it shows `createdOn` before it shows the time of
the operation.
-/
inductive Operation : Type → Type where
  | createAccount (fullName email username : Option String) : Operation AccountInfo
  | createGroup (uuid : GroupUuid) (name : String) (description : Option String)
      (owner : Option GroupUuid) (creator : AccountId) (createdOn : Instant) :
      Operation InternalGroup
  | describeExternal (d : GroupDescription) : Operation GroupDescription
  | createProject (name : String) (parent : Option String) (sections : List AccessSection) :
      Operation String
  | grantSection (project sectionName : String) (group : GroupUuid) : Operation Unit
  | addMember (group : GroupUuid) (member addedBy : AccountId) : Operation Unit
  | removeMember (group : GroupUuid) (member removedBy : AccountId) : Operation Unit
  | addSubgroup (group included : GroupUuid) (addedBy : AccountId) : Operation Unit
  | removeSubgroup (group included : GroupUuid) (removedBy : AccountId) : Operation Unit
  | applyAccess (project : String) (account : AccountId) (update : AccessUpdate) :
      Operation AccessConfig

namespace Operation

/-- What an operation does when the clock shows `now`. -/
def program (now : Instant) {α : Type} : Operation α → StoreProgram α
  | createAccount fullName email username => Store.createAccount fullName email username now
  | createGroup uuid name description owner creator createdOn =>
    Store.createGroup uuid name description owner creator createdOn now
  | describeExternal d => Store.describeExternal d
  | createProject name parent sections => Store.createProject name parent sections
  | grantSection project sectionName group => Store.grantSection project sectionName group
  | addMember group member addedBy => Store.addMember group member addedBy now
  | removeMember group member removedBy => Store.removeMember group member removedBy now
  | addSubgroup group included addedBy => Store.addSubgroup group included addedBy now
  | removeSubgroup group included removedBy => Store.removeSubgroup group included removedBy now
  | applyAccess project account update => Store.applyAccess project account update now

/-- What the clock shows to an operation, one reading after the other. -/
def readings (now : Instant) {α : Type} : Operation α → List Instant
  | createGroup _ _ _ _ _ createdOn => [createdOn, now]
  | _ => [now]

theorem now_mem_readings (now : Instant) {α : Type} (operation : Operation α) :
    now ∈ operation.readings now := by
  cases operation <;> simp [readings]

/-- The database after an operation, which may have failed. -/
def after {α : Type} (operation : Operation α) (now : Instant) (db : Database) : Database :=
  ((operation.program now).run db).2

/-- Whether a statement is one by which an operation changes the database. -/
def writes {α β : Type} : Operation α → Statement β → Bool
  | createAccount _ _ _, .insertAccount _ _ _ _ => true
  | createGroup _ _ _ _ _ _, .insertGroup _ _ _ _ _ => true
  | createGroup _ _ _ _ _ _, .beginMembership _ _ _ _ => true
  | describeExternal _, .putDescription _ => true
  | createProject _ _ _, .insertProject _ _ _ _ => true
  | grantSection _ _ _, .insertGrant _ _ _ => true
  | addMember _ _ _, .beginMembership _ _ _ _ => true
  | removeMember _ _ _, .endMembership _ _ _ _ => true
  | addSubgroup _ _ _, .beginInclusion _ _ _ _ => true
  | removeSubgroup _ _ _, .endInclusion _ _ _ _ => true
  | applyAccess _ _ _, .swapSections _ => true
  | _, _ => false

end Operation

/-! ## What operations ask -/

namespace Store

theorem asks_project (name : String) : (project name).Asks fun q => q.isRead = true := by
  refine Program.asks_bind (Program.asks_query rfl) fun found => ?_
  cases found with
  | none => trivial
  | some p => exact Program.asks_bind (Program.asks_ofExcept _) fun _ => trivial

variable {P : {β : Type} → Statement β → Prop}
  (hread : ∀ {β : Type} (q : Statement β), q.isRead = true → P q)

include hread

theorem asks_addMember (group : GroupUuid) (member addedBy : AccountId) (now : Instant)
    (hwrite : P (.beginMembership group member addedBy now)) :
    (addMember group member addedBy now).Asks P := by
  refine Program.asks_bind ((asks_ask _).mono hread) fun _ => ?_
  refine Program.asks_bind (Program.asks_query (hread _ rfl)) fun found => ?_
  cases found with
  | false => trivial
  | true => exact Program.asks_bind (Program.asks_query hwrite) fun _ => trivial

theorem asks_removeMember (group : GroupUuid) (member removedBy : AccountId) (now : Instant)
    (hwrite : P (.endMembership group member removedBy now)) :
    (removeMember group member removedBy now).Asks P := by
  refine Program.asks_bind ((asks_ask _).mono hread) fun _ => ?_
  refine Program.asks_bind (Program.asks_query hwrite) fun removed => ?_
  cases removed <;> trivial

theorem asks_addSubgroup (group included : GroupUuid) (addedBy : AccountId) (now : Instant)
    (hwrite : P (.beginInclusion group included addedBy now)) :
    (addSubgroup group included addedBy now).Asks P := by
  refine Program.asks_bind ((asks_ask _).mono hread) fun _ => ?_
  refine Program.asks_bind (Program.asks_query (hread _ rfl)) fun d => ?_
  cases d with
  | none => trivial
  | some d => exact Program.asks_bind (Program.asks_query hwrite) fun _ => trivial

theorem asks_removeSubgroup (group included : GroupUuid) (removedBy : AccountId) (now : Instant)
    (hwrite : P (.endInclusion group included removedBy now)) :
    (removeSubgroup group included removedBy now).Asks P := by
  refine Program.asks_bind ((asks_ask _).mono hread) fun _ => ?_
  refine Program.asks_bind (Program.asks_query hwrite) fun removed => ?_
  cases removed <;> trivial

theorem asks_applyAccess (name : String) (account : AccountId) (update : AccessUpdate)
    (now : Instant) (hwrite : ∀ swap, P (.swapSections swap)) :
    (applyAccess name account update now).Asks P := by
  have hproject := (asks_project name).mono hread
  refine Program.asks_bind hproject fun loaded => ?_
  cases loaded with
  | none => trivial
  | some stored =>
    dsimp only
    split
    · trivial
    refine Program.asks_bind (Program.asks_ofExcept _) fun _ => ?_
    refine Program.asks_bind (Program.asks_query (hread _ rfl)) fun owned => ?_
    split
    · trivial
    refine Program.asks_bind (Program.asks_query (hread _ rfl)) fun known => ?_
    split
    · trivial
    refine Program.asks_bind (Program.asks_query (hwrite _)) fun swapped => ?_
    cases swapped with
    | false => exact Program.asks_bind hproject fun _ => trivial
    | true => trivial

end Store

/-- An operation reads, or executes a statement that is there for it. -/
theorem Operation.asks_program {α : Type} (operation : Operation α) (now : Instant) :
    (operation.program now).Asks fun q => q.isRead = true ∨ operation.writes q = true := by
  cases operation with
  | createAccount => exact Program.asks_bind (Program.asks_query (.inr rfl)) fun _ => trivial
  | createGroup uuid name description owner creator createdOn =>
    refine Program.asks_bind (Program.asks_query (.inr rfl)) fun _ => ?_
    exact Program.asks_bind (Store.asks_addMember (fun _ => .inl) _ _ _ _ (.inr rfl))
      fun _ => trivial
  | describeExternal => exact Program.asks_bind (Program.asks_query (.inr rfl)) fun _ => trivial
  | createProject =>
    refine Program.asks_bind (Program.asks_ofExcept _) fun _ => ?_
    exact Program.asks_bind (Program.asks_query (.inr rfl)) fun _ => trivial
  | grantSection => exact Program.asks_query (.inr rfl)
  | addMember => exact Store.asks_addMember (fun _ => .inl) _ _ _ _ (.inr rfl)
  | removeMember => exact Store.asks_removeMember (fun _ => .inl) _ _ _ _ (.inr rfl)
  | addSubgroup => exact Store.asks_addSubgroup (fun _ => .inl) _ _ _ _ (.inr rfl)
  | removeSubgroup => exact Store.asks_removeSubgroup (fun _ => .inl) _ _ _ _ (.inr rfl)
  | applyAccess => exact Store.asks_applyAccess (fun _ => .inl) _ _ _ _ fun _ => .inr rfl

/-- What relates each statement that an operation may write by relates the operation as a whole. -/
theorem Operation.rel_after {R : Database → Database → Prop} (hrefl : ∀ db, R db db)
    (htrans : ∀ {a b c : Database}, R a b → R b c → R a c) {α : Type} {operation : Operation α}
    (hwrites : ∀ {β : Type} (q : Statement β) (db : Database), operation.writes q = true →
      R db (db.perform q).2) (now : Instant) (db : Database) : R db (operation.after now db) := by
  have hsafe : Safe (R db) (fun _ => True) (operation.program now) := by
    refine Safe.of_asks ((operation.asks_program now).mono fun q hq db' hdb' => ?_)
    rcases hq with hread | hwrite
    · rwa [Database.perform_of_isRead hread]
    · exact htrans hdb' (hwrites q db' hwrite)
  exact (hsafe.run (hrefl db)).1

/-- The databases that operations make of the empty one. -/
inductive Reachable : Database → Prop
  | empty : Reachable .empty
  | step {db : Database} {α : Type} (operation : Operation α) (now : Instant)
      (h : Reachable db) : Reachable (operation.after now db)

/-- What an operation makes of a reachable database is reachable. -/
theorem Reachable.of_run {db db' : Database} (h : Reachable db) {α : Type}
    (operation : Operation α) (now : Instant) {outcome : Except Failure α}
    (hrun : (operation.program now).run db = (outcome, db')) : Reachable db' := by
  have hafter := h.step operation now
  rwa [Operation.after, hrun] at hafter

/-- All operations keep an invariant with each of their statements. -/
def Kept (inv : Database → Prop) : Prop :=
  ∀ ⦃α : Type⦄ (operation : Operation α) (now : Instant),
    Safe inv (fun _ => True) (operation.program now)

/-- What holds of every statement is kept by all operations. -/
theorem Kept.of_perform {inv : Database → Prop}
    (h : ∀ {β : Type} (q : Statement β) (db : Database), inv db → inv (db.perform q).2) :
    Kept inv := by
  intro α operation now
  generalize operation.program now = p
  refine Safe.of_asks ?_
  induction p with
  | done a => trivial
  | fail e => trivial
  | ask q next ih => exact ⟨h q, ih⟩

theorem Kept.after {inv : Database → Prop} (h : Kept inv) {α : Type} (operation : Operation α)
    (now : Instant) {db : Database} (hdb : inv db) : inv (operation.after now db) :=
  ((h operation now).run hdb).1

/-- A kept invariant of the empty database holds of all reachable ones. -/
theorem Reachable.keeps {inv : Database → Prop} (hempty : inv .empty) (h : Kept inv)
    {db : Database} (hdb : Reachable db) : inv db := by
  induction hdb with
  | empty => exact hempty
  | step operation now _ ih => exact h.after operation now ih

end AccessLedger
