import AccessLedger.Audit.Record
import AccessLedger.Store.Scalar

/-!
# The database

The database is a record of tables, and a table is a list of rows, the oldest
first.  Timestamps and permissions are kept as texts, and a column of integers
may hold any scalar: what a row holds need not make sense, and reading it may
fail.  The key of a group, of a description or of a project may be missing; a
row without its key is never found by it.
-/

namespace AccessLedger

structure AccountRow where
  id : Int
  fullName : Option String
  email : Option String
  username : Option String
  registeredOn : String
  deriving DecidableEq, Repr

/-- What is shown of an account; `none` if its number is out of range. -/
def AccountRow.info? (r : AccountRow) : Option AccountInfo :=
  (AccountId.ofInt? r.id).map fun id => ⟨id, r.fullName, r.email, r.username⟩

structure GroupRow where
  uuid : Option GroupUuid
  id : Scalar
  name : String
  description : Option String
  owner : GroupUuid
  visibleToAll : Scalar
  createdOn : String
  deriving DecidableEq, Repr

/-- The description of a group of another system. -/
structure ExternalRow where
  uuid : Option GroupUuid
  name : String
  url : Option String
  deriving DecidableEq, Repr

/-- An account is a member of a group. -/
structure MemberRow where
  group : GroupUuid
  account : Scalar
  deriving DecidableEq, Repr

/-- One period of a membership; it is over once `removedOn` is there. -/
structure MemberAuditRow where
  group : GroupUuid
  account : Scalar
  addedBy : Scalar
  addedOn : String
  removedBy : Option Scalar
  removedOn : Option String
  deriving DecidableEq, Repr

/-- A group is included in another. -/
structure IncludeRow where
  group : GroupUuid
  included : GroupUuid
  deriving DecidableEq, Repr

/-- One period of an inclusion; it is over once `removedOn` is there. -/
structure IncludeAuditRow where
  group : GroupUuid
  included : GroupUuid
  addedBy : Scalar
  addedOn : String
  removedBy : Option Scalar
  removedOn : Option String
  deriving DecidableEq, Repr

structure ProjectRow where
  name : Option String
  parent : Option String
  revision : String
  deriving DecidableEq, Repr

/-- A section of a project, with its permissions as JSON text. -/
structure SectionRow where
  project : String
  position : Scalar
  name : String
  permissions : String
  deriving DecidableEq, Repr

/-- The members of a group own a section of a project. -/
structure GrantRow where
  project : String
  sectionName : String
  group : GroupUuid
  deriving DecidableEq, Repr

/-- A revision of a project that was stored. -/
structure HistoryRow where
  project : String
  revision : String
  message : Option String
  account : Scalar
  committedOn : String
  deriving DecidableEq, Repr

/-- End the period of an audit row if it is one of these and has not ended. -/
def MemberAuditRow.close (group : GroupUuid) (account removedBy : AccountId) (now : Instant)
    (r : MemberAuditRow) : MemberAuditRow :=
  if r.group = group ∧ r.account = account.scalar ∧ r.removedOn = none then
    { r with removedBy := some removedBy.scalar, removedOn := some now.column }
  else r

/-- End the period of an audit row if it is one of these and has not ended. -/
def IncludeAuditRow.close (group included : GroupUuid) (removedBy : AccountId) (now : Instant)
    (r : IncludeAuditRow) : IncludeAuditRow :=
  if r.group = group ∧ r.included = included ∧ r.removedOn = none then
    { r with removedBy := some removedBy.scalar, removedOn := some now.column }
  else r

/-- All tables. -/
structure Database where
  accounts : List AccountRow := []
  groups : List GroupRow := []
  externals : List ExternalRow := []
  members : List MemberRow := []
  memberAudits : List MemberAuditRow := []
  includes : List IncludeRow := []
  includeAudits : List IncludeAuditRow := []
  projects : List ProjectRow := []
  sections : List SectionRow := []
  grants : List GrantRow := []
  history : List HistoryRow := []
  /-- Whether another writer comes first whenever the revision of a project is to be changed. -/
  contended : Bool := false
  deriving DecidableEq, Repr

namespace Database

/-- The database without rows. -/
def empty : Database := {}

/-- The internal group with this identifier. -/
def group? (db : Database) (uuid : GroupUuid) : Option GroupRow :=
  db.groups.find? (·.uuid = some uuid)

/-- The description of the group with this identifier; an internal group has no address. -/
def description? (db : Database) (uuid : GroupUuid) : Option GroupDescription :=
  match db.group? uuid with
  | some g => some ⟨uuid, g.name, none⟩
  | none => (db.externals.find? (·.uuid = some uuid)).map fun r => ⟨uuid, r.name, r.url⟩

/-- The project with this name. -/
def project? (db : Database) (name : String) : Option ProjectRow :=
  db.projects.find? (·.name = some name)

/-- Whether an account is a direct member of a group. -/
def isMember (db : Database) (group : GroupUuid) (account : AccountId) : Bool :=
  (⟨group, account.scalar⟩ : MemberRow) ∈ db.members

/-- Whether a group is directly included in another. -/
def isIncluded (db : Database) (group included : GroupUuid) : Bool :=
  (⟨group, included⟩ : IncludeRow) ∈ db.includes

/-- Whether an account owns a group: it is a member of the group that is its owner. -/
def isOwner (db : Database) (uuid : GroupUuid) (account : AccountId) : Bool :=
  (db.group? uuid).any fun g => db.isMember g.owner account

/-- The names of the sections of a project that are granted to a group of the account. -/
def ownedSections (db : Database) (project : String) (account : AccountId) : NameSet :=
  NameSet.ofList ((db.grants.filter fun g =>
    g.project = project && db.isMember g.group account).map GrantRow.sectionName)

/-- The number after the highest one, or `1` if there is none. -/
def nextNumber (numbers : List Int) : Int :=
  match numbers with
  | [] => 1
  | n :: r => r.foldl max n + 1

/-- The number of the next group: after the greatest one, or `1` if there is none. -/
def nextGroupId? (db : Database) : Option UInt32 :=
  match db.groups.map GroupRow.id with
  | [] => some 1
  | n :: r => (r.foldl (fun m k => if k.isNotAfter m then m else k) n).nextWord?

end Database

end AccessLedger
