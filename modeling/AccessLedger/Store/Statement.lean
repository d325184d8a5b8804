import AccessLedger.Audit.Record
import AccessLedger.Failure
import AccessLedger.NameSet
import AccessLedger.Program

/-!
# Statements

A statement is one visit to the database: nobody else sees it half done.  The
operations of the store are programs of statements, so between two statements
of one operation those of another may run.
-/

namespace AccessLedger

/-- An internal group as it is stored. -/
structure StoredGroup where
  uuid : GroupUuid
  id : UInt32
  name : String
  description : Option String
  owner : GroupUuid
  visibleToAll : Bool
  createdOn : String
  deriving DecidableEq, Repr

/-- The audit record of a member as it is stored. -/
structure StoredMemberAudit where
  group : GroupUuid
  account : AccountId
  addedBy : AccountId
  addedOn : String
  removedBy : Option AccountId
  removedOn : Option String
  deriving DecidableEq, Repr

/-- The audit record of an included group as it is stored. -/
structure StoredIncludeAudit where
  group : GroupUuid
  included : GroupUuid
  addedBy : AccountId
  addedOn : String
  removedBy : Option AccountId
  removedOn : Option String
  deriving DecidableEq, Repr

/-- The name of a section and its permissions as JSON text. -/
structure StoredSection where
  name : String
  permissions : String
  deriving DecidableEq, Repr

/-- A project as it is stored, with its sections in order. -/
structure StoredProject where
  parent : Option String
  revision : String
  sections : List StoredSection
  deriving DecidableEq, Repr

/-- New sections of a project, to be stored if its revision is still `old`. -/
structure SectionSwap where
  project : String
  old : String
  new : String
  sections : List StoredSection
  message : Option String
  account : AccountId
  now : Instant
  deriving DecidableEq

/-- One visit to the database, with the type of its answer. -/
inductive Statement : Type → Type where
  | insertAccount (fullName email username : Option String) (now : Instant) : Statement AccountId
  | insertGroup (uuid : GroupUuid) (name : String) (description : Option String)
      (owner : GroupUuid) (now : Instant) : Statement UInt32
  /-- Put a description in the place of the one with its identifier. -/
  | putDescription (d : GroupDescription) : Statement Unit
  | insertProject (name : String) (parent : Option String) (revision : String)
      (sections : List StoredSection) : Statement Unit
  | insertGrant (project sectionName : String) (group : GroupUuid) : Statement Unit
  | group (uuid : GroupUuid) : Statement (Option StoredGroup)
  | description (uuid : GroupUuid) : Statement (Option GroupDescription)
  | isOwner (uuid : GroupUuid) (account : AccountId) : Statement Bool
  | memberAudits (group : GroupUuid) : Statement (List StoredMemberAudit)
  | includeAudits (group : GroupUuid) : Statement (List StoredIncludeAudit)
  | accountExists (id : AccountId) : Statement Bool
  | accounts (ids : List AccountId) : Statement (List AccountInfo)
  /-- The groups among these that are known. -/
  | knownGroups (uuids : List GroupUuid) : Statement (List GroupUuid)
  | project (name : String) : Statement (Option StoredProject)
  | ownedSections (project : String) (account : AccountId) : Statement NameSet
  /-- Make an account a member and begin a period, unless it is one; whether it was not. -/
  | beginMembership (group : GroupUuid) (account addedBy : AccountId) (now : Instant) :
      Statement Bool
  /-- End a membership and its periods; whether there was one. -/
  | endMembership (group : GroupUuid) (account removedBy : AccountId) (now : Instant) :
      Statement Bool
  /-- Include a group and begin a period, unless it is included; whether it was not. -/
  | beginInclusion (group included : GroupUuid) (addedBy : AccountId) (now : Instant) :
      Statement Bool
  /-- End an inclusion and its periods; whether there was one. -/
  | endInclusion (group included : GroupUuid) (removedBy : AccountId) (now : Instant) :
      Statement Bool
  /-- Store new sections; whether the revision was still the old one. -/
  | swapSections (swap : SectionSwap) : Statement Bool

/-- An operation of the store. -/
abbrev StoreProgram := Program Statement Failure

end AccessLedger
