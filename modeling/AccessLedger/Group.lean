import AccessLedger.Account
import AccessLedger.Calendar.Timestamp
import AccessLedger.Text.Percent

/-!
# Groups

An internal group has its members managed here; of any group, internal or
not, there may be a description.  `GroupInfo` is what is shown of a group: all
of an internal group, the name of a described one, the identifier alone of an
unknown one.  Groups are shown by their percent-escaped identifiers.
-/

namespace AccessLedger

/-- The identifier of a group: any text. -/
structure GroupUuid where
  text : String
  deriving DecidableEq, Repr

namespace GroupUuid

/-- The form of the identifier that may stand in a path. -/
def displayId (u : GroupUuid) : String := Text.Percent.encode u.text

def codec : Codec GroupUuid := Codec.string.imap GroupUuid.mk GroupUuid.text

end GroupUuid

/-- Instants in JSON: written in the usual form, read in the relaxed one. -/
def Instant.codec : Codec Instant := .spelled Instant.json Timestamp.relaxed?

/-- A group whose members are managed here.  Members of the group `owner` own it. -/
structure InternalGroup where
  uuid : GroupUuid
  id : UInt32
  name : String
  description : Option String
  owner : GroupUuid
  visibleToAll : Bool
  createdOn : Instant
  deriving DecidableEq

namespace InternalGroup

def fields : Fields (GroupUuid × UInt32 × String × Option String × GroupUuid × Bool × Instant ×
    Unit) :=
  .cons (.required "uuid" GroupUuid.codec) <|
  .cons (.required "id" .uint32) <|
  .cons (.required "name" .string) <|
  .cons (.nullable "description" .string) <|
  .cons (.required "owner_uuid" GroupUuid.codec) <|
  .cons (.required "visible_to_all" .bool) <|
  .cons (.required "created_on" Instant.codec) .nil

def codec : Codec InternalGroup :=
  fields.record.imap
    (fun (uuid, id, name, description, owner, visible, created, _) =>
      ⟨uuid, id, name, description, owner, visible, created⟩)
    fun g => (g.uuid, g.id, g.name, g.description, g.owner, g.visibleToAll, g.createdOn, ())

end InternalGroup

/-- What is known of any group. -/
structure GroupDescription where
  uuid : GroupUuid
  name : String
  url : Option String
  deriving DecidableEq, Repr

namespace GroupDescription

def fields : Fields (GroupUuid × String × Option String × Unit) :=
  .cons (.required "uuid" GroupUuid.codec) <|
  .cons (.required "name" .string) <|
  .cons (.nullable "url" .string) .nil

def codec : Codec GroupDescription :=
  fields.record.imap (fun (uuid, name, url, _) => ⟨uuid, name, url⟩)
    fun d => (d.uuid, d.name, d.url, ())

end GroupDescription

/-- What is shown of a group. -/
structure GroupInfo where
  id : String
  name : Option String := none
  groupId : Option UInt32 := none
  description : Option String := none
  /-- The name of the owning group. -/
  owner : Option String := none
  ownerId : Option String := none
  visibleToAll : Option Bool := none
  createdOn : Option Instant := none
  deriving DecidableEq

namespace GroupInfo

/-- A group of which at most the name is known. -/
def stub (uuid : GroupUuid) (name : Option String) : GroupInfo := { id := uuid.displayId, name }

/-- All of an internal group, with the name of its owner if that is known. -/
def ofInternal (g : InternalGroup) (owner : Option String) : GroupInfo where
  id := g.uuid.displayId
  name := some g.name
  groupId := some g.id
  description := g.description
  owner
  ownerId := some g.owner.displayId
  visibleToAll := some g.visibleToAll
  createdOn := some g.createdOn

/-- A described group: its identifier and name. -/
def ofDescription (d : GroupDescription) : GroupInfo := stub d.uuid (some d.name)

def fields : Fields (String × Option String × Option UInt32 × Option String × Option String ×
    Option String × Option Bool × Option Instant × Unit) :=
  .cons (.required "id" .string) <|
  .cons (.optional "name" .string) <|
  .cons (.optional "group_id" .uint32) <|
  .cons (.optional "description" .string) <|
  .cons (.optional "owner" .string) <|
  .cons (.optional "owner_id" .string) <|
  .cons (.optional "visible_to_all" .bool) <|
  .cons (.optional "created_on" Instant.codec) .nil

def codec : Codec GroupInfo :=
  fields.record.imap
    (fun (id, name, groupId, description, owner, ownerId, visible, created, _) =>
      ⟨id, name, groupId, description, owner, ownerId, visible, created⟩)
    fun g => (g.id, g.name, g.groupId, g.description, g.owner, g.ownerId, g.visibleToAll,
      g.createdOn, ())

end GroupInfo

end AccessLedger
