import AccessLedger.Audit.Log
import AccessLedger.Store.Accounts

/-!
# Groups in the store

The store answers the questions of `Backend` (`Store.answer`), so that
whatever is computed by asking a backend can be computed on it
(`Store.ask`).  Members and included groups can be changed here for internal
groups only; every change begins or ends an audit record.
-/

namespace AccessLedger

/-- The instant that a column holds. -/
def decodeTimestamp (s : String) : Except Failure Instant :=
  match Timestamp.strict? s with
  | some t => .ok t
  | none => .error (.store .timestamp)

/-- The removal that two columns hold; both are needed. -/
def decodeRemoval : Option AccountId → Option String → Except Failure (Option Removal)
  | some removedBy, some on => (decodeTimestamp on).map fun removedOn => some ⟨removedBy, removedOn⟩
  | _, _ => .ok none

/-- The group that is stored so. -/
def StoredGroup.decode (g : StoredGroup) : Except Failure InternalGroup := do
  return ⟨g.uuid, g.id, g.name, g.description, g.owner, g.visibleToAll,
    ← decodeTimestamp g.createdOn⟩

/-- The audit record that is stored so. -/
def StoredMemberAudit.decode (r : StoredMemberAudit) : Except Failure MemberAuditRecord := do
  return ⟨r.group, r.account, r.addedBy, ← decodeTimestamp r.addedOn,
    ← decodeRemoval r.removedBy r.removedOn⟩

/-- The audit record that is stored so. -/
def StoredIncludeAudit.decode (r : StoredIncludeAudit) : Except Failure SubgroupAuditRecord := do
  return ⟨⟨r.group, r.included, ← decodeTimestamp r.addedOn⟩, r.addedBy,
    ← decodeRemoval r.removedBy r.removedOn⟩

namespace Store

/-- The internal group with this identifier. -/
def internalGroup (uuid : GroupUuid) : StoreProgram (Option InternalGroup) := do
  match ← Program.query (Statement.group uuid) with
  | none => return none
  | some g => return some (← Program.ofExcept g.decode)

/-- The description of the group with this identifier. -/
def groupDescription (uuid : GroupUuid) : StoreProgram (Option GroupDescription) :=
  Program.query (Statement.description uuid)

/-- Whether an account owns a group. -/
def isOwner (uuid : GroupUuid) (account : AccountId) : StoreProgram Bool :=
  Program.query (Statement.isOwner uuid account)

/-- The audit records of the members of a group, the oldest first. -/
def membersAudit (uuid : GroupUuid) : StoreProgram (List MemberAuditRecord) := do
  let rows ← Program.query (Statement.memberAudits uuid)
  Program.ofExcept (rows.mapM StoredMemberAudit.decode)

/-- The audit records of the groups included in a group, the oldest first. -/
def subgroupsAudit (uuid : GroupUuid) : StoreProgram (List SubgroupAuditRecord) := do
  let rows ← Program.query (Statement.includeAudits uuid)
  Program.ofExcept (rows.mapM StoredIncludeAudit.decode)

/-- How the store answers a question. -/
def answer {β : Type} : Backend β → StoreProgram β
  | .internalGroup uuid => internalGroup uuid
  | .groupDescription uuid => groupDescription uuid
  | .isOwner uuid account => isOwner uuid account
  | .membersAudit uuid => membersAudit uuid
  | .subgroupsAudit uuid => subgroupsAudit uuid
  | .accounts ids => do return bookOf (← accounts ids)

/-- A computation that asks a backend, on the store. -/
def ask {α : Type} (p : BackendProgram α) : StoreProgram α := p.interpret answer

/-! ## Provisioning -/

/-- Make a group of another system known. -/
def describeExternal (d : GroupDescription) : StoreProgram GroupDescription := do
  let _ ← Program.query (Statement.putDescription d)
  return d

/-! ## Members and included groups -/

/-- Make an account a member of a group; if it is one already, nothing changes. -/
def addMember (uuid : GroupUuid) (member addedBy : AccountId) (now : Instant) :
    StoreProgram Unit := do
  let _ ← ask (requireInternal uuid)
  if !(← Program.query (Statement.accountExists member)) then
    .fail (.accountNotFound member)
  else
    let _ ← Program.query (Statement.beginMembership uuid member addedBy now)
    return ()

/-- End the membership of an account. -/
def removeMember (uuid : GroupUuid) (member removedBy : AccountId) (now : Instant) :
    StoreProgram Unit := do
  let _ ← ask (requireInternal uuid)
  if ← Program.query (Statement.endMembership uuid member removedBy now) then return ()
  else .fail (.notMember member.display uuid)

/-- Include a known group in another; if it is included already, nothing changes. -/
def addSubgroup (uuid included : GroupUuid) (addedBy : AccountId) (now : Instant) :
    StoreProgram Unit := do
  let _ ← ask (requireInternal uuid)
  if (← groupDescription included).isNone then
    .fail (.groupNotFound included)
  else
    let _ ← Program.query (Statement.beginInclusion uuid included addedBy now)
    return ()

/-- End the inclusion of a group. -/
def removeSubgroup (uuid included : GroupUuid) (removedBy : AccountId) (now : Instant) :
    StoreProgram Unit := do
  let _ ← ask (requireInternal uuid)
  if ← Program.query (Statement.endInclusion uuid included removedBy now) then return ()
  else .fail (.notMember included.text uuid)

/--
Add an internal group under a fresh identifier, with its creator as first
member.  A group without another owner owns itself.  The clock is read once for
the group and once more, later, for the membership.
-/
def createGroup (uuid : GroupUuid) (name : String) (description : Option String)
    (owner : Option GroupUuid) (creator : AccountId) (createdOn addedOn : Instant) :
    StoreProgram InternalGroup := do
  let owner := owner.getD uuid
  let id ← Program.query (Statement.insertGroup uuid name description owner createdOn)
  addMember uuid creator creator addedOn
  return ⟨uuid, id, name, description, owner, false, createdOn⟩

end Store

end AccessLedger
