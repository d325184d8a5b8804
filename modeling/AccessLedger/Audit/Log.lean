import AccessLedger.Audit.Event
import AccessLedger.Audit.Loader
import AccessLedger.Gate

/-!
# The audit log of a group

`auditLog` turns the audit records of a group into one list of events, newest
first.  Only owners of an internal group may see it, and nothing is read
before that is settled.  Every group is looked up once, all accounts in one
batch.  Events of one instant stay in the order in which the records give
them: members before included groups, and the begin of a period before its end.
-/

namespace AccessLedger

/-- Whom a coming event is about. -/
inductive PendingSubject where
  | account (slot : Slot)
  | group (info : GroupInfo)

/-- An event whose accounts have still to be looked up. -/
structure PendingEvent where
  kind : AuditEventKind
  actor : Slot
  subject : PendingSubject
  date : Instant

/-- The event, once its accounts have been looked up. -/
def PendingEvent.resolve (l : IdentityLoader) (e : PendingEvent) : AuditEvent where
  kind := e.kind
  actor := l.resolve e.actor
  subject := match e.subject with
    | .account slot => .account (l.resolve slot)
    | .group info => .group info
  date := e.date

namespace IdentityLoader

/-- The events of a period, given its subject and what its begin and end are called. -/
def periodEvents (l : IdentityLoader) (subject : PendingSubject) (begins ends : AuditEventKind)
    (addedBy : AccountId) (addedOn : Instant) (removal : Option Removal) :
    List PendingEvent × IdentityLoader :=
  let (adder, l) := l.register addedBy
  let addition : PendingEvent := ⟨begins, adder, subject, addedOn⟩
  match removal with
  | none => ([addition], l)
  | some removal =>
    let (remover, l) := l.register removal.removedBy
    ([addition, ⟨ends, remover, subject, removal.removedOn⟩], l)

/-- The events of a membership. -/
def memberEvents (l : IdentityLoader) (r : MemberAuditRecord) :
    List PendingEvent × IdentityLoader :=
  let (member, l) := l.register r.account
  l.periodEvents (.account member) .addUser .removeUser r.addedBy r.addedOn r.removal

/-- The events of an inclusion, given what is shown of the included group. -/
def subgroupEvents (l : IdentityLoader) (info : GroupInfo) (r : SubgroupAuditRecord) :
    List PendingEvent × IdentityLoader :=
  l.periodEvents (.group info) .addGroup .removeGroup r.addedBy r.key.addedOn r.removal

/-- The events of several memberships, in order. -/
def allMemberEvents (l : IdentityLoader) : List MemberAuditRecord →
    List PendingEvent × IdentityLoader
  | [] => ([], l)
  | r :: rs =>
    let (events, l) := l.memberEvents r
    let (more, l) := l.allMemberEvents rs
    (events ++ more, l)

end IdentityLoader

/-- What has been looked up of included groups and of the names of their owners. -/
structure GroupMemo where
  groups : List (GroupUuid × GroupInfo)
  ownerNames : List (GroupUuid × Option String)

/-- Nothing has been looked up. -/
def GroupMemo.empty : GroupMemo := ⟨[], []⟩

/-- The name of the group that owns `g`, looked up unless it is known already. -/
def ownerName (memo : GroupMemo) (g : InternalGroup) :
    BackendProgram (Option String × GroupMemo) :=
  if g.owner = g.uuid then .done (some g.name, memo)
  else match memo.ownerNames.lookup g.owner with
    | some name => .done (name, memo)
    | none => do
      let d ← Program.query (Backend.groupDescription g.owner)
      let name := d.map GroupDescription.name
      return (name, { memo with ownerNames := (g.owner, name) :: memo.ownerNames })

/--
What is shown of an included group: all of it if it is internal, its name if it
is described, else its identifier.
-/
def describeGroup (memo : GroupMemo) (uuid : GroupUuid) :
    BackendProgram (GroupInfo × GroupMemo) := do
  match ← Program.query (Backend.internalGroup uuid) with
  | some g =>
    let (owner, memo) ← ownerName memo g
    return (.ofInternal g owner, memo)
  | none =>
    match ← Program.query (Backend.groupDescription uuid) with
    | some d => return (.ofDescription d, memo)
    | none => return (.stub uuid none, memo)

/-- `describeGroup`, unless the group has been described before. -/
def describeOnce (memo : GroupMemo) (uuid : GroupUuid) :
    BackendProgram (GroupInfo × GroupMemo) :=
  match memo.groups.lookup uuid with
  | some info => .done (info, memo)
  | none => do
    let (info, memo) ← describeGroup memo uuid
    return (info, { memo with groups := (uuid, info) :: memo.groups })

/-- The events of several inclusions, in order. -/
def allSubgroupEvents (l : IdentityLoader) (memo : GroupMemo) : List SubgroupAuditRecord →
    BackendProgram (List PendingEvent × IdentityLoader)
  | [] => .done ([], l)
  | r :: rs => do
    let (info, memo) ← describeOnce memo r.key.included
    let (events, l) := l.subgroupEvents info r
    let (more, l) ← allSubgroupEvents l memo rs
    return (events ++ more, l)

/-- Whether an event may stand before another: it is not older. -/
def AuditEvent.isNotOlder (a b : AuditEvent) : Bool := decide (b.date ≤ a.date)

/-- The audit log of a group, newest event first, for an owner of the group. -/
def auditLog (group : GroupUuid) (caller : AccountId) : BackendProgram (List AuditEvent) := do
  let internal ← requireInternal group
  requireOwnership internal.uuid caller
  let members ← Program.query (Backend.membersAudit internal.uuid)
  let subgroups ← Program.query (Backend.subgroupsAudit internal.uuid)
  let (memberEvents, loader) := IdentityLoader.empty.allMemberEvents members
  let (subgroupEvents, loader) ← allSubgroupEvents loader .empty subgroups
  let (_, loader) ← IdentityLoader.fill.keep loader
  let events := (memberEvents ++ subgroupEvents).map (PendingEvent.resolve loader)
  return events.mergeSort AuditEvent.isNotOlder

end AccessLedger
