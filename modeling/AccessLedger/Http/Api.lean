import AccessLedger.Access.Difference
import AccessLedger.Audit.Log
import AccessLedger.Http.MediaType
import AccessLedger.Http.Reply
import AccessLedger.Http.Route
import AccessLedger.Store.Groups
import AccessLedger.Store.Perform
import AccessLedger.Store.Projects

/-!
# The API

`plan` decides what a request asks for, or why it is refused, before the store
is looked at: the path, the method, the user, the parameters and the body are
checked in this order.  `Task.program` does what was asked for, and `respond`
turns its outcome into a reply.
-/

namespace AccessLedger.Http

/-- A request to the API. -/
structure Request where
  method : String
  /-- A path, perhaps with a query, or a whole address. -/
  target : List Char
  contentType : Option String := none
  body : String := ""

/-- The body of a commit. -/
structure CommitBody where
  revision : String
  message : Option String
  sections : List AccessSection
  deriving DecidableEq

namespace CommitBody

def fields : Fields (String × Option String × List AccessSection × Unit) :=
  .cons (.required "revision" .string) <|
  .cons (.withDefault "message" Codec.string.option none) <|
  .cons (.required "sections" AccessSection.codec.list) .nil

def codec : Codec CommitBody :=
  fields.record.imap (fun (revision, message, sections, _) => ⟨revision, message, sections⟩)
    fun b => (b.revision, b.message, b.sections, ())

/-- The message, unless it is blank. -/
def keptMessage (b : CommitBody) : Option String :=
  b.message.filter fun m => !Text.allBlank m.toList

/-- What the body asks to store. -/
def update (b : CommitBody) : AccessUpdate := ⟨b.revision, b.keptMessage, b.sections⟩

end CommitBody

/-- What a request asks for. -/
inductive Task where
  | readLog (uuid : GroupUuid)
  | addMember (uuid : GroupUuid) (account : AccountId)
  | removeMember (uuid : GroupUuid) (account : AccountId)
  | addSubgroup (uuid included : GroupUuid)
  | removeSubgroup (uuid included : GroupUuid)
  | readAccess (project : String)
  | commit (project : String) (body : CommitBody)
  deriving DecidableEq

/-- The body of a commit, or why it is refused. -/
def commitBody (r : Request) : Except Reply CommitBody :=
  if !(r.contentType.any fun t => isJsonType t.toList) then .error { status := 415 }
  else match CommitBody.codec.read r.body with
    | .ok b => .ok b
    | .error .malformed => .error { status := 400 }
    | .error .mismatch => .error { status := 422 }

/-- The task of an action; a commit has a body. -/
def Action.task (r : Request) : Action String AccountId → Except Reply Task
  | .readLog uuid => .ok (.readLog ⟨uuid⟩)
  | .addMember uuid account => .ok (.addMember ⟨uuid⟩ account)
  | .removeMember uuid account => .ok (.removeMember ⟨uuid⟩ account)
  | .addSubgroup uuid included => .ok (.addSubgroup ⟨uuid⟩ ⟨included⟩)
  | .removeSubgroup uuid included => .ok (.removeSubgroup ⟨uuid⟩ ⟨included⟩)
  | .readAccess project => .ok (.readAccess project)
  | .commit project => (commitBody r).map (.commit project)

/-- What a request asks for, and for whom, or why it is refused. -/
def plan (user : Option AccountId) (r : Request) : Except Reply (AccountId × Task) :=
  match Route.ofPath? (segments (pathOf r.target)) with
  | none => .error { status := 404 }
  | some route => match route.action? r.method with
    | none => .error { status := 405 }
    | some raw => match user with
      | none => .error ApiError.unauthorized.reply
      | some caller => match raw.decode? with
        | none => .error { status := 400 }
        | some action => (action.task r).map (caller, ·)

/-- The gate before every change of a group: it is internal and the caller owns it. -/
def requireOwner (uuid : GroupUuid) (caller : AccountId) : StoreProgram Unit :=
  Store.ask do
    let _ ← requireInternal uuid
    requireOwnership uuid caller

/-- The body of the reply to a commit. -/
def commitReply (requested : List AccessSection) (stored : AccessConfig) : Json :=
  .ofMembers
    [("access", AccessConfig.codec.encode stored),
     ("unapplied_sections", Codec.nameSet.encode (sectionDifference requested stored.sections))]

/-- The reply to a change that has been made. -/
def noContent : Reply := { status := 204 }

/-- Do what a request asks for. -/
def Task.program (caller : AccountId) (now : Instant) : Task → StoreProgram Reply
  | .readLog uuid => do
    let events ← Store.ask (auditLog uuid caller)
    return .json 200 (AuditEvent.codec.list.encode events)
  | .addMember uuid account => do
    requireOwner uuid caller
    Store.addMember uuid account caller now
    return noContent
  | .removeMember uuid account => do
    requireOwner uuid caller
    Store.removeMember uuid account caller now
    return noContent
  | .addSubgroup uuid included => do
    requireOwner uuid caller
    Store.addSubgroup uuid included caller now
    return noContent
  | .removeSubgroup uuid included => do
    requireOwner uuid caller
    Store.removeSubgroup uuid included caller now
    return noContent
  | .readAccess project => do
    match ← Store.access project caller with
    | some config => return .json 200 (AccessConfig.codec.encode config)
    | none => return (ApiError.notFound ("project " ++ project ++ " not found")).reply
  | .commit project body => do
    let stored ← Store.applyAccess project caller body.update now
    return .json 200 (commitReply body.sections stored)

/-- The reply of the API to a request, and the database after it. -/
def respond (user : Option AccountId) (r : Request) (now : Instant) (db : Database) :
    Reply × Database :=
  let (reply, db) := match plan user r with
    | .error reply => (reply, db)
    | .ok (caller, task) =>
      match (task.program caller now).run db with
      | (.ok reply, db) => (reply, db)
      | (.error failure, db) => ((ApiError.ofFailure failure).reply, db)
  (if r.method = "HEAD" then reply.withoutBody else reply, db)

end AccessLedger.Http
