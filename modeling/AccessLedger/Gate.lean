import AccessLedger.Backend

/-!
# Who may act on a group

Members are managed here for internal groups only, and only owners of a group
may act on it.  Every way to a group leads through `requireInternal`; the
outer ones also through `requireOwnership`.
-/

namespace AccessLedger

/-- The internal group with this identifier; other groups and unknown ones are refused. -/
def requireInternal (uuid : GroupUuid) : BackendProgram InternalGroup := do
  match ← Program.query (Backend.internalGroup uuid) with
  | some g => return g
  | none =>
    match ← Program.query (Backend.groupDescription uuid) with
    | some _ => .fail (.unsupportedGroup uuid)
    | none => .fail (.groupNotFound uuid)

/-- Refuse a caller who does not own the group. -/
def requireOwnership (uuid : GroupUuid) (caller : AccountId) : BackendProgram Unit := do
  if ← Program.query (Backend.isOwner uuid caller) then return () else .fail .notOwner

end AccessLedger
