import AccessLedger.Audit.Record
import AccessLedger.Failure
import AccessLedger.Program

/-!
# Questions to a backend

`Backend` lists what may be asked of whoever keeps groups and accounts.
Accounts are asked for in one batch, and the answer tells for each number
what is known of the account.
-/

namespace AccessLedger

/-- What a backend knows of accounts. -/
abbrev AccountBook := AccountId → Option AccountInfo

/-- A question to a backend, with the type of its answer. -/
inductive Backend : Type → Type where
  /-- The internal group with an identifier. -/
  | internalGroup (uuid : GroupUuid) : Backend (Option InternalGroup)
  /-- The description of the group with an identifier, internal or not. -/
  | groupDescription (uuid : GroupUuid) : Backend (Option GroupDescription)
  /-- Whether an account owns a group. -/
  | isOwner (uuid : GroupUuid) (account : AccountId) : Backend Bool
  /-- The audit records of the members of a group. -/
  | membersAudit (uuid : GroupUuid) : Backend (List MemberAuditRecord)
  /-- The audit records of the groups included in a group. -/
  | subgroupsAudit (uuid : GroupUuid) : Backend (List SubgroupAuditRecord)
  /-- What is known of some accounts. -/
  | accounts (ids : List AccountId) : Backend AccountBook

/-- A computation that asks a backend. -/
abbrev BackendProgram := Program Backend Failure

end AccessLedger
