import AccessLedger.Group

/-!
# Audit records

An audit record covers one period for which an account was a member of a
group, or another group was included in it: who began it and when, and, once
it is over, who ended it and when.
-/

namespace AccessLedger

/-- Who ended a membership, and when. -/
structure Removal where
  removedBy : AccountId
  removedOn : Instant
  deriving DecidableEq

namespace Removal

def fields : Fields (AccountId × Instant × Unit) :=
  .cons (.required "removed_by" AccountId.codec) <|
  .cons (.required "removed_on" Instant.codec) .nil

def codec : Codec Removal :=
  fields.record.imap (fun (by_, on, _) => ⟨by_, on⟩) fun r => (r.removedBy, r.removedOn, ())

end Removal

/-- One period for which an account was a member of a group. -/
structure MemberAuditRecord where
  group : GroupUuid
  account : AccountId
  addedBy : AccountId
  addedOn : Instant
  removal : Option Removal
  deriving DecidableEq

namespace MemberAuditRecord

/-- Whether the membership still lasts. -/
def isActive (r : MemberAuditRecord) : Bool := r.removal.isNone

def fields : Fields (GroupUuid × AccountId × AccountId × Instant × Option Removal × Unit) :=
  .cons (.required "group_uuid" GroupUuid.codec) <|
  .cons (.required "account_id" AccountId.codec) <|
  .cons (.required "added_by" AccountId.codec) <|
  .cons (.required "added_on" Instant.codec) <|
  .cons (.nullable "removal" Removal.codec) .nil

def codec : Codec MemberAuditRecord :=
  fields.record.imap
    (fun (group, account, addedBy, addedOn, removal, _) =>
      ⟨group, account, addedBy, addedOn, removal⟩)
    fun r => (r.group, r.account, r.addedBy, r.addedOn, r.removal, ())

end MemberAuditRecord

/-- What tells the periods of an inclusion apart: a group may be included again. -/
structure SubgroupAuditKey where
  group : GroupUuid
  included : GroupUuid
  addedOn : Instant
  deriving DecidableEq

namespace SubgroupAuditKey

def fields : Fields (GroupUuid × GroupUuid × Instant × Unit) :=
  .cons (.required "group_uuid" GroupUuid.codec) <|
  .cons (.required "include_uuid" GroupUuid.codec) <|
  .cons (.required "added_on" Instant.codec) .nil

def codec : Codec SubgroupAuditKey :=
  fields.record.imap (fun (group, included, addedOn, _) => ⟨group, included, addedOn⟩)
    fun k => (k.group, k.included, k.addedOn, ())

end SubgroupAuditKey

/-- One period for which a group was included in another. -/
structure SubgroupAuditRecord where
  key : SubgroupAuditKey
  addedBy : AccountId
  removal : Option Removal
  deriving DecidableEq

namespace SubgroupAuditRecord

/-- Whether the inclusion still lasts. -/
def isActive (r : SubgroupAuditRecord) : Bool := r.removal.isNone

def fields : Fields (SubgroupAuditKey × AccountId × Option Removal × Unit) :=
  .cons (.required "key" SubgroupAuditKey.codec) <|
  .cons (.required "added_by" AccountId.codec) <|
  .cons (.nullable "removal" Removal.codec) .nil

def codec : Codec SubgroupAuditRecord :=
  fields.record.imap (fun (key, addedBy, removal, _) => ⟨key, addedBy, removal⟩)
    fun r => (r.key, r.addedBy, r.removal, ())

end SubgroupAuditRecord

end AccessLedger
