import AccessLedger.Audit.Record

/-!
# Audit events

An entry of the audit log of a group: what happened, who did it, whom it was
about, and when.  The subject is an account or a group and is written as
either without saying which; an account is told by its number.
-/

namespace AccessLedger

/-- What happened to the members of a group. -/
inductive AuditEventKind where
  | addUser
  | removeUser
  | addGroup
  | removeGroup
  deriving DecidableEq, Repr

namespace AuditEventKind

def words : List (AuditEventKind × String) :=
  [(addUser, "ADD_USER"), (removeUser, "REMOVE_USER"), (addGroup, "ADD_GROUP"),
   (removeGroup, "REMOVE_GROUP")]

def codec : Codec AuditEventKind := .word words

end AuditEventKind

/-- Whom an event is about. -/
inductive AuditSubject where
  | account (info : AccountInfo)
  | group (info : GroupInfo)
  deriving DecidableEq

namespace AuditSubject

def ofSum : AccountInfo ⊕ GroupInfo → AuditSubject
  | .inl a => account a
  | .inr g => group g

def toSum : AuditSubject → AccountInfo ⊕ GroupInfo
  | account a => .inl a
  | group g => .inr g

/-- The codec of a subject that may be nested `depth` deep. -/
def codec (depth : Nat) : Codec AuditSubject :=
  (Codec.either depth AccountInfo.codec GroupInfo.codec).imap ofSum toSum

/-- How deep a subject may be nested that stands alone. -/
def aloneDepth : Nat := 127

/-- How deep a subject may be nested that is part of an event. -/
def partDepth : Nat := 126

end AuditSubject

/-- One entry of the audit log of a group. -/
structure AuditEvent where
  kind : AuditEventKind
  actor : AccountInfo
  subject : AuditSubject
  date : Instant
  deriving DecidableEq

namespace AuditEvent

def fields : Fields (AuditEventKind × AccountInfo × AuditSubject × Instant × Unit) :=
  .cons (.required "type" AuditEventKind.codec) <|
  .cons (.required "actor" AccountInfo.codec) <|
  .cons (.required "subject" (AuditSubject.codec AuditSubject.partDepth)) <|
  .cons (.required "date" Instant.codec) .nil

def codec : Codec AuditEvent :=
  fields.record.imap (fun (kind, actor, subject, date, _) => ⟨kind, actor, subject, date⟩)
    fun e => (e.kind, e.actor, e.subject, e.date, ())

end AuditEvent

end AccessLedger
