import AccessLedger.Access.Config
import AccessLedger.Audit.Event
import AccessLedger.Proofs.Access.Encoding
import AccessLedger.Proofs.Calendar.Relaxed
import AccessLedger.Proofs.Json.Either

/-!
# Values survive the wire

Whatever is sent as JSON is received as it was: for each type that is sent its
codec is lawful, from the numbers and instants up to whole configurations
(`values_round_trip`).  The subject of an event is written as an account or as
a group without a word on which.  Both are records, and each has a field that
the other lacks and that must be given, so neither is taken for the other.
-/

namespace AccessLedger

/-! ## Accounts and groups -/

theorem AccountId.lawful_codec : AccountId.codec.Lawful :=
  Codec.lawful_uint32.imap fun _ => rfl

theorem AccountId.writesWithin_codec {depth : Nat} : AccountId.codec.WritesWithin depth :=
  Codec.writesWithin_uint32.imap

theorem Instant.lawful_codec : Instant.codec.Lawful :=
  Codec.lawful_spelled Timestamp.relaxed?_json

theorem AccountInfo.lawful_codec : AccountInfo.codec.Lawful := by
  refine Codec.Lawful.imap (Fields.Lawful.record ?_) fun _ => rfl
  apply Fields.Lawful.required AccountId.lawful_codec (by decide)
  apply Fields.Lawful.optional Codec.lawful_string nofun (by decide)
  apply Fields.Lawful.optional Codec.lawful_string nofun (by decide)
  exact Fields.Lawful.optional Codec.lawful_string nofun (by decide) .nil

theorem InternalGroup.lawful_codec : InternalGroup.codec.Lawful := by
  refine Codec.Lawful.imap (Fields.Lawful.record ?_) fun _ => rfl
  apply Fields.Lawful.required GroupUuid.lawful_codec (by decide)
  apply Fields.Lawful.required Codec.lawful_uint32 (by decide)
  apply Fields.Lawful.required Codec.lawful_string (by decide)
  apply Fields.Lawful.nullable Codec.lawful_string nofun (by decide)
  apply Fields.Lawful.required GroupUuid.lawful_codec (by decide)
  apply Fields.Lawful.required Codec.lawful_bool (by decide)
  exact Fields.Lawful.required Instant.lawful_codec (by decide) .nil

theorem GroupDescription.lawful_codec : GroupDescription.codec.Lawful := by
  refine Codec.Lawful.imap (Fields.Lawful.record ?_) fun _ => rfl
  apply Fields.Lawful.required GroupUuid.lawful_codec (by decide)
  apply Fields.Lawful.required Codec.lawful_string (by decide)
  exact Fields.Lawful.nullable Codec.lawful_string nofun (by decide) .nil

theorem GroupInfo.lawful_codec : GroupInfo.codec.Lawful := by
  refine Codec.Lawful.imap (Fields.Lawful.record ?_) fun _ => rfl
  apply Fields.Lawful.required Codec.lawful_string (by decide)
  apply Fields.Lawful.optional Codec.lawful_string nofun (by decide)
  apply Fields.Lawful.optional Codec.lawful_uint32 Codec.encode_uint32_ne_null (by decide)
  apply Fields.Lawful.optional Codec.lawful_string nofun (by decide)
  apply Fields.Lawful.optional Codec.lawful_string nofun (by decide)
  apply Fields.Lawful.optional Codec.lawful_string nofun (by decide)
  apply Fields.Lawful.optional Codec.lawful_bool nofun (by decide)
  exact Fields.Lawful.optional Instant.lawful_codec Codec.encode_spelled_ne_null (by decide) .nil

/-! ## Audit records -/

theorem Removal.lawful_codec : Removal.codec.Lawful := by
  refine Codec.Lawful.imap (Fields.Lawful.record ?_) fun _ => rfl
  apply Fields.Lawful.required AccountId.lawful_codec (by decide)
  exact Fields.Lawful.required Instant.lawful_codec (by decide) .nil

theorem Removal.encode_ne_null (r : Removal) : Removal.codec.encode r ≠ .null :=
  Fields.encode_record_ne_null _ _

theorem MemberAuditRecord.lawful_codec : MemberAuditRecord.codec.Lawful := by
  refine Codec.Lawful.imap (Fields.Lawful.record ?_) fun _ => rfl
  apply Fields.Lawful.required GroupUuid.lawful_codec (by decide)
  apply Fields.Lawful.required AccountId.lawful_codec (by decide)
  apply Fields.Lawful.required AccountId.lawful_codec (by decide)
  apply Fields.Lawful.required Instant.lawful_codec (by decide)
  exact Fields.Lawful.nullable Removal.lawful_codec Removal.encode_ne_null (by decide) .nil

theorem SubgroupAuditKey.lawful_codec : SubgroupAuditKey.codec.Lawful := by
  refine Codec.Lawful.imap (Fields.Lawful.record ?_) fun _ => rfl
  apply Fields.Lawful.required GroupUuid.lawful_codec (by decide)
  apply Fields.Lawful.required GroupUuid.lawful_codec (by decide)
  exact Fields.Lawful.required Instant.lawful_codec (by decide) .nil

theorem SubgroupAuditRecord.lawful_codec : SubgroupAuditRecord.codec.Lawful := by
  refine Codec.Lawful.imap (Fields.Lawful.record ?_) fun _ => rfl
  apply Fields.Lawful.required SubgroupAuditKey.lawful_codec (by decide)
  apply Fields.Lawful.required AccountId.lawful_codec (by decide)
  exact Fields.Lawful.nullable Removal.lawful_codec Removal.encode_ne_null (by decide) .nil

/-! ## Audit events -/

theorem AuditEventKind.lawful_codec : AuditEventKind.codec.Lawful :=
  Codec.lawful_word fun k => by cases k <;> exact ⟨_, rfl, by decide⟩

/-- An account is nested one deep. -/
theorem AccountInfo.writesWithin_codec {depth : Nat} :
    AccountInfo.codec.WritesWithin (depth + 1) := by
  refine Codec.WritesWithin.imap (Fields.WriteWithin.record ?_)
  exact ⟨AccountId.writesWithin_codec, Codec.writesWithin_string.option,
    Codec.writesWithin_string.option, Codec.writesWithin_string.option, trivial⟩

/-- What is shown of a group is nested one deep. -/
theorem GroupInfo.writesWithin_codec {depth : Nat} : GroupInfo.codec.WritesWithin (depth + 1) := by
  refine Codec.WritesWithin.imap (Fields.WriteWithin.record ?_)
  exact ⟨Codec.writesWithin_string, Codec.writesWithin_string.option,
    Codec.writesWithin_uint32.option, Codec.writesWithin_string.option,
    Codec.writesWithin_string.option, Codec.writesWithin_string.option,
    Codec.writesWithin_bool.option, Codec.writesWithin_spelled.option, trivial⟩

/-- A group has no account number, so it is no account. -/
theorem AccountInfo.decode_group (g : GroupInfo) :
    ∃ e, AccountInfo.codec.decode (GroupInfo.codec.encode g) = .error e := by
  have hmissing : "_account_id" ∉ GroupInfo.fields.names := by decide
  obtain ⟨e, hfails⟩ : ∃ e, AccountInfo.fields.record.decode (GroupInfo.codec.encode g) = .error e :=
    Fields.decode_members_of_missing rfl hmissing _
  exact ⟨e, Codec.decode_imap_of_error hfails⟩

/-- An account has no group identifier, so it is no group. -/
theorem GroupInfo.decode_account (a : AccountInfo) :
    ∃ e, GroupInfo.codec.decode (AccountInfo.codec.encode a) = .error e := by
  have hmissing : "id" ∉ AccountInfo.fields.names := by decide
  obtain ⟨e, hfails⟩ : ∃ e, GroupInfo.fields.record.decode (AccountInfo.codec.encode a) = .error e :=
    Fields.decode_members_of_missing rfl hmissing _
  exact ⟨e, Codec.decode_imap_of_error hfails⟩

theorem AuditSubject.lawful_codec {depth : Nat} : (AuditSubject.codec (depth + 1)).Lawful := by
  refine Codec.Lawful.imap ?_ fun s => ?_
  · exact AccountInfo.lawful_codec.either GroupInfo.lawful_codec AccountInfo.writesWithin_codec
      GroupInfo.writesWithin_codec AccountInfo.decode_group
  · cases s <;> rfl

theorem AuditEvent.lawful_codec : AuditEvent.codec.Lawful := by
  refine Codec.Lawful.imap (Fields.Lawful.record ?_) fun _ => rfl
  apply Fields.Lawful.required AuditEventKind.lawful_codec (by decide)
  apply Fields.Lawful.required AccountInfo.lawful_codec (by decide)
  apply Fields.Lawful.required AuditSubject.lawful_codec (by decide)
  exact Fields.Lawful.required Instant.lawful_codec (by decide) .nil

/-! ## Configurations -/

theorem AccessConfig.lawful_codec : AccessConfig.codec.Lawful := by
  refine Codec.Lawful.imap (Fields.Lawful.record ?_) fun _ => rfl
  apply Fields.Lawful.required Codec.lawful_string (by decide)
  apply Fields.Lawful.required Codec.lawful_string (by decide)
  apply Fields.Lawful.optional Codec.lawful_string nofun (by decide)
  apply Fields.Lawful.required AccessSection.lawful_codec.list (by decide)
  exact Fields.Lawful.withDefault Codec.lawful_nameSet (by decide) .nil

/-! ## All that is sent -/

/--
Each value that is sent is received as it was, and the subject of an event is
never taken for one of the other kind.
-/
theorem values_round_trip :
    AccountInfo.codec.RoundTrips ∧ InternalGroup.codec.RoundTrips ∧
    GroupDescription.codec.RoundTrips ∧ GroupInfo.codec.RoundTrips ∧
    MemberAuditRecord.codec.RoundTrips ∧ SubgroupAuditRecord.codec.RoundTrips ∧
    (AuditSubject.codec AuditSubject.aloneDepth).RoundTrips ∧ AuditEvent.codec.RoundTrips ∧
    AccessConfig.codec.RoundTrips ∧
    (∀ depth g, ∃ e, AccountInfo.codec.read ((AuditSubject.codec depth).write (.group g)) =
      .error e) ∧
    (∀ depth a, ∃ e, GroupInfo.codec.read ((AuditSubject.codec depth).write (.account a)) =
      .error e) := by
  refine ⟨AccountInfo.lawful_codec.roundTrips, InternalGroup.lawful_codec.roundTrips,
    GroupDescription.lawful_codec.roundTrips, GroupInfo.lawful_codec.roundTrips,
    MemberAuditRecord.lawful_codec.roundTrips, SubgroupAuditRecord.lawful_codec.roundTrips,
    AuditSubject.lawful_codec.roundTrips, AuditEvent.lawful_codec.roundTrips,
    AccessConfig.lawful_codec.roundTrips, fun _ g => ?_, fun _ a => ?_⟩
  · obtain ⟨e, hfails⟩ := AccountInfo.decode_group g
    exact ⟨e, GroupInfo.lawful_codec.read_write_of_error hfails⟩
  · obtain ⟨e, hfails⟩ := GroupInfo.decode_account a
    exact ⟨e, AccountInfo.lawful_codec.read_write_of_error hfails⟩

end AccessLedger
