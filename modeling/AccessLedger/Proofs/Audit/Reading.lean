import AccessLedger.Proofs.Audit.Stays

/-!
# What a database answers to a backend's questions

The questions of a backend only read, so a database has one reply to each of
them (`Database.reply`), and a computation that asks them has a value on it
(`Store.run_ask`).  Groups that were added by the store are found, and the
audit rows of a group are read back as the periods that they were written for
(`Database.reply_membersAudit`, `Database.reply_subgroupsAudit`).
-/

namespace AccessLedger

/-- The reply of a database to a question. -/
def Database.reply (db : Database) {β : Type} (q : Backend β) : Except Failure β :=
  ((Store.answer q).run db).1

/-- A question changes nothing, and its outcome is the reply. -/
@[simp]
theorem Store.run_answer {β : Type} (q : Backend β) (db : Database) :
    (answer q).run db = (db.reply q, db) :=
  Prod.ext rfl (run_of_asks_isRead (asks_answer q) db)

/-- A computation that asks a backend changes nothing, and its outcome is its value. -/
@[simp]
theorem Store.run_ask {α : Type} (p : BackendProgram α) (db : Database) :
    (ask p).run db = (p.eval db.reply, db) :=
  (Program.run_interpret _ _ p db).trans (Program.run_eq_eval (fun q => run_answer q db) p)

/-- What is read element by element. -/
theorem mapM_map_of_pure {m : Type → Type} [Monad m] [LawfulMonad m] {σ τ υ : Type} {f : σ → τ}
    {g : τ → m υ} {k : σ → υ} {l : List σ} (h : ∀ s ∈ l, g (f s) = pure (k s)) :
    (l.map f).mapM g = pure (l.map k) := by
  induction l with
  | nil => rfl
  | cons s l ih =>
    obtain ⟨hs, hl⟩ := List.forall_mem_cons.mp h
    rw [List.map_cons, List.mapM_cons, hs, ih hl, pure_bind, pure_bind, List.map_cons]

theorem decodeTimestamp_column {t : Instant} (h : t.InFourDigits) :
    decodeTimestamp t.column = .ok t := by
  rw [decodeTimestamp, Timestamp.strict?_column h]

/-! ## Groups -/

/-- A row as it is written for a new group, in a year of four digits. -/
structure GroupRow.Readable (r : GroupRow) : Prop where
  id : ∃ id : UInt32, r.id = .integer id.toNat
  visibleToAll : ∃ i, r.visibleToAll = .integer i
  createdOn : ∃ t : Instant, t.InFourDigits ∧ r.createdOn = t.column

namespace Database

variable {db : Database}

theorem storedGroup_of_readable {r : GroupRow} (h : r.Readable) (uuid : GroupUuid) :
    ∃ g : StoredGroup, storedGroup? uuid r = some g ∧ g.uuid = uuid ∧
      ∃ t : Instant, t.InFourDigits ∧ g.createdOn = t.column := by
  obtain ⟨⟨id, hid⟩, ⟨i, hvisible⟩, hcreated⟩ := h
  have hword : r.id.word? = some id := by
    rw [hid, Scalar.word?, uint32?_toNat]
  have htruth : r.visibleToAll.truth? = some (decide (i ≠ 0)) := by
    rw [hvisible, Scalar.truth?]
  rw [storedGroup?, hword, htruth]
  exact ⟨_, rfl, rfl, hcreated⟩

/-- A group that is there is found if its row can be read. -/
theorem reply_internalGroup {uuid : GroupUuid} (h : ∀ r ∈ db.group? uuid, r.Readable) :
    ∃ found, db.reply (.internalGroup uuid) = .ok found ∧
      found.isSome = (db.group? uuid).isSome ∧ ∀ g ∈ found, g.uuid = uuid := by
  cases hrow : db.group? uuid with
  | none =>
    refine ⟨none, ?_, rfl, fun _ h => nomatch h⟩
    simp [reply, Store.answer, Store.internalGroup, StoreProgram.run, perform, hrow]
  | some r =>
    obtain ⟨g, hg, huuid, t, ht, hcreated⟩ :=
      storedGroup_of_readable (h r hrow) uuid
    have hdecode : g.decode = .ok ⟨g.uuid, g.id, g.name, g.description, g.owner,
        g.visibleToAll, t⟩ := by
      rw [StoredGroup.decode, hcreated, decodeTimestamp_column ht]
      rfl
    refine ⟨some ⟨g.uuid, g.id, g.name, g.description, g.owner, g.visibleToAll, t⟩, ?_, rfl, ?_⟩
    · simp [reply, Store.answer, Store.internalGroup, StoreProgram.run, perform, hrow, hg, answer,
        hdecode, Except.map]
    · rintro _ ⟨⟩
      exact huuid

@[simp]
theorem reply_groupDescription (uuid : GroupUuid) :
    db.reply (.groupDescription uuid) = .ok (db.description? uuid) := rfl

@[simp]
theorem reply_isOwner (uuid : GroupUuid) (account : AccountId) :
    db.reply (.isOwner uuid account) = .ok (db.isOwner uuid account) := rfl

theorem uuid_of_description {uuid : GroupUuid} {d : GroupDescription}
    (h : db.description? uuid = some d) : d.uuid = uuid := by
  unfold description? at h
  split at h
  · cases h
    rfl
  · obtain ⟨r, -, rfl⟩ := Option.map_eq_some_iff.mp h
    rfl

theorem findsGroups (h : ∀ r ∈ db.groups, r.Readable) : FindsGroups db.reply where
  internalGroup uuid := by
    obtain ⟨found, hfound, -, huuid⟩ :=
      reply_internalGroup fun r hr => h r (List.mem_of_find?_eq_some hr)
    exact ⟨found, hfound, huuid⟩
  groupDescription uuid := ⟨_, reply_groupDescription uuid, fun _ hd => uuid_of_description hd⟩

/-- An internal group is let pass if its row can be read. -/
theorem eval_requireInternal {uuid : GroupUuid} {r : GroupRow} (hrow : db.group? uuid = some r)
    (hread : r.Readable) : ∃ g, (requireInternal uuid).eval db.reply = .ok g ∧ g.uuid = uuid := by
  obtain ⟨found, hfound, hsome, huuid⟩ :=
    reply_internalGroup fun s hs => Option.some.inj (hrow.symm.trans hs) ▸ hread
  rw [hrow, Option.isSome_some] at hsome
  obtain ⟨g, rfl⟩ := Option.isSome_iff_exists.mp hsome
  refine ⟨g, ?_, huuid g rfl⟩
  rw [requireInternal, Program.eval_bind_of_ok ((Program.eval_query _).trans hfound)]
  rfl

/-- Accounts can be looked up if they are not too many. -/
theorem reply_accounts {ids : List AccountId} (h : ids.length ≤ accountLimit) :
    ∃ book, db.reply (.accounts ids) = .ok book := by
  simp only [reply, Store.answer, Store.accounts, StoreProgram.run]
  split
  · exact ⟨_, rfl⟩
  · refine ⟨Store.bookOf ((db.accounts.filterMap AccountRow.info?).filter (·.id ∈ ids)), ?_⟩
    simp [perform, h, Except.map]

end Database

/-! ## Audit rows -/

theorem decodeRemoval_columns {removal : Option Removal}
    (h : ∀ r ∈ removal, r.removedOn.InFourDigits) :
    decodeRemoval (removal.map Removal.removedBy) (removal.map fun r => r.removedOn.column) =
      .ok removal := by
  cases removal with
  | none => rfl
  | some r =>
    rw [Option.map_some, Option.map_some, decodeRemoval, decodeTimestamp_column (h r rfl)]
    rfl

@[simp]
theorem storedId_scalar (a : AccountId) : Database.storedId? a.scalar = some a := by
  have h := AccountId.ofInt?_toNat a
  rwa [AccountId.ofInt?] at h

@[simp]
theorem optionalId_scalar (removal : Option Removal) :
    Database.optionalId? (removal.map fun r => r.removedBy.scalar) =
      some (removal.map Removal.removedBy) := by
  cases removal with
  | none => rfl
  | some r =>
    simp [Database.optionalId?]

namespace Stay

/-- The row of a membership. -/
def memberRow (s : Stay AccountId) : MemberAuditRow :=
  ⟨s.group, s.member.scalar, s.addedBy.scalar, s.addedOn.column,
   s.removal.map fun r => r.removedBy.scalar, s.removal.map fun r => r.removedOn.column⟩

/-- The row of an inclusion. -/
def includeRow (s : Stay GroupUuid) : IncludeAuditRow :=
  ⟨s.group, s.member, s.addedBy.scalar, s.addedOn.column,
   s.removal.map fun r => r.removedBy.scalar, s.removal.map fun r => r.removedOn.column⟩

/-- The audit record of a membership. -/
def memberRecord (s : Stay AccountId) : MemberAuditRecord :=
  ⟨s.group, s.member, s.addedBy, s.addedOn, s.removal⟩

/-- The audit record of an inclusion. -/
def subgroupRecord (s : Stay GroupUuid) : SubgroupAuditRecord :=
  ⟨⟨s.group, s.member, s.addedOn⟩, s.addedBy, s.removal⟩

/-- What is read of the row of a membership. -/
def storedMember (s : Stay AccountId) : StoredMemberAudit :=
  ⟨s.group, s.member, s.addedBy, s.addedOn.column, s.removal.map Removal.removedBy,
   s.removal.map fun r => r.removedOn.column⟩

/-- What is read of the row of an inclusion. -/
def storedInclude (s : Stay GroupUuid) : StoredIncludeAudit :=
  ⟨s.group, s.member, s.addedBy, s.addedOn.column, s.removal.map Removal.removedBy,
   s.removal.map fun r => r.removedOn.column⟩

@[simp]
theorem storedMemberAudit_memberRow (s : Stay AccountId) :
    Database.storedMemberAudit? s.memberRow = some s.storedMember := by
  simp [Database.storedMemberAudit?, memberRow, storedMember]

@[simp]
theorem storedIncludeAudit_includeRow (s : Stay GroupUuid) :
    Database.storedIncludeAudit? s.includeRow = some s.storedInclude := by
  simp [Database.storedIncludeAudit?, includeRow, storedInclude]

theorem decode_storedMember {s : Stay AccountId} (h : s.Dated) :
    s.storedMember.decode = .ok s.memberRecord := by
  simp only [StoredMemberAudit.decode, storedMember, decodeTimestamp_column h.addedOn,
    decodeRemoval_columns h.removedOn]
  rfl

theorem decode_storedInclude {s : Stay GroupUuid} (h : s.Dated) :
    s.storedInclude.decode = .ok s.subgroupRecord := by
  simp only [StoredIncludeAudit.decode, storedInclude, decodeTimestamp_column h.addedOn,
    decodeRemoval_columns h.removedOn]
  rfl

end Stay

namespace Database

variable {db : Database}

/-- The audit rows of members are those of some periods. -/
theorem memberAudits_eq {stays : List (Stay AccountId)}
    (h : db.memberLedger.periods = stays.map (Stay.period memberRoll)) :
    db.memberAudits = stays.map Stay.memberRow := by
  refine (List.map_inj_right fun r q hrq => ?_).mp (h.trans ?_)
  · cases r
    cases q
    cases hrq
    rfl
  · rw [List.map_map]
    rfl

/-- The audit rows of included groups are those of some periods. -/
theorem includeAudits_eq {stays : List (Stay GroupUuid)}
    (h : db.includeLedger.periods = stays.map (Stay.period includeRoll)) :
    db.includeAudits = stays.map Stay.includeRow := by
  refine (List.map_inj_right fun r q hrq => ?_).mp (h.trans ?_)
  · cases r
    cases q
    cases hrq
    rfl
  · rw [List.map_map]
    rfl

/-- The audit rows of members are read back as they were meant. -/
theorem reply_membersAudit {stays : List (Stay AccountId)}
    (h : db.memberAudits = stays.map Stay.memberRow) (hdated : ∀ s ∈ stays, s.Dated)
    (group : GroupUuid) : db.reply (.membersAudit group) =
      .ok ((stays.filter (·.group = group)).map Stay.memberRecord) := by
  have hread : (db.memberAudits.filter (·.group = group)).mapM storedMemberAudit? =
      some ((stays.filter (·.group = group)).map Stay.storedMember) := by
    rw [h, List.filter_map]
    exact mapM_map_of_pure fun s _ => s.storedMemberAudit_memberRow
  have hdecode : ((stays.filter (·.group = group)).map Stay.storedMember).mapM
      StoredMemberAudit.decode =
      .ok ((stays.filter (·.group = group)).map Stay.memberRecord) :=
    mapM_map_of_pure fun s hs => Stay.decode_storedMember (hdated s (List.mem_filter.mp hs).1)
  simp [reply, Store.answer, Store.membersAudit, StoreProgram.run, perform, hread, answer, hdecode]

theorem run_membersAudit {stays : List (Stay AccountId)}
    (h : db.memberLedger.periods = stays.map (Stay.period memberRoll))
    (hdated : ∀ s ∈ stays, s.Dated) (group : GroupUuid) : (Store.membersAudit group).run db =
      (.ok ((stays.filter (·.group = group)).map Stay.memberRecord), db) := by
  have hrun := Store.run_answer (.membersAudit group) db
  rwa [reply_membersAudit (memberAudits_eq h) hdated] at hrun

/-- The audit rows of included groups are read back as they were meant. -/
theorem reply_subgroupsAudit {stays : List (Stay GroupUuid)}
    (h : db.includeAudits = stays.map Stay.includeRow) (hdated : ∀ s ∈ stays, s.Dated)
    (group : GroupUuid) : db.reply (.subgroupsAudit group) =
      .ok ((stays.filter (·.group = group)).map Stay.subgroupRecord) := by
  have hread : (db.includeAudits.filter (·.group = group)).mapM storedIncludeAudit? =
      some ((stays.filter (·.group = group)).map Stay.storedInclude) := by
    rw [h, List.filter_map]
    exact mapM_map_of_pure fun s _ => s.storedIncludeAudit_includeRow
  have hdecode : ((stays.filter (·.group = group)).map Stay.storedInclude).mapM
      StoredIncludeAudit.decode =
      .ok ((stays.filter (·.group = group)).map Stay.subgroupRecord) :=
    mapM_map_of_pure fun s hs => Stay.decode_storedInclude (hdated s (List.mem_filter.mp hs).1)
  simp [reply, Store.answer, Store.subgroupsAudit, StoreProgram.run, perform, hread, answer, hdecode]

theorem run_subgroupsAudit {stays : List (Stay GroupUuid)}
    (h : db.includeLedger.periods = stays.map (Stay.period includeRoll))
    (hdated : ∀ s ∈ stays, s.Dated) (group : GroupUuid) : (Store.subgroupsAudit group).run db =
      (.ok ((stays.filter (·.group = group)).map Stay.subgroupRecord), db) := by
  have hrun := Store.run_answer (.subgroupsAudit group) db
  rwa [reply_subgroupsAudit (includeAudits_eq h) hdated] at hrun

end Database

/-! ## The accounts of audit rows -/

/-- The accounts in an audit row. -/
def MemberAuditRow.accounts (r : MemberAuditRow) : List Scalar :=
  r.account :: r.addedBy :: r.removedBy.toList

/-- The accounts in an audit row. -/
def IncludeAuditRow.accounts (r : IncludeAuditRow) : List Scalar :=
  r.addedBy :: r.removedBy.toList

/-- The accounts in the audit rows of a group. -/
def Database.auditedAccounts (db : Database) (group : GroupUuid) : List Scalar :=
  (db.memberAudits.filter (·.group = group)).flatMap MemberAuditRow.accounts ++
    (db.includeAudits.filter (·.group = group)).flatMap IncludeAuditRow.accounts

@[simp]
theorem Stay.accounts_memberRow (s : Stay AccountId) :
    s.memberRow.accounts = s.memberRecord.accounts.map AccountId.scalar := by
  obtain ⟨_, _, _, _, removal⟩ := s
  cases removal <;> rfl

@[simp]
theorem Stay.accounts_includeRow (s : Stay GroupUuid) :
    s.includeRow.accounts = s.subgroupRecord.accounts.map AccountId.scalar := by
  obtain ⟨_, _, _, _, removal⟩ := s
  cases removal <;> rfl

/-- The accounts in the audit rows of a group are those of its records. -/
theorem Database.auditedAccounts_eq {db : Database} {members : List (Stay AccountId)}
    {includes : List (Stay GroupUuid)} (hmembers : db.memberAudits = members.map Stay.memberRow)
    (hincludes : db.includeAudits = includes.map Stay.includeRow) (group : GroupUuid) :
    db.auditedAccounts group =
      (((members.filter (·.group = group)).map Stay.memberRecord).flatMap
          MemberAuditRecord.accounts ++
        ((includes.filter (·.group = group)).map Stay.subgroupRecord).flatMap
          SubgroupAuditRecord.accounts).map AccountId.scalar := by
  simp only [auditedAccounts, hmembers, hincludes, List.filter_map, List.flatMap_map,
    Stay.accounts_memberRow, Stay.accounts_includeRow, List.map_append, List.map_flatMap]
  rfl

/-- Some accounts of a list are not more than its distinct numbers. -/
theorem length_le_of_nodup {accounts ids : List AccountId} (hnodup : ids.Nodup)
    (hin : ∀ a ∈ ids, a ∈ accounts) :
    ids.length ≤ (accounts.map AccountId.scalar).eraseDups.length := by
  have hscalars : (ids.map AccountId.scalar).Nodup :=
    List.pairwise_map.mpr (hnodup.imp fun hne h => hne (AccountId.scalar_inj h))
  rw [← ids.length_map AccountId.scalar]
  refine hscalars.length_le_of_subset fun x hx => ?_
  obtain ⟨a, ha, rfl⟩ := List.mem_map.mp hx
  exact List.mem_eraseDups.mpr (List.mem_map_of_mem (hin a ha))

end AccessLedger
