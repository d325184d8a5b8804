import AccessLedger.Proofs.Audit.Traffic

/-!
# What a log has been made from

A log is answered if and only if nothing fails that the program has to ask
(`eval_auditLog_eq_ok_iff`).  Then there is a `LogSource`: the group, its
records, what is shown of every included group, and a book of the accounts.
That the answers are there if there is a source has been proved on the way
(`eval_auditLog_of_asked`).  For the converse a program is taken apart into the
values of its parts, and what is remembered of groups is what a backend has
told of them (`GroupMemo.Tells`).
-/

namespace AccessLedger

/-- A program that goes on has a value if its first part has one and the rest has one from there. -/
theorem Program.exists_of_eval_bind {Q : Type → Type} {ε α β : Type}
    {value : {β : Type} → Q β → Except ε β} {p : Program Q ε α} {f : α → Program Q ε β} {b : β}
    (h : (p >>= f).eval value = .ok b) :
    ∃ a, p.eval value = .ok a ∧ (f a).eval value = .ok b := by
  rw [bind_eq_andThen] at h
  induction p with
  | done a => exact ⟨a, rfl, h⟩
  | fail e => cases h
  | ask q next ih =>
    simp only [andThen, eval] at h ⊢
    cases hq : value q with
    | error e =>
      rw [hq] at h
      cases h
    | ok b =>
      rw [hq] at h
      exact ih b h

theorem Program.exists_of_eval_query_bind {Q : Type → Type} {ε α β : Type}
    {value : {β : Type} → Q β → Except ε β} {q : Q α} {f : α → Program Q ε β} {b : β}
    (h : (query q >>= f).eval value = .ok b) : ∃ a, value q = .ok a ∧ (f a).eval value = .ok b := by
  obtain ⟨a, ha, hrest⟩ := exists_of_eval_bind h
  exact ⟨a, (eval_query q).symm.trans ha, hrest⟩

/-! ## Groups and accounts -/

/-- What is remembered is what a backend has told. -/
structure GroupMemo.Tells (value : {β : Type} → Backend β → Except Failure β) (memo : GroupMemo) :
    Prop where
  groups : ∀ uuid info, memo.groups.lookup uuid = some info → TellsGroup value uuid info
  ownerNames : ∀ owner name, memo.ownerNames.lookup owner = some name →
    ∃ d, value (.groupDescription owner) = .ok d ∧ name = d.map GroupDescription.name

section

variable {value : {β : Type} → Backend β → Except Failure β} {memo memo' : GroupMemo}
  {uuid : GroupUuid} {info : GroupInfo}

theorem GroupMemo.tells_empty : GroupMemo.empty.Tells value :=
  ⟨fun _ _ h => (nomatch h), fun _ _ h => (nomatch h)⟩

theorem tells_of_eval_ownerName (h : memo.Tells value) {g : InternalGroup} {owner : Option String}
    (hok : (ownerName memo g).eval value = .ok (owner, memo')) :
    TellsOwner value g owner ∧ memo'.Tells value := by
  unfold ownerName at hok
  split at hok
  · next own =>
    cases hok
    exact ⟨.self own, h⟩
  · next own =>
    split at hok
    · next name hknown =>
      obtain ⟨d, hd, rfl⟩ := h.ownerNames _ _ hknown
      cases hok
      exact ⟨.other own hd, h⟩
    · obtain ⟨d, hd, hok⟩ := Program.exists_of_eval_query_bind hok
      cases hok
      exact ⟨.other own hd, h.groups, forall_lookup_cons h.ownerNames ⟨d, hd, rfl⟩⟩

theorem tells_of_eval_describeGroup (h : memo.Tells value)
    (hok : (describeGroup memo uuid).eval value = .ok (info, memo')) :
    TellsGroup value uuid info ∧ memo'.Tells value := by
  obtain ⟨found, hfound, hok⟩ := Program.exists_of_eval_query_bind hok
  cases found with
  | some g =>
    obtain ⟨⟨owner, named⟩, hname, hok⟩ := Program.exists_of_eval_bind hok
    obtain ⟨howner, hnamed⟩ := tells_of_eval_ownerName h hname
    cases hok
    exact ⟨.internal hfound howner, hnamed⟩
  | none =>
    obtain ⟨description, hdescription, hok⟩ := Program.exists_of_eval_query_bind hok
    cases description with
    | some d =>
      cases hok
      exact ⟨.described hfound hdescription, h⟩
    | none =>
      cases hok
      exact ⟨.unknown hfound hdescription, h⟩

theorem tells_of_eval_describeOnce (h : memo.Tells value)
    (hok : (describeOnce memo uuid).eval value = .ok (info, memo')) :
    TellsGroup value uuid info ∧ memo'.Tells value := by
  unfold describeOnce at hok
  split at hok
  · next known hknown =>
    cases hok
    exact ⟨h.groups uuid info hknown, h⟩
  · obtain ⟨⟨info, described⟩, hdescribe, hok⟩ := Program.exists_of_eval_bind hok
    obtain ⟨htells, hdescribed⟩ := tells_of_eval_describeGroup h hdescribe
    cases hok
    exact ⟨htells, forall_lookup_cons hdescribed.groups htells, hdescribed.ownerNames⟩

/-- If events are made of some inclusions, the backend tells something of each included group. -/
theorem told_of_eval_allSubgroupEvents {l : IdentityLoader} {rs : List SubgroupAuditRecord}
    {made : List PendingEvent × IdentityLoader} (h : memo.Tells value)
    (hok : (allSubgroupEvents l memo rs).eval value = .ok made) :
    ∀ r ∈ rs, ∃ info, TellsGroup value r.key.included info := by
  induction rs generalizing l memo made with
  | nil => exact List.forall_mem_nil _
  | cons r rs ih =>
    obtain ⟨⟨info, memo'⟩, hdescribe, hok⟩ := Program.exists_of_eval_bind hok
    obtain ⟨more, hmore, -⟩ := Program.exists_of_eval_bind hok
    obtain ⟨htells, hmemo'⟩ := tells_of_eval_describeOnce h hdescribe
    exact List.forall_mem_cons.mpr ⟨⟨info, htells⟩, ih hmemo' hmore⟩

theorem exists_of_eval_fill {l : IdentityLoader} {filled : Unit × IdentityLoader}
    (hok : (IdentityLoader.fill.keep l).eval value = .ok filled) :
    ∃ book, l.ids ≠ [] → value (.accounts l.ids) = .ok book := by
  rw [IdentityLoader.keep_fill] at hok
  split at hok
  · next hempty => exact ⟨fun _ => none, fun hsome => absurd hempty hsome⟩
  · obtain ⟨book, hbook, -⟩ := Program.exists_of_eval_query_bind hok
    exact ⟨book, fun _ => hbook⟩

end

/-! ## Sources -/

/-- All that the log of a group is made from. -/
structure LogSource where
  internal : InternalGroup
  members : List MemberAuditRecord
  subgroups : List SubgroupAuditRecord
  shown : GroupUuid → GroupInfo
  book : AccountBook

namespace LogSource

/-- The accounts that have to be looked up. -/
def ids (s : LogSource) : List AccountId := auditedIds s.members s.subgroups

/-- The events that a source tells, one record after the other. -/
def events (s : LogSource) : List AuditEvent := logEvents s.members s.subgroups s.book s.shown

/-- The log that is made from a source. -/
def log (s : LogSource) : List AuditEvent := s.events.mergeSort AuditEvent.isNotOlder

/-- A backend tells all that a log is made from, and that the caller may see it. -/
structure ToldBy (s : LogSource) (value : {β : Type} → Backend β → Except Failure β)
    (group : GroupUuid) (caller : AccountId) : Prop where
  internal : value (.internalGroup group) = .ok (some s.internal)
  owner : value (.isOwner s.internal.uuid caller) = .ok true
  members : value (.membersAudit s.internal.uuid) = .ok s.members
  subgroups : value (.subgroupsAudit s.internal.uuid) = .ok s.subgroups
  shown : ∀ r ∈ s.subgroups, TellsGroup value r.key.included (s.shown r.key.included)
  book : s.ids ≠ [] → value (.accounts s.ids) = .ok s.book

end LogSource

section

variable {value : {β : Type} → Backend β → Except Failure β} {group : GroupUuid}
  {caller : AccountId}

theorem internalGroup_of_eval_requireInternal {internal : InternalGroup}
    (hok : (requireInternal group).eval value = .ok internal) :
    value (.internalGroup group) = .ok (some internal) := by
  obtain ⟨found, hfound, hok⟩ := Program.exists_of_eval_query_bind hok
  cases found with
  | some g =>
    cases hok
    exact hfound
  | none =>
    obtain ⟨d, -, hok⟩ := Program.exists_of_eval_query_bind hok
    cases d <;> cases hok

theorem isOwner_of_eval_requireOwnership {uuid : GroupUuid}
    (hok : (requireOwnership uuid caller).eval value = .ok ()) :
    value (.isOwner uuid caller) = .ok true := by
  obtain ⟨owns, howns, hok⟩ := Program.exists_of_eval_query_bind hok
  cases owns with
  | true => exact howns
  | false => cases hok

/-- Behind the gate, what is shown of groups and accounts has been told if there is a log. -/
theorem exists_of_eval_logOfRecords {members : List MemberAuditRecord}
    {subgroups : List SubgroupAuditRecord} {events : List AuditEvent}
    (hok : (logOfRecords members subgroups).eval value = .ok events) :
    ∃ (shown : GroupUuid → GroupInfo) (book : AccountBook),
      (∀ r ∈ subgroups, TellsGroup value r.key.included (shown r.key.included)) ∧
      (auditedIds members subgroups ≠ [] →
        value (.accounts (auditedIds members subgroups)) = .ok book) := by
  obtain ⟨made, hmade, hok⟩ := Program.exists_of_eval_bind hok
  obtain ⟨filled, hfill, -⟩ := Program.exists_of_eval_bind hok
  have htold := told_of_eval_allSubgroupEvents GroupMemo.tells_empty hmade
  have hchoice (uuid : GroupUuid) :
      ∃ info, (∃ told, TellsGroup value uuid told) → TellsGroup value uuid info := by
    by_cases h : ∃ told, TellsGroup value uuid told
    · obtain ⟨told, htells⟩ := h
      exact ⟨told, fun _ => htells⟩
    · exact ⟨.stub uuid none, fun hsome => absurd hsome h⟩
  obtain ⟨shown, hshown⟩ := Classical.axiomOfChoice hchoice
  have htells : ∀ r ∈ subgroups, TellsGroup value r.key.included (shown r.key.included) :=
    fun r hr => hshown _ (htold r hr)
  -- the batch holds all accounts of the records, since that is so of what is made in any case
  have hmembers := IdentityLoader.collects_empty.allMemberEvents members
  obtain ⟨made', hmade', hmakes⟩ := eval_allSubgroupEvents hmembers.collects
    GroupMemo.agrees_empty htells
  cases hmade.symm.trans hmade'
  have hids : made.2.ids = auditedIds members subgroups := (hmembers.append hmakes).collects
  obtain ⟨book, hbook⟩ := exists_of_eval_fill hfill
  rw [hids] at hbook
  exact ⟨shown, book, htells, hbook⟩

/-- The log is the one that is made from what has been told. -/
theorem LogSource.ToldBy.eval_auditLog {s : LogSource} (h : s.ToldBy value group caller) :
    (auditLog group caller).eval value = .ok s.log :=
  eval_auditLog_of_asked h.internal h.owner h.members h.subgroups h.shown h.book

theorem LogSource.exists_toldBy {events : List AuditEvent}
    (hok : (auditLog group caller).eval value = .ok events) :
    ∃ s : LogSource, s.ToldBy value group caller := by
  rw [auditLog_eq] at hok
  obtain ⟨internal, hgate, hok⟩ := Program.exists_of_eval_bind hok
  obtain ⟨_, howner, hok⟩ := Program.exists_of_eval_bind hok
  obtain ⟨members, hmembers, hok⟩ := Program.exists_of_eval_query_bind hok
  obtain ⟨subgroups, hsubgroups, hok⟩ := Program.exists_of_eval_query_bind hok
  obtain ⟨shown, book, hshown, hbook⟩ := exists_of_eval_logOfRecords hok
  exact ⟨⟨internal, members, subgroups, shown, book⟩, internalGroup_of_eval_requireInternal hgate,
    isOwner_of_eval_requireOwnership howner, hmembers, hsubgroups, hshown, hbook⟩

/-- A log is answered if and only if all that it is made from is told. -/
theorem eval_auditLog_eq_ok_iff {events : List AuditEvent} :
    (auditLog group caller).eval value = .ok events ↔
      ∃ s : LogSource, s.ToldBy value group caller ∧ s.log = events := by
  constructor
  · intro hok
    obtain ⟨s, hs⟩ := LogSource.exists_toldBy hok
    exact ⟨s, hs, Except.ok.inj (hs.eval_auditLog.symm.trans hok)⟩
  · rintro ⟨s, hs, rfl⟩
    exact hs.eval_auditLog

end

end AccessLedger
