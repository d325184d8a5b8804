import AccessLedger.Proofs.Audit.Batch

/-!
# What the audit log of a group says

A program that asks a backend whose answers are fixed has one value
(`Program.eval`).  The value of `auditLog` is the list of the events that the
audit records tell, newest first (`eval_auditLog_eq`).  What has been looked up
of a group is not looked up again, and it is what would be found
(`GroupMemo.Agrees`).  A `GroupChange` is what an event says without the details
that are looked up: what happened, who did it, whom it was about, and when
(`eval_auditLog`).
-/

namespace AccessLedger

namespace Program

variable {Q : Type → Type} {ε α β σ : Type}

/-- The value of a program whose questions have fixed answers. -/
def eval (value : {β : Type} → Q β → Except ε β) : Program Q ε α → Except ε α
  | done a => .ok a
  | fail e => .error e
  | ask q next => match value q with
    | .ok b => (next b).eval value
    | .error e => .error e

variable {value : {β : Type} → Q β → Except ε β}

@[simp]
theorem eval_query (q : Q α) : (query q : Program Q ε α).eval value = value q := by
  simp only [query, eval]
  cases value q <;> rfl

/-- A program goes on with the value of its first part. -/
theorem eval_bind_of_ok {p : Program Q ε α} {a : α} (h : p.eval value = .ok a)
    (f : α → Program Q ε β) : (p >>= f).eval value = (f a).eval value := by
  rw [bind_eq_andThen]
  induction p with
  | done b =>
    cases h
    rfl
  | fail e => cases h
  | ask q next ih =>
    simp only [andThen, eval] at h ⊢
    cases hq : value q with
    | error e =>
      rw [hq] at h
      cases h
    | ok b =>
      rw [hq] at h
      exact ih b h

/-- A program whose questions change nothing is run to its value. -/
theorem run_eq_eval {answer : {β : Type} → Q β → σ → Except ε β × σ} {s : σ}
    (h : ∀ {β : Type} (q : Q β), answer q s = (value q, s)) (p : Program Q ε α) :
    p.run answer s = (p.eval value, s) := by
  induction p with
  | done a => rfl
  | fail e => rfl
  | ask q next ih =>
    simp only [run, eval, h]
    cases value q with
    | ok b => exact ih b
    | error e => rfl

end Program

/-! ## Changes -/

/-- A change of the members of a group: an account is told by its number, a group as it is shown. -/
structure GroupChange where
  kind : AuditEventKind
  actor : AccountId
  subject : AccountId ⊕ String
  date : Instant
  deriving DecidableEq

/-- What an event says. -/
def AuditEvent.change (e : AuditEvent) : GroupChange where
  kind := e.kind
  actor := e.actor.id
  subject := match e.subject with
    | .account info => .inl info.id
    | .group info => .inr info.id
  date := e.date

/-- The changes at the begin and at the end of a period. -/
def periodChanges (begins ends : AuditEventKind) (subject : AccountId ⊕ String)
    (addedBy : AccountId) (addedOn : Instant) (removal : Option Removal) : List GroupChange :=
  ⟨begins, addedBy, subject, addedOn⟩ ::
    (removal.map fun r => ⟨ends, r.removedBy, subject, r.removedOn⟩).toList

/-- The changes that the record of a membership tells. -/
def MemberAuditRecord.changes (r : MemberAuditRecord) : List GroupChange :=
  periodChanges .addUser .removeUser (.inl r.account) r.addedBy r.addedOn r.removal

/-- The changes that the record of an inclusion tells. -/
def SubgroupAuditRecord.changes (r : SubgroupAuditRecord) : List GroupChange :=
  periodChanges .addGroup .removeGroup (.inr r.key.included.displayId) r.addedBy r.key.addedOn
    r.removal

@[simp]
theorem AccountBook.id_shown (book : AccountBook) (id : AccountId) : (book.shown id).id = id := by
  unfold shown
  cases hfound : (book id).filter (·.id = id) with
  | none => rfl
  | some info => exact of_decide_eq_true (Option.filter_eq_some_iff.mp hfound).2

theorem AccountBook.map_change_periodEvents (book : AccountBook) (subject : AuditSubject)
    (begins ends : AuditEventKind) (addedBy : AccountId) (addedOn : Instant)
    (removal : Option Removal) :
    (book.periodEvents subject begins ends addedBy addedOn removal).map AuditEvent.change =
      periodChanges begins ends
        (AuditEvent.change ⟨begins, book.shown addedBy, subject, addedOn⟩).subject addedBy addedOn
        removal := by
  cases removal <;> simp [periodEvents, periodChanges, AuditEvent.change]

/-- The changes that the record of an inclusion tells of the group with this identifier. -/
def SubgroupAuditRecord.changesAs (id : String) (r : SubgroupAuditRecord) : List GroupChange :=
  periodChanges .addGroup .removeGroup (.inr id) r.addedBy r.key.addedOn r.removal

/-- Accounts are told by the numbers that are recorded, and groups as they are shown. -/
theorem map_change_logEvents (members : List MemberAuditRecord)
    (subgroups : List SubgroupAuditRecord) (book : AccountBook) (shown : GroupUuid → GroupInfo) :
    (logEvents members subgroups book shown).map AuditEvent.change =
      members.flatMap MemberAuditRecord.changes ++
        subgroups.flatMap fun r => r.changesAs (shown r.key.included).id := by
  have hmember (r : MemberAuditRecord) : (r.events book).map AuditEvent.change = r.changes := by
    simp only [MemberAuditRecord.events, AccountBook.map_change_periodEvents, AuditEvent.change,
      AccountBook.id_shown, MemberAuditRecord.changes]
  have hsubgroup (r : SubgroupAuditRecord) :
      (r.events book (shown r.key.included)).map AuditEvent.change =
        r.changesAs (shown r.key.included).id := by
    simp only [SubgroupAuditRecord.events, AccountBook.map_change_periodEvents, AuditEvent.change,
      SubgroupAuditRecord.changesAs]
  simp only [logEvents, List.map_append, List.map_flatMap, hmember, hsubgroup]

/-! ## Included groups -/

section

variable (value : {β : Type} → Backend β → Except Failure β)

/-- What a backend tells of the name of the group that owns another. -/
inductive TellsOwner (g : InternalGroup) : Option String → Prop
  | self (own : g.owner = g.uuid) : TellsOwner g (some g.name)
  | other (own : g.owner ≠ g.uuid) {d : Option GroupDescription}
      (described : value (.groupDescription g.owner) = .ok d) :
      TellsOwner g (d.map GroupDescription.name)

/-- What a backend tells of a group: all of it, its name, or nothing. -/
inductive TellsGroup (uuid : GroupUuid) : GroupInfo → Prop
  | internal {g : InternalGroup} {owner : Option String}
      (found : value (.internalGroup uuid) = .ok (some g)) (named : TellsOwner value g owner) :
      TellsGroup uuid (.ofInternal g owner)
  | described {d : GroupDescription} (missing : value (.internalGroup uuid) = .ok none)
      (found : value (.groupDescription uuid) = .ok (some d)) : TellsGroup uuid (.ofDescription d)
  | unknown (missing : value (.internalGroup uuid) = .ok none)
      (unnamed : value (.groupDescription uuid) = .ok none) : TellsGroup uuid (.stub uuid none)

/-- What is remembered is what would be found. -/
structure GroupMemo.Agrees (shown : GroupUuid → GroupInfo) (memo : GroupMemo) : Prop where
  groups : ∀ uuid info, memo.groups.lookup uuid = some info → info = shown uuid
  ownerNames : ∀ owner name, memo.ownerNames.lookup owner = some name →
    ∃ d, value (.groupDescription owner) = .ok d ∧ name = d.map GroupDescription.name

variable {value} {shown : GroupUuid → GroupInfo} {memo : GroupMemo}

theorem GroupMemo.agrees_empty : GroupMemo.empty.Agrees value shown :=
  ⟨fun _ _ h => (nomatch h), fun _ _ h => (nomatch h)⟩

/-- What holds of everything that is remembered still does once more of that kind is. -/
theorem forall_lookup_cons {υ : Type} {P : GroupUuid → υ → Prop} {known : List (GroupUuid × υ)}
    (h : ∀ u x, known.lookup u = some x → P u x) {v : GroupUuid} {y : υ} (hy : P v y) :
    ∀ u x, ((v, y) :: known).lookup u = some x → P u x := by
  intro u x hx
  by_cases hu : u = v
  · subst hu
    rw [List.lookup_cons_self] at hx
    exact Option.some.inj hx ▸ hy
  · rw [List.lookup_cons, beq_eq_false_iff_ne.mpr hu] at hx
    exact h u x hx

theorem eval_ownerName (h : memo.Agrees value shown) {g : InternalGroup} {owner : Option String}
    (hnamed : TellsOwner value g owner) :
    ∃ memo', (ownerName memo g).eval value = .ok (owner, memo') ∧ memo'.Agrees value shown := by
  unfold ownerName
  cases hnamed with
  | self own =>
    rw [if_pos own]
    exact ⟨memo, rfl, h⟩
  | @other own d described =>
    rw [if_neg own]
    cases hknown : memo.ownerNames.lookup g.owner with
    | some name =>
      obtain ⟨d', hd', rfl⟩ := h.ownerNames _ _ hknown
      cases described.symm.trans hd'
      exact ⟨memo, rfl, h⟩
    | none =>
      dsimp only
      rw [Program.eval_bind_of_ok ((Program.eval_query _).trans described)]
      exact ⟨_, rfl, h.groups, forall_lookup_cons h.ownerNames ⟨d, described, rfl⟩⟩

theorem eval_describeGroup (h : memo.Agrees value shown) {uuid : GroupUuid} {info : GroupInfo}
    (htells : TellsGroup value uuid info) :
    ∃ memo', (describeGroup memo uuid).eval value = .ok (info, memo') ∧
      memo'.Agrees value shown := by
  unfold describeGroup
  cases htells with
  | internal found named =>
    rw [Program.eval_bind_of_ok ((Program.eval_query _).trans found)]
    obtain ⟨memo', hname, hmemo'⟩ := eval_ownerName h named
    dsimp only
    rw [Program.eval_bind_of_ok hname]
    exact ⟨memo', rfl, hmemo'⟩
  | described missing found =>
    rw [Program.eval_bind_of_ok ((Program.eval_query _).trans missing)]
    dsimp only
    rw [Program.eval_bind_of_ok ((Program.eval_query _).trans found)]
    exact ⟨memo, rfl, h⟩
  | unknown missing unnamed =>
    rw [Program.eval_bind_of_ok ((Program.eval_query _).trans missing)]
    dsimp only
    rw [Program.eval_bind_of_ok ((Program.eval_query _).trans unnamed)]
    exact ⟨memo, rfl, h⟩

/-- What is remembered of a group is what is told of it. -/
theorem eval_describeOnce (h : memo.Agrees value shown) {uuid : GroupUuid}
    (htells : TellsGroup value uuid (shown uuid)) :
    ∃ memo', (describeOnce memo uuid).eval value = .ok (shown uuid, memo') ∧
      memo'.Agrees value shown := by
  unfold describeOnce
  cases hknown : memo.groups.lookup uuid with
  | some info =>
    obtain rfl := h.groups _ _ hknown
    exact ⟨memo, rfl, h⟩
  | none =>
    obtain ⟨memo', hdescribe, hmemo'⟩ := eval_describeGroup h htells
    dsimp only
    rw [Program.eval_bind_of_ok hdescribe]
    exact ⟨_, rfl, forall_lookup_cons hmemo'.groups rfl, hmemo'.ownerNames⟩

open IdentityLoader in
theorem eval_allSubgroupEvents {l : IdentityLoader} {before : List AccountId}
    (hl : l.Collects before) (h : memo.Agrees value shown) {rs : List SubgroupAuditRecord}
    (htells : ∀ r ∈ rs, TellsGroup value r.key.included (shown r.key.included)) :
    ∃ made, (allSubgroupEvents l memo rs).eval value = .ok made ∧
      Makes before (rs.flatMap SubgroupAuditRecord.accounts)
        (fun book => rs.flatMap fun r => r.events book (shown r.key.included)) made := by
  induction rs generalizing l memo before with
  | nil =>
    exact ⟨([], l), rfl, (List.append_nil before).symm ▸ hl, fun _ he => (nomatch he),
      fun _ => rfl⟩
  | cons r rs ih =>
    obtain ⟨hr, hrs⟩ := List.forall_mem_cons.mp htells
    obtain ⟨memo', hdescribe, hmemo'⟩ := eval_describeOnce h hr
    have hmade := hl.subgroupEvents (shown r.key.included) r
    obtain ⟨made, hmore, hmakes⟩ := ih hmade.collects hmemo' hrs
    rw [allSubgroupEvents, Program.eval_bind_of_ok hdescribe]
    dsimp only
    rw [Program.eval_bind_of_ok hmore]
    exact ⟨_, rfl, hmade.append hmakes⟩

end

/-- A backend that finds groups under the identifiers that it is asked for, without failures. -/
structure FindsGroups (value : {β : Type} → Backend β → Except Failure β) : Prop where
  internalGroup : ∀ uuid, ∃ found, value (.internalGroup uuid) = .ok found ∧
    ∀ g ∈ found, g.uuid = uuid
  groupDescription : ∀ uuid, ∃ found, value (.groupDescription uuid) = .ok found ∧
    ∀ d ∈ found, d.uuid = uuid

/-- Whatever is known of a group, it is shown under its own identifier. -/
theorem FindsGroups.exists_tells {value : {β : Type} → Backend β → Except Failure β}
    (hvalue : FindsGroups value) (uuid : GroupUuid) :
    ∃ info, TellsGroup value uuid info ∧ info.id = uuid.displayId := by
  obtain ⟨found, hfound, hinternal⟩ := hvalue.internalGroup uuid
  cases found with
  | some g =>
    obtain ⟨owner, hnamed⟩ : ∃ owner, TellsOwner value g owner := by
      by_cases own : g.owner = g.uuid
      · exact ⟨_, .self own⟩
      · obtain ⟨d, hd, -⟩ := hvalue.groupDescription g.owner
        exact ⟨_, .other own hd⟩
    exact ⟨_, .internal hfound hnamed, congrArg GroupUuid.displayId (hinternal g rfl)⟩
  | none =>
    obtain ⟨described, hdescribed, hdescription⟩ := hvalue.groupDescription uuid
    cases described with
    | some d =>
      exact ⟨_, .described hfound hdescribed, congrArg GroupUuid.displayId (hdescription d rfl)⟩
    | none => exact ⟨_, .unknown hfound hdescribed, rfl⟩

/-! ## The whole log -/

/-- Once a batch has been looked up, what is shown of its slots is what the book shows. -/
theorem eval_fill {value : {β : Type} → Backend β → Except Failure β} {l : IdentityLoader}
    {book : AccountBook} (hbook : l.ids ≠ [] → value (.accounts l.ids) = .ok book) :
    ∃ l', (IdentityLoader.fill.keep l).eval value = .ok ((), l') ∧
      ∀ e : PendingEvent, e.Stands l → e.resolve l' = e.shown book := by
  have hresolve (book : AccountBook) {e : PendingEvent} (he : e.Stands l) :
      e.resolve (l.fillFrom book) = e.shown book := by
    obtain ⟨kind, actor, subject, date⟩ := e
    obtain ⟨hactor, hsubject⟩ := he
    cases subject with
    | account slot =>
      simp only [PendingEvent.resolve, PendingEvent.shown, PendingSubject.shown,
        IdentityLoader.resolve_fillFrom book hactor, IdentityLoader.resolve_fillFrom book hsubject]
    | group info =>
      simp only [PendingEvent.resolve, PendingEvent.shown, PendingSubject.shown,
        IdentityLoader.resolve_fillFrom book hactor]
  rw [IdentityLoader.keep_fill]
  split
  · next hempty =>
    -- no slot has a place in an empty batch
    refine ⟨_, rfl, fun e he => ?_⟩
    have hnone := he.1
    rw [Slot.Stands, hempty] at hnone
    cases hnone
  · next hsome =>
    refine ⟨l.fillFrom book, ?_, fun e he => hresolve book he⟩
    rw [Program.eval, hbook hsome]
    rfl

/-- The program comes to what is told directly, if none of the questions that are asked fails. -/
theorem eval_auditLog_of_asked {value : {β : Type} → Backend β → Except Failure β}
    {group : GroupUuid} {caller : AccountId} {internal : InternalGroup}
    {members : List MemberAuditRecord} {subgroups : List SubgroupAuditRecord}
    {shown : GroupUuid → GroupInfo} {book : AccountBook}
    (hinternal : value (.internalGroup group) = .ok (some internal))
    (howner : value (.isOwner internal.uuid caller) = .ok true)
    (hmembers : value (.membersAudit internal.uuid) = .ok members)
    (hsubgroups : value (.subgroupsAudit internal.uuid) = .ok subgroups)
    (htells : ∀ r ∈ subgroups, TellsGroup value r.key.included (shown r.key.included))
    (hbook : auditedIds members subgroups ≠ [] →
      value (.accounts (auditedIds members subgroups)) = .ok book) :
    (auditLog group caller).eval value =
      .ok ((logEvents members subgroups book shown).mergeSort AuditEvent.isNotOlder) := by
  have hrequire : (requireInternal group).eval value = .ok internal := by
    rw [requireInternal, Program.eval_bind_of_ok ((Program.eval_query _).trans hinternal)]
    rfl
  have hpass : (requireOwnership internal.uuid caller).eval value = .ok () := by
    rw [requireOwnership, Program.eval_bind_of_ok ((Program.eval_query _).trans howner)]
    rfl
  have hmade := IdentityLoader.collects_empty.allMemberEvents members
  obtain ⟨made, hincluded, hmakes⟩ := eval_allSubgroupEvents hmade.collects
    GroupMemo.agrees_empty htells
  have hall := hmade.append hmakes
  have hids : made.2.ids = auditedIds members subgroups := hall.collects
  rw [← hids] at hbook
  obtain ⟨l', hfill, hresolve⟩ := eval_fill hbook
  rw [auditLog, Program.eval_bind_of_ok hrequire, Program.eval_bind_of_ok hpass,
    Program.eval_bind_of_ok ((Program.eval_query _).trans hmembers),
    Program.eval_bind_of_ok ((Program.eval_query _).trans hsubgroups),
    Program.eval_bind_of_ok hincluded, Program.eval_bind_of_ok hfill]
  have hevents : ((IdentityLoader.empty.allMemberEvents members).1 ++ made.1).map
      (PendingEvent.resolve l') = logEvents members subgroups book shown := by
    rw [List.map_congr_left fun e he => hresolve e (hall.stands e he)]
    exact hall.shown book
  dsimp only
  rw [hevents]
  rfl

/-- The same, where accounts can be looked up in any case. -/
theorem eval_auditLog_eq {value : {β : Type} → Backend β → Except Failure β} {group : GroupUuid}
    {caller : AccountId} {internal : InternalGroup} {members : List MemberAuditRecord}
    {subgroups : List SubgroupAuditRecord} {shown : GroupUuid → GroupInfo} {book : AccountBook}
    (hinternal : value (.internalGroup group) = .ok (some internal))
    (howner : value (.isOwner internal.uuid caller) = .ok true)
    (hmembers : value (.membersAudit internal.uuid) = .ok members)
    (hsubgroups : value (.subgroupsAudit internal.uuid) = .ok subgroups)
    (htells : ∀ r ∈ subgroups, TellsGroup value r.key.included (shown r.key.included))
    (hbook : value (.accounts (auditedIds members subgroups)) = .ok book) :
    (auditLog group caller).eval value =
      .ok ((logEvents members subgroups book shown).mergeSort AuditEvent.isNotOlder) :=
  eval_auditLog_of_asked hinternal howner hmembers hsubgroups htells fun _ => hbook

namespace AuditEvent

theorem isNotOlder_trans (a b c : AuditEvent) (hab : a.isNotOlder b = true)
    (hbc : b.isNotOlder c = true) : a.isNotOlder c = true :=
  decide_eq_true (Instant.le_trans (of_decide_eq_true hbc) (of_decide_eq_true hab))

theorem isNotOlder_total (a b : AuditEvent) : (a.isNotOlder b || b.isNotOlder a) = true := by
  simp only [isNotOlder, Bool.or_eq_true, decide_eq_true_eq]
  exact Instant.le_total b.date a.date

theorem pairwise_mergeSort (events : List AuditEvent) :
    (events.mergeSort isNotOlder).Pairwise fun a b => b.date ≤ a.date :=
  (List.pairwise_mergeSort isNotOlder_trans isNotOlder_total events).imp fun h =>
    of_decide_eq_true h

end AuditEvent

/--
An owner of an internal group is shown exactly the changes that its records
tell, newest first, if the accounts of the records can be looked up.
-/
theorem eval_auditLog {value : {β : Type} → Backend β → Except Failure β}
    (hvalue : FindsGroups value) {group : GroupUuid} {caller : AccountId}
    {internal : InternalGroup} {members : List MemberAuditRecord}
    {subgroups : List SubgroupAuditRecord} {accounts : List AccountId}
    (hinternal : value (.internalGroup group) = .ok (some internal))
    (howner : value (.isOwner group caller) = .ok true)
    (hmembers : value (.membersAudit group) = .ok members)
    (hsubgroups : value (.subgroupsAudit group) = .ok subgroups)
    (hmemberAccounts : ∀ r ∈ members, ∀ a ∈ r.accounts, a ∈ accounts)
    (hsubgroupAccounts : ∀ r ∈ subgroups, ∀ a ∈ r.accounts, a ∈ accounts)
    (haccounts : ∀ ids : List AccountId, ids.Nodup → (∀ a ∈ ids, a ∈ accounts) →
      ∃ book, value (.accounts ids) = .ok book) :
    ∃ events, (auditLog group caller).eval value = .ok events ∧
      (events.map AuditEvent.change).Perm
        (members.flatMap MemberAuditRecord.changes ++
          subgroups.flatMap SubgroupAuditRecord.changes) ∧
      events.Pairwise fun a b => b.date ≤ a.date := by
  obtain ⟨found, hfound, huuid⟩ := hvalue.internalGroup group
  cases hinternal.symm.trans hfound
  cases huuid internal rfl
  obtain ⟨shown, hshown⟩ := Classical.axiomOfChoice hvalue.exists_tells
  have hin : ∀ a ∈ auditedIds members subgroups, a ∈ accounts := by
    intro a ha
    rcases List.mem_append.mp (List.mem_eraseDups.mp ha) with ha | ha
    · obtain ⟨r, hr, ha⟩ := List.mem_flatMap.mp ha
      exact hmemberAccounts r hr a ha
    · obtain ⟨r, hr, ha⟩ := List.mem_flatMap.mp ha
      exact hsubgroupAccounts r hr a ha
  obtain ⟨book, hbook⟩ := haccounts _ (nodup_eraseDups _) hin
  refine ⟨_, eval_auditLog_eq hinternal howner hmembers hsubgroups
    (fun r _ => (hshown r.key.included).1) hbook, ?_, AuditEvent.pairwise_mergeSort _⟩
  refine ((List.mergeSort_perm _ _).map _).trans ?_
  rw [map_change_logEvents]
  simp only [fun uuid => (hshown uuid).2]
  exact .refl _

end AccessLedger
