import AccessLedger.Proofs.Audit.Sources
import Mathlib.Data.List.Nodup

/-!
# The order of records does not matter

Two backends may tell the same records of a group in different orders
(`Backend.AlikeUpToOrder`).  Then slots have other numbers, other groups are
remembered when they are looked up, and the batch of accounts has another
order, but the sources of the two logs tell the same events
(`LogSource.Reorders.perm_events`).  A sort by date leaves open only how the
events of one date stand to each other (`AuditEvent.agreeByDate_mergeSort`), so
that is all in which the logs differ (`record_order_does_not_matter`).
-/

namespace AccessLedger

/-! ## Backends -/

/-- Two answers list the same things, or are the same failure. -/
inductive Reordered {α : Type} : Except Failure (List α) → Except Failure (List α) → Prop
  | ok {l l' : List α} (perm : l.Perm l') : Reordered (.ok l) (.ok l')
  | error (e : Failure) : Reordered (.error e) (.error e)

namespace Reordered

variable {α : Type} {r r' : Except Failure (List α)} {l : List α}

theorem symm (h : Reordered r r') : Reordered r' r := by
  cases h with
  | ok perm => exact .ok perm.symm
  | error e => exact .error e

theorem exists_perm (h : Reordered r r') (hr : r = .ok l) : ∃ l', r' = .ok l' ∧ l.Perm l' := by
  cases h with
  | ok perm =>
    cases hr
    exact ⟨_, rfl, perm⟩
  | error e => cases hr

end Reordered

namespace Backend

/-- Two backends give the same answers, but list audit records in orders of their own. -/
structure AlikeUpToOrder (value value' : {β : Type} → Backend β → Except Failure β) : Prop where
  internalGroup : ∀ uuid, value (.internalGroup uuid) = value' (.internalGroup uuid)
  groupDescription : ∀ uuid, value (.groupDescription uuid) = value' (.groupDescription uuid)
  isOwner : ∀ uuid account, value (.isOwner uuid account) = value' (.isOwner uuid account)
  membersAudit : ∀ uuid, Reordered (value (.membersAudit uuid)) (value' (.membersAudit uuid))
  subgroupsAudit : ∀ uuid, Reordered (value (.subgroupsAudit uuid)) (value' (.subgroupsAudit uuid))
  accounts : ∀ ids, value (.accounts ids) = value' (.accounts ids)

/-- What is told of an account does not depend on which others are looked up with it. -/
def TellsEach (value : {β : Type} → Backend β → Except Failure β) (told : AccountBook) : Prop :=
  ∀ ids book, value (.accounts ids) = .ok book → ∀ id ∈ ids, book id = told id

/-- Whether accounts can be looked up does not depend on their order. -/
def FindsInAnyOrder (value : {β : Type} → Backend β → Except Failure β) : Prop :=
  ∀ ids ids' : List AccountId, ids.Perm ids' →
    (value (.accounts ids)).isOk = (value (.accounts ids')).isOk

/-- The log that is answered if a backend has fixed answers. -/
def logFor (value : {β : Type} → Backend β → Except Failure β) (group : GroupUuid)
    (caller : AccountId) : Except Failure (List AuditEvent) :=
  ((auditLog group caller).run (fun q (s : Unit) => (value q, s)) ()).1

variable {value value' : {β : Type} → Backend β → Except Failure β}

theorem logFor_eq_ok_iff {group : GroupUuid} {caller : AccountId} {events : List AuditEvent} :
    logFor value group caller = .ok events ↔
      ∃ s : LogSource, s.ToldBy value group caller ∧ s.log = events := by
  rw [logFor, Program.run_eq_eval (fun _ => rfl), eval_auditLog_eq_ok_iff]

theorem isOk_logFor_iff {group : GroupUuid} {caller : AccountId} :
    (logFor value group caller).isOk = true ↔ ∃ s : LogSource, s.ToldBy value group caller := by
  constructor
  · intro hok
    cases hlog : logFor value group caller with
    | ok events =>
      obtain ⟨s, hs, -⟩ := logFor_eq_ok_iff.mp hlog
      exact ⟨s, hs⟩
    | error e =>
      rw [hlog] at hok
      cases hok
  · rintro ⟨s, hs⟩
    rw [logFor_eq_ok_iff.mpr ⟨s, hs, rfl⟩]
    rfl

theorem AlikeUpToOrder.symm (h : AlikeUpToOrder value value') : AlikeUpToOrder value' value where
  internalGroup uuid := (h.internalGroup uuid).symm
  groupDescription uuid := (h.groupDescription uuid).symm
  isOwner uuid account := (h.isOwner uuid account).symm
  membersAudit uuid := (h.membersAudit uuid).symm
  subgroupsAudit uuid := (h.subgroupsAudit uuid).symm
  accounts ids := (h.accounts ids).symm

theorem AlikeUpToOrder.findsInAnyOrder (h : AlikeUpToOrder value value')
    (hfinds : FindsInAnyOrder value) : FindsInAnyOrder value' := by
  intro ids ids' hids
  have hfound := congrArg Except.isOk (h.accounts ids)
  have hfound' := congrArg Except.isOk (h.accounts ids')
  exact hfound.symm.trans ((hfinds ids ids' hids).trans hfound')

theorem findsInAnyOrder_of_answers {answer : {β : Type} → Backend β → β}
    (hanswer : ∀ {β : Type} (q : Backend β), value q = .ok (answer q)) : FindsInAnyOrder value := by
  intro ids ids' _
  have hfound := congrArg Except.isOk (hanswer (.accounts ids))
  have hfound' := congrArg Except.isOk (hanswer (.accounts ids'))
  exact hfound.trans hfound'.symm

end Backend

/-! ## Groups -/

section

variable {value value' : {β : Type} → Backend β → Except Failure β}

theorem TellsOwner.congr
    (hdescription : ∀ uuid, value (.groupDescription uuid) = value' (.groupDescription uuid))
    {g : InternalGroup} {owner : Option String} (h : TellsOwner value g owner) :
    TellsOwner value' g owner := by
  cases h with
  | self own => exact .self own
  | other own described => exact .other own ((hdescription _).symm.trans described)

/-- Backends that find the same groups tell the same of them. -/
theorem TellsGroup.congr
    (hinternal : ∀ uuid, value (.internalGroup uuid) = value' (.internalGroup uuid))
    (hdescription : ∀ uuid, value (.groupDescription uuid) = value' (.groupDescription uuid))
    {uuid : GroupUuid} {info : GroupInfo} (h : TellsGroup value uuid info) :
    TellsGroup value' uuid info := by
  cases h with
  | internal found named =>
    exact .internal ((hinternal _).symm.trans found) (named.congr hdescription)
  | described missing found =>
    exact .described ((hinternal _).symm.trans missing) ((hdescription _).symm.trans found)
  | unknown missing unnamed =>
    exact .unknown ((hinternal _).symm.trans missing) ((hdescription _).symm.trans unnamed)

/-- A backend tells one thing of a group, since the program that asks for it has one value. -/
theorem TellsGroup.unique {uuid : GroupUuid} {info info' : GroupInfo}
    (h : TellsGroup value uuid info) (h' : TellsGroup value uuid info') : info = info' := by
  have hempty : GroupMemo.empty.Agrees value fun _ => info := GroupMemo.agrees_empty
  obtain ⟨memo, hmemo, -⟩ := eval_describeGroup hempty h
  obtain ⟨memo', hmemo', -⟩ := eval_describeGroup hempty h'
  exact congrArg Prod.fst (Except.ok.inj (hmemo.symm.trans hmemo'))

end

/-! ## Accounts -/

theorem nodup_auditedIds (members : List MemberAuditRecord) (subgroups : List SubgroupAuditRecord) :
    (auditedIds members subgroups).Nodup := nodup_eraseDups _

theorem auditedIds_perm {members members' : List MemberAuditRecord}
    {subgroups subgroups' : List SubgroupAuditRecord} (hmembers : members.Perm members')
    (hsubgroups : subgroups.Perm subgroups') :
    (auditedIds members subgroups).Perm (auditedIds members' subgroups') := by
  refine (List.perm_ext_iff_of_nodup (nodup_auditedIds _ _) (nodup_auditedIds _ _)).mpr fun id => ?_
  simp only [mem_auditedIds, hmembers.mem_iff, hsubgroups.mem_iff]

section

variable {book book' : AccountBook}

theorem AccountBook.shown_congr {id : AccountId} (h : book id = book' id) :
    book.shown id = book'.shown id := by
  rw [shown, shown, h]

theorem AccountBook.periodEvents_congr {addedBy : AccountId} {removal : Option Removal}
    (h : ∀ id ∈ periodAccounts addedBy removal, book id = book' id) (subject : AuditSubject)
    (begins ends : AuditEventKind) (addedOn : Instant) :
    book.periodEvents subject begins ends addedBy addedOn removal =
      book'.periodEvents subject begins ends addedBy addedOn removal := by
  obtain ⟨hadder, hremover⟩ := List.forall_mem_cons.mp h
  cases removal with
  | none => simp only [periodEvents, shown_congr hadder, Option.map_none]
  | some r =>
    have hr := hremover r.removedBy (List.mem_singleton.mpr rfl)
    simp only [periodEvents, shown_congr hadder, Option.map_some, shown_congr hr]

/-- The events of a record depend on what is known of its own accounts only. -/
theorem MemberAuditRecord.events_congr {r : MemberAuditRecord}
    (h : ∀ id ∈ r.accounts, book id = book' id) : r.events book = r.events book' := by
  obtain ⟨hmember, hperiod⟩ := List.forall_mem_cons.mp h
  rw [events, events, AccountBook.shown_congr hmember, AccountBook.periodEvents_congr hperiod]

theorem SubgroupAuditRecord.events_congr {r : SubgroupAuditRecord}
    (h : ∀ id ∈ r.accounts, book id = book' id) (info : GroupInfo) :
    r.events book info = r.events book' info :=
  AccountBook.periodEvents_congr h _ _ _ _

end

/-! ## Sources -/

/-- Two sources have the same records, and show the same of what the records name. -/
structure LogSource.Reorders (s s' : LogSource) : Prop where
  members : s.members.Perm s'.members
  subgroups : s.subgroups.Perm s'.subgroups
  shown : ∀ r ∈ s.subgroups, s.shown r.key.included = s'.shown r.key.included
  book : ∀ id ∈ s.ids, s.book id = s'.book id

namespace LogSource

theorem Reorders.perm_events {s s' : LogSource} (h : s.Reorders s') : s.events.Perm s'.events := by
  have hmembers : s.members.flatMap (·.events s.book) = s.members.flatMap (·.events s'.book) := by
    refine List.flatMap_congr fun r hr => MemberAuditRecord.events_congr fun id hid => ?_
    exact h.book id (mem_auditedIds.mpr (.inl ⟨r, hr, hid⟩))
  have hsubgroups : (s.subgroups.flatMap fun r => r.events s.book (s.shown r.key.included)) =
      s.subgroups.flatMap fun r => r.events s'.book (s'.shown r.key.included) := by
    refine List.flatMap_congr fun r hr => ?_
    rw [h.shown r hr]
    refine SubgroupAuditRecord.events_congr (fun id hid => ?_) _
    exact h.book id (mem_auditedIds.mpr (.inr ⟨r, hr, hid⟩))
  rw [events, logEvents, hmembers, hsubgroups]
  exact (h.members.flatMap_right _).append (h.subgroups.flatMap_right _)

variable {value value' : {β : Type} → Backend β → Except Failure β} {group : GroupUuid}
  {caller : AccountId} {s s' : LogSource}

/-- Backends that are alike tell the same source, in different orders. -/
theorem ToldBy.reorders (hs : s.ToldBy value group caller) (hs' : s'.ToldBy value' group caller)
    (halike : Backend.AlikeUpToOrder value value') {told : AccountBook}
    (htold : Backend.TellsEach value told) : s.Reorders s' := by
  have hgroup : s.internal = s'.internal := by
    have hfound := (hs.internal.symm.trans (halike.internalGroup group)).trans hs'.internal
    exact Option.some.inj (Except.ok.inj hfound)
  have hmembers : s.members.Perm s'.members := by
    obtain ⟨l, hl, hperm⟩ := (halike.membersAudit _).exists_perm hs.members
    rw [hgroup, hs'.members] at hl
    cases hl
    exact hperm
  have hsubgroups : s.subgroups.Perm s'.subgroups := by
    obtain ⟨l, hl, hperm⟩ := (halike.subgroupsAudit _).exists_perm hs.subgroups
    rw [hgroup, hs'.subgroups] at hl
    cases hl
    exact hperm
  refine ⟨hmembers, hsubgroups, fun r hr => ?_, fun id hid => ?_⟩
  · have hshown := (hs.shown r hr).congr halike.internalGroup halike.groupDescription
    exact hshown.unique (hs'.shown r (hsubgroups.mem_iff.mp hr))
  · have hid' : id ∈ s'.ids := (auditedIds_perm hmembers hsubgroups).mem_iff.mp hid
    have hbook := htold _ _ (hs.book (List.ne_nil_of_mem hid)) id hid
    have hbook' := (halike.accounts _).trans (hs'.book (List.ne_nil_of_mem hid'))
    exact hbook.trans (htold _ _ hbook' id hid').symm

/-- What one of them tells, the other one tells in some order. -/
theorem ToldBy.exists_alike (hs : s.ToldBy value group caller)
    (halike : Backend.AlikeUpToOrder value value') (hfinds : Backend.FindsInAnyOrder value) :
    ∃ s' : LogSource, s'.ToldBy value' group caller := by
  obtain ⟨members, hread, hmembers⟩ := (halike.membersAudit _).exists_perm hs.members
  obtain ⟨subgroups, hread', hsubgroups⟩ := (halike.subgroupsAudit _).exists_perm hs.subgroups
  have hids : s.ids.Perm (auditedIds members subgroups) := auditedIds_perm hmembers hsubgroups
  obtain ⟨book, hbook⟩ : ∃ book, auditedIds members subgroups ≠ [] →
      value' (.accounts (auditedIds members subgroups)) = .ok book := by
    cases hlookup : value' (.accounts (auditedIds members subgroups)) with
    | ok book => exact ⟨book, fun _ => rfl⟩
    | error e =>
      refine ⟨s.book, fun hsome => ?_⟩
      have hok : (value (.accounts s.ids)).isOk =
          (value (.accounts (auditedIds members subgroups))).isOk := hfinds _ _ hids
      have hasked : s.ids ≠ [] := by
        intro hempty
        rw [hempty] at hids
        exact hsome hids.nil_eq.symm
      rw [hs.book hasked, halike.accounts, hlookup] at hok
      cases hok
  refine ⟨⟨s.internal, members, subgroups, s.shown, book⟩, ?_, ?_, hread, hread', fun r hr => ?_,
    hbook⟩
  · exact (halike.internalGroup group).symm.trans hs.internal
  · exact (halike.isOwner _ caller).symm.trans hs.owner
  · exact (hs.shown r (hsubgroups.mem_iff.mpr hr)).congr halike.internalGroup
      halike.groupDescription

end LogSource

/-! ## Logs -/

namespace AuditEvent

/--
Two lists have the same events, and the events of each date stand at the same
places.
-/
structure AgreeByDate (a b : List AuditEvent) : Prop where
  perm : a.Perm b
  places : a.map AuditEvent.date = b.map AuditEvent.date
  sameDate : ∀ t, (a.filter (·.date = t)).Perm (b.filter (·.date = t))
  distinct : (a.map AuditEvent.date).Nodup → a = b

theorem agreeByDate_mergeSort {a b : List AuditEvent} (h : a.Perm b) :
    AgreeByDate (a.mergeSort isNotOlder) (b.mergeSort isNotOlder) := by
  have hsorted := pairwise_mergeSort a
  have hsorted' := pairwise_mergeSort b
  have hperm := ((List.mergeSort_perm a isNotOlder).trans h).trans
    (List.mergeSort_perm b isNotOlder).symm
  refine ⟨hperm, ?_, fun t => hperm.filter _, fun hnodup => ?_⟩
  · have hdates : (a.mergeSort isNotOlder).map AuditEvent.date |>.Pairwise fun t u => u ≤ t :=
      List.pairwise_map.mpr hsorted
    have hdates' : (b.mergeSort isNotOlder).map AuditEvent.date |>.Pairwise fun t u => u ≤ t :=
      List.pairwise_map.mpr hsorted'
    refine (hperm.map AuditEvent.date).eq_of_pairwise (fun t u _ _ htu hut => ?_) hdates hdates'
    exact Instant.le_antisymm hut htu
  · refine hperm.eq_of_pairwise (fun x y hx hy hxy hyx => ?_) hsorted hsorted'
    exact List.inj_on_of_nodup_map hnodup hx (hperm.mem_iff.mpr hy) (Instant.le_antisymm hyx hxy)

end AuditEvent

section

variable {value value' : {β : Type} → Backend β → Except Failure β} {group : GroupUuid}
  {caller : AccountId}

/-- What the log of an internal group is made from if a backend never fails. -/
def LogSource.ofAnswers (answer : {β : Type} → Backend β → β) (internal : InternalGroup) :
    LogSource where
  internal := internal
  members := answer (.membersAudit internal.uuid)
  subgroups := answer (.subgroupsAudit internal.uuid)
  shown := groupShown answer
  book := answer <| .accounts <|
    auditedIds (answer (.membersAudit internal.uuid)) (answer (.subgroupsAudit internal.uuid))

theorem LogSource.toldBy_ofAnswers {answer : {β : Type} → Backend β → β}
    (hanswer : ∀ {β : Type} (q : Backend β), value q = .ok (answer q)) {internal : InternalGroup}
    (hinternal : answer (.internalGroup group) = some internal)
    (howner : answer (.isOwner internal.uuid caller) = true) :
    (LogSource.ofAnswers answer internal).ToldBy value group caller where
  internal := hinternal ▸ hanswer (.internalGroup group)
  owner := howner ▸ hanswer (.isOwner internal.uuid caller)
  members := hanswer _
  subgroups := hanswer _
  shown _ _ :=
    (tells_groupShown answer _).congr (fun _ => (hanswer _).symm) fun _ => (hanswer _).symm
  book _ := hanswer _

/-- There is one way only to sort the events of a source, so that is the log. -/
theorem Backend.logFor_answerOk {answer : {β : Type} → Backend β → β} {internal : InternalGroup}
    (hinternal : answer (.internalGroup group) = some internal)
    (howner : answer (.isOwner internal.uuid caller) = true) {events : List AuditEvent}
    (hsorted : AuditEvent.StablySorted (LogSource.ofAnswers answer internal).events events) :
    logFor (answerOk answer) group caller = .ok events := by
  have htold : (LogSource.ofAnswers answer internal).ToldBy (answerOk answer) group caller :=
    LogSource.toldBy_ofAnswers (fun _ => rfl) hinternal howner
  have hlog := (AuditEvent.stablySorted_mergeSort _).unique hsorted
  exact logFor_eq_ok_iff.mpr ⟨_, htold, hlog⟩

end

/--
Two backends give the same answers, except for the orders of audit records, and
tell of each account the same in every batch.  Their logs of a group agree date
by date, and if no date occurs twice they are the same list.  There is a log for
both or for none of them if whether accounts are found does not depend on their
order.  Both have one for an owner of an internal group if they never fail.
-/
theorem record_order_does_not_matter {value value' : {β : Type} → Backend β → Except Failure β}
    (halike : Backend.AlikeUpToOrder value value') {told : AccountBook}
    (htold : Backend.TellsEach value told) (group : GroupUuid) (caller : AccountId) :
    let log := Backend.logFor value group caller
    let log' := Backend.logFor value' group caller
    (∀ events events', log = .ok events → log' = .ok events' →
      AuditEvent.AgreeByDate events events') ∧
    (Backend.FindsInAnyOrder value → log.isOk = log'.isOk) ∧
    ∀ answer : {β : Type} → Backend β → β,
      (∀ {β : Type} (q : Backend β), value q = .ok (answer q)) → ∀ internal,
        answer (.internalGroup group) = some internal →
          answer (.isOwner internal.uuid caller) = true → log.isOk = true ∧ log'.isOk = true := by
  intro log log'
  have hboth (hfinds : Backend.FindsInAnyOrder value) : log.isOk = log'.isOk := by
    rw [Bool.eq_iff_iff, Backend.isOk_logFor_iff, Backend.isOk_logFor_iff]
    constructor
    · rintro ⟨s, hs⟩
      exact hs.exists_alike halike hfinds
    · rintro ⟨s', hs'⟩
      exact hs'.exists_alike halike.symm (halike.findsInAnyOrder hfinds)
  refine ⟨fun events events' hevents hevents' => ?_, hboth, ?_⟩
  · obtain ⟨s, hs, rfl⟩ := Backend.logFor_eq_ok_iff.mp hevents
    obtain ⟨s', hs', rfl⟩ := Backend.logFor_eq_ok_iff.mp hevents'
    exact AuditEvent.agreeByDate_mergeSort (hs.reorders hs' halike htold).perm_events
  · intro answer hanswer internal hinternal howner
    have hok : log.isOk = true :=
      Backend.isOk_logFor_iff.mpr ⟨_, LogSource.toldBy_ofAnswers hanswer hinternal howner⟩
    exact ⟨hok, hboth (Backend.findsInAnyOrder_of_answers hanswer) ▸ hok⟩

/-- The small backend, which lists its records the other way round. -/
def backwardBackend : {β : Type} → Backend β → β
  | _, .membersAudit uuid => (smallBackend (.membersAudit uuid)).reverse
  | _, .subgroupsAudit uuid => (smallBackend (.subgroupsAudit uuid)).reverse
  | _, q => smallBackend q

/-- The log of the backward backend. -/
def backwardLog : List AuditEvent :=
  [⟨.addGroup, .stub ⟨2⟩, .group (.stub ⟨"u"⟩ none), second 7⟩,
   ⟨.addGroup, smallAccount, .group smallGroup, second 7⟩,
   ⟨.removeUser, .stub ⟨2⟩, .account (.stub ⟨2⟩), second 5⟩,
   ⟨.addGroup, .stub ⟨3⟩, .group (.stub ⟨"h"⟩ "admins"), second 5⟩,
   ⟨.removeGroup, smallAccount, .group smallGroup, second 5⟩,
   ⟨.addUser, smallAccount, .account (.stub ⟨2⟩), second 3⟩,
   ⟨.addGroup, smallAccount, .group smallGroup, second 3⟩,
   ⟨.addUser, smallAccount, .account smallAccount, second 2⟩]

/-- The logs of the two backends differ in the events of two of the dates. -/
theorem backward_records_agree :
    Backend.logFor (Backend.answerOk smallBackend) ⟨"g"⟩ ⟨1⟩ = .ok smallLog ∧
      Backend.logFor (Backend.answerOk backwardBackend) ⟨"g"⟩ ⟨1⟩ = .ok backwardLog ∧
      smallLog ≠ backwardLog ∧ AuditEvent.AgreeByDate smallLog backwardLog := by
  let internal : InternalGroup := ⟨⟨"g"⟩, 1, "devs", none, ⟨"g"⟩, false, .start⟩
  have hlog : Backend.logFor (Backend.answerOk smallBackend) ⟨"g"⟩ ⟨1⟩ = .ok smallLog :=
    @Backend.logFor_answerOk ⟨"g"⟩ ⟨1⟩ smallBackend internal (by decide +kernel)
      (by decide +kernel) _ (by decide +kernel)
  have hlog' : Backend.logFor (Backend.answerOk backwardBackend) ⟨"g"⟩ ⟨1⟩ = .ok backwardLog :=
    @Backend.logFor_answerOk ⟨"g"⟩ ⟨1⟩ backwardBackend internal (by decide +kernel)
      (by decide +kernel) _ (by decide +kernel)
  have halike : Backend.AlikeUpToOrder (Backend.answerOk smallBackend)
      (Backend.answerOk backwardBackend) := by
    refine ⟨fun _ => rfl, fun _ => rfl, fun _ _ => rfl, fun _ => ?_, fun _ => ?_, fun _ => rfl⟩
    · exact .ok (List.reverse_perm _).symm
    · exact .ok (List.reverse_perm _).symm
  have htold : Backend.TellsEach (Backend.answerOk smallBackend) (smallBackend (.accounts [])) := by
    intro ids book hbook id _
    cases hbook
    rfl
  obtain ⟨hagree, -, -⟩ := record_order_does_not_matter halike htold ⟨"g"⟩ ⟨1⟩
  exact ⟨hlog, hlog', by decide +kernel, hagree _ _ hlog hlog'⟩

end AccessLedger
