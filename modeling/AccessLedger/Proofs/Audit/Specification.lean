import AccessLedger.Proofs.Audit.Completeness

/-!
# The audit log does as it is specified

For a backend with fixed answers, the specification of the audit log is short.
The events are those of the records, one after the other: first the
memberships, then the inclusions, each with its begin before its end.  All
accounts are shown by one book, and a group is shown by what the backend tells
of it (`groupShown`).  They are sorted by date, newest first, and events of one
date stay in order, which leaves one list only (`AuditEvent.StablySorted.unique`).
The program answers this list (`audit_log_is_specified`).
-/

namespace AccessLedger

/-- What a backend tells of a group that is looked up by itself. -/
def groupShown (answer : {β : Type} → Backend β → β) (uuid : GroupUuid) : GroupInfo :=
  match answer (.internalGroup uuid) with
  | some g =>
    .ofInternal g <|
      if g.owner = g.uuid then some g.name
      else (answer (.groupDescription g.owner)).map GroupDescription.name
  | none => match answer (.groupDescription uuid) with
    | some d => .ofDescription d
    | none => .stub uuid none

/-- The answers of a backend that never fails. -/
def Backend.answerOk (answer : {β : Type} → Backend β → β) {β : Type} (q : Backend β) :
    Except Failure β :=
  .ok (answer q)

theorem tells_groupShown (answer : {β : Type} → Backend β → β) (uuid : GroupUuid) :
    TellsGroup (Backend.answerOk answer) uuid (groupShown answer uuid) := by
  cases hinternal : answer (.internalGroup uuid) with
  | some g =>
    have hfound : Backend.answerOk answer (.internalGroup uuid) = .ok (some g) :=
      congrArg Except.ok hinternal
    simp only [groupShown, hinternal]
    refine .internal hfound ?_
    split
    · next own => exact .self own
    · next own => exact .other own rfl
  | none =>
    have hmissing : Backend.answerOk answer (.internalGroup uuid) = .ok none :=
      congrArg Except.ok hinternal
    cases hdescription : answer (.groupDescription uuid) with
    | some d =>
      simp only [groupShown, hinternal, hdescription]
      exact .described hmissing (congrArg Except.ok hdescription)
    | none =>
      simp only [groupShown, hinternal, hdescription]
      exact .unknown hmissing (congrArg Except.ok hdescription)

/-! ## Sorting -/

namespace AuditEvent

/-- Events sorted by date, newest first, and those of one date as before. -/
structure StablySorted (events sorted : List AuditEvent) : Prop where
  perm : sorted.Perm events
  newestFirst : sorted.Pairwise fun a b => b.date ≤ a.date
  stable : ∀ t, sorted.filter (·.date = t) = events.filter (·.date = t)

theorem stablySorted_mergeSort (events : List AuditEvent) :
    StablySorted events (events.mergeSort isNotOlder) where
  perm := List.mergeSort_perm events isNotOlder
  newestFirst := pairwise_mergeSort events
  stable t := by
    have hsame : (events.filter (·.date = t)).Pairwise fun a b => a.isNotOlder b = true := by
      refine List.pairwise_of_forall_mem_list fun a ha b hb => ?_
      have hta := of_decide_eq_true (List.mem_filter.mp ha).2
      have htb := of_decide_eq_true (List.mem_filter.mp hb).2
      rw [isNotOlder, hta, htb]
      exact decide_eq_true (Instant.le_refl t)
    have hsub : (events.filter (·.date = t)).Sublist
        ((events.mergeSort isNotOlder).filter (·.date = t)) := by
      have hkept := (List.sublist_mergeSort isNotOlder_trans isNotOlder_total hsame
        List.filter_sublist).filter (·.date = t)
      simpa only [List.filter_filter, Bool.and_self] using hkept
    have hlength := ((List.mergeSort_perm events isNotOlder).filter (·.date = t)).length_eq
    exact (hsub.eq_of_length hlength.symm).symm

theorem mem_of_filter_date {a b : List AuditEvent}
    (h : ∀ t, a.filter (·.date = t) = b.filter (·.date = t)) {e : AuditEvent} (he : e ∈ a) :
    e ∈ b := by
  have hin : e ∈ a.filter (·.date = e.date) := List.mem_filter.mpr ⟨he, decide_eq_true rfl⟩
  rw [h e.date] at hin
  exact (List.mem_filter.mp hin).1

/-- Two lists that are sorted by date are the same if they are so date by date. -/
theorem eq_of_filter_date {a b : List AuditEvent} (ha : a.Pairwise fun x y => y.date ≤ x.date)
    (hb : b.Pairwise fun x y => y.date ≤ x.date)
    (h : ∀ t, a.filter (·.date = t) = b.filter (·.date = t)) : a = b := by
  induction a generalizing b with
  | nil =>
    cases b with
    | nil => rfl
    | cons y b => cases mem_of_filter_date (fun t => (h t).symm) (List.mem_cons_self (a := y))
  | cons x a ih =>
    cases b with
    | nil => cases mem_of_filter_date h (List.mem_cons_self (a := x))
    | cons y b =>
      obtain ⟨hxa, hrest⟩ := List.pairwise_cons.mp ha
      obtain ⟨hyb, hrest'⟩ := List.pairwise_cons.mp hb
      have hxy : x.date ≤ y.date := by
        rcases List.mem_cons.mp (mem_of_filter_date h List.mem_cons_self) with rfl | hin
        · exact Instant.le_refl _
        · exact hyb x hin
      have hyx : y.date ≤ x.date := by
        rcases List.mem_cons.mp (mem_of_filter_date (fun t => (h t).symm) List.mem_cons_self) with
          rfl | hin
        · exact Instant.le_refl _
        · exact hxa y hin
      have hdate := Instant.le_antisymm hxy hyx
      -- both lists begin with the first event of the newest date
      have hfirst := h x.date
      simp only [List.filter_cons, ← hdate, decide_true, if_true] at hfirst
      obtain ⟨rfl, -⟩ := List.cons.inj hfirst
      refine congrArg (x :: ·) (ih hrest hrest' fun t => ?_)
      have ht := h t
      by_cases hxt : x.date = t
      · simp only [List.filter_cons, hxt, decide_true, if_true] at ht
        exact (List.cons.inj ht).2
      · simp only [List.filter_cons, hxt, decide_false, Bool.false_eq_true, if_false] at ht
        exact ht

/-- There is one way only to sort events so. -/
theorem StablySorted.unique {events a b : List AuditEvent} (ha : StablySorted events a)
    (hb : StablySorted events b) : a = b :=
  eq_of_filter_date ha.newestFirst hb.newestFirst fun t => (ha.stable t).trans (hb.stable t).symm

/-- Only the dates of the events matter. -/
theorem stablySorted_iff {events sorted : List AuditEvent} :
    StablySorted events sorted ↔ sorted.Perm events ∧
      (sorted.Pairwise fun a b => b.date ≤ a.date) ∧
      ∀ t ∈ events.map AuditEvent.date,
        sorted.filter (·.date = t) = events.filter (·.date = t) := by
  refine ⟨fun h => ⟨h.perm, h.newestFirst, fun t _ => h.stable t⟩, ?_⟩
  rintro ⟨hperm, hsorted, hstable⟩
  refine ⟨hperm, hsorted, fun t => ?_⟩
  by_cases ht : t ∈ events.map AuditEvent.date
  · exact hstable t ht
  · have hnone : events.filter (·.date = t) = [] := by
      refine List.filter_eq_nil_iff.mpr fun e he hdate => ht ?_
      exact of_decide_eq_true hdate ▸ List.mem_map_of_mem he
    have hperm' := hperm.filter (·.date = t)
    rw [hnone] at hperm' ⊢
    exact hperm'.eq_nil

instance (events sorted : List AuditEvent) : Decidable (StablySorted events sorted) :=
  decidable_of_iff _ stablySorted_iff.symm

end AuditEvent

/-! ## The log -/

/--
A backend has fixed answers and never fails.  An internal group is asked for by
an account that owns it.  Then the program answers the events of the records,
sorted by date: every account is shown as the one book says that is asked for,
and every group as it would be if it were looked up by itself.  Whatever the
book says, the actor of an event and an account that it is about are those that
are recorded.
-/
theorem audit_log_is_specified (answer : {β : Type} → Backend β → β) {group : GroupUuid}
    {caller : AccountId} {internal : InternalGroup}
    (hgroup : answer (.internalGroup group) = some internal)
    (howner : answer (.isOwner internal.uuid caller) = true) {σ : Type} (s : σ) :
    let members := answer (.membersAudit internal.uuid)
    let subgroups := answer (.subgroupsAudit internal.uuid)
    let book := answer (.accounts (auditedIds members subgroups))
    let specified := logEvents members subgroups book (groupShown answer)
    (∃ events, (auditLog group caller).run (fun q s => (Backend.answerOk answer q, s)) s =
        (.ok events, s) ∧ AuditEvent.StablySorted specified events) ∧
      specified.map AuditEvent.change = members.flatMap MemberAuditRecord.changes ++
        subgroups.flatMap fun r => r.changesAs (groupShown answer r.key.included).id := by
  intro members subgroups book specified
  have hvalue : (auditLog group caller).eval (Backend.answerOk answer) =
      .ok (specified.mergeSort AuditEvent.isNotOlder) :=
    eval_auditLog_eq (congrArg Except.ok hgroup) (congrArg Except.ok howner) rfl rfl
      (fun r _ => tells_groupShown answer r.key.included) rfl
  refine ⟨⟨_, ?_, AuditEvent.stablySorted_mergeSort specified⟩, map_change_logEvents _ _ _ _⟩
  rw [Program.run_eq_eval (fun _ => rfl) (auditLog group caller), hvalue]

/--
A backend with two internal groups.  `h` is described only, `i` is owned by it
and included twice, and nobody knows `u`.  The book has an entry for account 2
that is another one's.
-/
def smallBackend : {β : Type} → Backend β → β
  | _, .internalGroup uuid =>
    if uuid = ⟨"g"⟩ then some ⟨⟨"g"⟩, 1, "devs", none, ⟨"g"⟩, false, .start⟩
    else if uuid = ⟨"i"⟩ then some ⟨⟨"i"⟩, 2, "ops", none, ⟨"h"⟩, true, second 1⟩
    else none
  | _, .groupDescription uuid => if uuid = ⟨"h"⟩ then some ⟨⟨"h"⟩, "admins", none⟩ else none
  | _, .isOwner uuid account => uuid = ⟨"g"⟩ && account = ⟨1⟩
  | _, .membersAudit uuid =>
    [⟨uuid, ⟨2⟩, ⟨1⟩, second 3, some ⟨⟨2⟩, second 5⟩⟩, ⟨uuid, ⟨1⟩, ⟨1⟩, second 2, none⟩]
  | _, .subgroupsAudit uuid =>
    [⟨⟨uuid, ⟨"i"⟩, second 3⟩, ⟨1⟩, some ⟨⟨1⟩, second 5⟩⟩, ⟨⟨uuid, ⟨"h"⟩, second 5⟩, ⟨3⟩, none⟩,
     ⟨⟨uuid, ⟨"i"⟩, second 7⟩, ⟨1⟩, none⟩, ⟨⟨uuid, ⟨"u"⟩, second 7⟩, ⟨2⟩, none⟩]
  | _, .accounts _ => fun id =>
    if id = ⟨1⟩ then some ⟨⟨1⟩, some "ann", none, none⟩
    else if id = ⟨2⟩ then some ⟨⟨4⟩, some "dan", none, none⟩
    else none

/-- What is shown of a group that is owned by a described one. -/
def smallGroup : GroupInfo := .ofInternal ⟨⟨"i"⟩, 2, "ops", none, ⟨"h"⟩, true, second 1⟩ "admins"

/-- Account 1 as the book has it. -/
def smallAccount : AccountInfo := ⟨⟨1⟩, some "ann", none, none⟩

/-- The log of the small backend.  Three events of one second stay in order. -/
def smallLog : List AuditEvent :=
  [⟨.addGroup, smallAccount, .group smallGroup, second 7⟩,
   ⟨.addGroup, .stub ⟨2⟩, .group (.stub ⟨"u"⟩ none), second 7⟩,
   ⟨.removeUser, .stub ⟨2⟩, .account (.stub ⟨2⟩), second 5⟩,
   ⟨.removeGroup, smallAccount, .group smallGroup, second 5⟩,
   ⟨.addGroup, .stub ⟨3⟩, .group (.stub ⟨"h"⟩ "admins"), second 5⟩,
   ⟨.addUser, smallAccount, .account (.stub ⟨2⟩), second 3⟩,
   ⟨.addGroup, smallAccount, .group smallGroup, second 3⟩,
   ⟨.addUser, smallAccount, .account smallAccount, second 2⟩]

theorem small_log_is_specified :
    (auditLog ⟨"g"⟩ ⟨1⟩).run (fun q s => (Backend.answerOk smallBackend q, s)) () =
      (.ok smallLog, ()) := by
  obtain ⟨⟨events, hrun, hsorted⟩, -⟩ := @audit_log_is_specified smallBackend ⟨"g"⟩ ⟨1⟩
    ⟨⟨"g"⟩, 1, "devs", none, ⟨"g"⟩, false, .start⟩ (by decide +kernel) (by decide +kernel) Unit ()
  have hlog := hsorted.unique (b := smallLog) (by decide +kernel)
  rw [hrun, hlog]

end AccessLedger
