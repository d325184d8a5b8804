import AccessLedger.Proofs.Audit.Additions
import AccessLedger.Proofs.Store.Result

/-!
# Writes to the members of a group

Accounts and groups are added to a group and removed from it.  The two kinds
of members are written and read in the same way (`Enrolment`), and what a write
comes to depends on the same questions for both: whether the group is internal,
whether there is what is to be added, whether it is in the group, and whether
one of its periods has begun at this very instant.  `Enrolment.Adds` and
`Enrolment.Removes` say what each write comes to; there is one outcome in every
case, and it is the one that the store gives (`member_writes_are_exact`).

A write that has an effect begins one period or closes the only one that
lasts.  This is said of the periods that the audit records of all groups are
read as (`Enrolment.Reads`).
-/

namespace AccessLedger

/-! ## The group -/

/-- With what a group is refused that is not internal. -/
inductive Database.Excludes (db : Database) (group : GroupUuid) : Failure → Prop
  | external (stranger : db.hasGroup group = false) (described : db.describes group = true) :
      Excludes db group (.unsupportedGroup group)
  | unknown (stranger : db.hasGroup group = false) (nowhere : db.describes group = false) :
      Excludes db group (.groupNotFound group)

theorem Database.Excludes.run {db : Database} {group : GroupUuid} {f : Failure}
    (h : db.Excludes group f) :
    (Store.ask (requireInternal group)).run db = (.error f, db) := by
  have hnone (stranger : db.hasGroup group = false) : db.group? group = none :=
    Option.not_isSome_iff_eq_none.mp (Bool.eq_false_iff.mp stranger)
  cases h with
  | external stranger described =>
    rw [Store.run_requireInternal_of_none (hnone stranger)]
    exact congrArg (fun f => (Except.error f, db)) (if_pos described)
  | unknown stranger nowhere =>
    rw [Store.run_requireInternal_of_none (hnone stranger)]
    exact congrArg (fun f => (Except.error f, db)) (if_neg (Bool.eq_false_iff.mp nowhere))

theorem Database.exists_excludes {db : Database} {group : GroupUuid}
    (stranger : db.hasGroup group = false) : ∃ f, db.Excludes group f := by
  cases hdescribed : db.describes group with
  | true => exact ⟨_, .external stranger hdescribed⟩
  | false => exact ⟨_, .unknown stranger hdescribed⟩

/-! ## Members of both kinds -/

/-- How one of the two kinds of members is written and read; `Enrolment.Lawful` has its laws. -/
structure Enrolment (α κ ρ : Type) where
  roll : Roll α κ
  ledger : Database → Ledger (GroupUuid × κ)
  add : GroupUuid → α → AccountId → Instant → StoreProgram Unit
  remove : GroupUuid → α → AccountId → Instant → StoreProgram Unit
  /-- Read the audit records of a group. -/
  audit : GroupUuid → StoreProgram (List ρ)
  record : Stay α → ρ
  /-- Whether there is something to be added. -/
  isThere : Database → α → Bool
  /-- The failure if there is not. -/
  missing : α → Failure
  display : α → String
  isIn : Database → GroupUuid → α → Bool
  /-- Whether a period begins at an instant. -/
  begins : Database → GroupUuid → α → Instant → Bool
  entered : Database → GroupUuid → α → AccountId → Instant → Database
  left : Database → GroupUuid → α → AccountId → Instant → Database

namespace Enrolment

/-- Accounts that are members. -/
def accounts : Enrolment AccountId Scalar MemberAuditRecord where
  roll := memberRoll
  ledger := Database.memberLedger
  add := Store.addMember
  remove := Store.removeMember
  audit := Store.membersAudit
  record := Stay.memberRecord
  isThere := Database.hasAccount
  missing := .accountNotFound
  display := AccountId.display
  isIn := Database.isMember
  begins := Database.memberBegins
  entered := Database.join
  left := Database.leave

/-- Groups that are included. -/
def groups : Enrolment GroupUuid GroupUuid SubgroupAuditRecord where
  roll := includeRoll
  ledger := Database.includeLedger
  add := Store.addSubgroup
  remove := Store.removeSubgroup
  audit := Store.subgroupsAudit
  record := Stay.subgroupRecord
  isThere := Database.describes
  missing := .groupNotFound
  display := GroupUuid.text
  isIn := Database.isIncluded
  begins := Database.includeBegins
  entered := Database.attach
  left := Database.detach

section

variable {α κ ρ : Type} (e : Enrolment α κ ρ) (db : Database) (stays : List (Stay α))
  (group : GroupUuid) (member : α) (actor : AccountId) (now : Instant)

/-- The audit records of all groups are read as these periods. -/
def Reads : Prop :=
  ∀ g, (e.audit g).run db = (.ok ((stays.filter (·.group = g)).map e.record), db)

/-- What an addition comes to. -/
inductive Adds : Except Failure Unit × Database → Prop
  | excluded {f : Failure} (gate : db.Excludes group f) : Adds (.error f, db)
  | missing (internal : db.hasGroup group = true) (nowhere : e.isThere db member = false) :
      Adds (.error (e.missing member), db)
  | again (internal : db.hasGroup group = true) (there : e.isThere db member = true)
      (present : e.isIn db group member = true) : Adds (.ok (), db)
  | clash (internal : db.hasGroup group = true) (there : e.isThere db member = true)
      (absent : e.isIn db group member = false)
      (begun : ∃ s ∈ stays, s.group = group ∧ s.member = member ∧ s.addedOn = now) :
      Adds (.error (.store .database), db)
  | entered (internal : db.hasGroup group = true) (there : e.isThere db member = true)
      (absent : e.isIn db group member = false)
      (fresh : ¬∃ s ∈ stays, s.group = group ∧ s.member = member ∧ s.addedOn = now) :
      Adds (.ok (), e.entered db group member actor now)

/-- What a removal comes to. -/
inductive Removes : Except Failure Unit × Database → Prop
  | excluded {f : Failure} (gate : db.Excludes group f) : Removes (.error f, db)
  | absent (internal : db.hasGroup group = true) (absent : e.isIn db group member = false) :
      Removes (.error (.notMember (e.display member) group), db)
  | left (internal : db.hasGroup group = true) (present : e.isIn db group member = true) :
      Removes (.ok (), e.left db group member actor now)

/-- The member is in the group afterwards, and one more period has begun. -/
structure Enters (db' : Database) : Prop where
  isIn_iff : ∀ g m, e.isIn db' g m = true ↔ e.isIn db g m = true ∨ g = group ∧ m = member
  reads : e.Reads db' (stays ++ [⟨group, member, actor, now, none⟩])

/-- The member is in the group no more, and the only period that has lasted is over. -/
structure Leaves [DecidableEq α] (db' : Database) : Prop where
  isIn_iff : ∀ g m, e.isIn db' g m = true ↔ e.isIn db g m = true ∧ ¬(g = group ∧ m = member)
  reads : ∃ before s after, stays = before ++ s :: after ∧ s.lasts group member = true ∧
    (∀ r ∈ before ++ after, r.lasts group member = false) ∧
    e.Reads db' (before ++ { s with removal := some ⟨actor, now⟩ } :: after)

/-- All that the two writes come to, and what they have done if they have done something. -/
structure Exact [DecidableEq α] : Prop where
  adds : ∀ outcome, (e.add group member actor now).run db = outcome ↔
    e.Adds db stays group member actor now outcome
  removes : ∀ outcome, (e.remove group member actor now).run db = outcome ↔
    e.Removes db group member actor now outcome
  enters : e.Enters db stays group member actor now (e.entered db group member actor now)
  leaves : e.isIn db group member = true →
    e.Leaves db stays group member actor now (e.left db group member actor now)

end

/-! ## The laws of both kinds -/

/-- What both kinds of members have in common. -/
structure Lawful {α κ ρ : Type} [DecidableEq α] [DecidableEq κ] (e : Enrolment α κ ρ) :
    Prop where
  mem_present : ∀ {db : Database} {group : GroupUuid} {member : α},
    (group, e.roll.code member) ∈ (e.ledger db).present ↔ e.isIn db group member = true
  agrees : ∀ {db : Database}, db.LedgersAgree → (e.ledger db).Agrees
  ledger_entered : ∀ (db : Database) (group : GroupUuid) (member : α) (actor : AccountId)
    (now : Instant), e.ledger (e.entered db group member actor now) =
      (e.ledger db).enter (group, e.roll.code member) actor.scalar now.column
  ledger_left : ∀ (db : Database) (group : GroupUuid) (member : α) (actor : AccountId)
    (now : Instant), e.ledger (e.left db group member actor now) =
      (e.ledger db).exit (group, e.roll.code member) actor.scalar now.column
  reads : ∀ {db : Database} {stays : List (Stay α)}, e.roll.Keeps (e.ledger db) stays →
    e.Reads db stays
  begins_iff : ∀ {db : Database} {stays : List (Stay α)}, e.roll.Keeps (e.ledger db) stays →
    ∀ {now : Instant}, now.InFourDigits → ∀ {group : GroupUuid} {member : α},
      e.begins db group member now = true ↔
        ∃ s ∈ stays, s.group = group ∧ s.member = member ∧ s.addedOn = now
  run_add_of_error : ∀ {db : Database} {group : GroupUuid} {f : Failure},
    (Store.ask (requireInternal group)).run db = (.error f, db) →
    ∀ (member : α) (actor : AccountId) (now : Instant),
      (e.add group member actor now).run db = (.error f, db)
  run_remove_of_error : ∀ {db : Database} {group : GroupUuid} {f : Failure},
    (Store.ask (requireInternal group)).run db = (.error f, db) →
    ∀ (member : α) (actor : AccountId) (now : Instant),
      (e.remove group member actor now).run db = (.error f, db)
  run_add : ∀ {db : Database} {group : GroupUuid} {g : InternalGroup},
    (Store.ask (requireInternal group)).run db = (.ok g, db) →
    ∀ (member : α) (actor : AccountId) (now : Instant),
      (e.add group member actor now).run db =
        if e.isThere db member = false then (.error (e.missing member), db)
        else if e.isIn db group member = true then (.ok (), db)
        else if e.begins db group member now = true then (.error (.store .database), db)
        else (.ok (), e.entered db group member actor now)
  run_remove : ∀ {db : Database} {group : GroupUuid} {g : InternalGroup},
    (Store.ask (requireInternal group)).run db = (.ok g, db) →
    ∀ (member : α) (actor : AccountId) (now : Instant),
      (e.remove group member actor now).run db =
        if e.isIn db group member = true then (.ok (), e.left db group member actor now)
        else (.error (.notMember (e.display member) group), db)

theorem lawful_accounts : accounts.Lawful where
  mem_present := Database.mem_memberLedger
  agrees h := h.1
  ledger_entered _ := Database.memberLedger_join
  ledger_left _ := Database.memberLedger_leave
  reads h := Database.run_membersAudit h.periods_eq h.dated
  begins_iff h now hnow group member := by
    refine (Database.memberBegins_iff (Database.memberAudits_eq h.periods_eq) h.dated hnow
      member).trans ?_
    simp [Stay.memberRecord, and_assoc]
  run_add_of_error h _ _ _ := run_bind_of_error h _
  run_remove_of_error h _ _ _ := run_bind_of_error h _
  run_add := Store.run_addMember_eq
  run_remove := Store.run_removeMember

theorem lawful_groups : groups.Lawful where
  mem_present := Database.mem_includeLedger
  agrees h := h.2
  ledger_entered _ := Database.includeLedger_attach
  ledger_left _ := Database.includeLedger_detach
  reads h := Database.run_subgroupsAudit h.periods_eq h.dated
  begins_iff h now hnow group member := by
    refine (Database.includeBegins_iff (Database.includeAudits_eq h.periods_eq) h.dated hnow
      member).trans ?_
    simp [Stay.subgroupRecord, and_assoc]
  run_add_of_error h _ _ _ := run_bind_of_error h _
  run_remove_of_error h _ _ _ := run_bind_of_error h _
  run_add := Store.run_addSubgroup_eq
  run_remove := Store.run_removeSubgroup

/-! ## The outcomes -/

section

variable {α κ ρ : Type} {e : Enrolment α κ ρ} {db : Database} {stays : List (Stay α)}
  {group : GroupUuid} {member : α} {actor : AccountId} {now : Instant}
  {outcome : Except Failure Unit × Database}

/-- An addition comes to something in every case. -/
theorem exists_adds : ∃ outcome, e.Adds db stays group member actor now outcome := by
  cases internal : db.hasGroup group with
  | false =>
    obtain ⟨f, gate⟩ := Database.exists_excludes internal
    exact ⟨_, .excluded gate⟩
  | true =>
    cases there : e.isThere db member with
    | false => exact ⟨_, .missing internal there⟩
    | true =>
      cases inside : e.isIn db group member with
      | true => exact ⟨_, .again internal there inside⟩
      | false =>
        by_cases begun : ∃ s ∈ stays, s.group = group ∧ s.member = member ∧ s.addedOn = now
        · exact ⟨_, .clash internal there inside begun⟩
        · exact ⟨_, .entered internal there inside begun⟩

/-- A removal comes to something in every case. -/
theorem exists_removes : ∃ outcome, e.Removes db group member actor now outcome := by
  cases internal : db.hasGroup group with
  | false =>
    obtain ⟨f, gate⟩ := Database.exists_excludes internal
    exact ⟨_, .excluded gate⟩
  | true =>
    cases inside : e.isIn db group member with
    | false => exact ⟨_, .absent internal inside⟩
    | true => exact ⟨_, .left internal inside⟩

variable [DecidableEq α] [DecidableEq κ] {log : List LogEntry}

/-- What an addition comes to is its outcome. -/
theorem Lawful.run_of_adds (h : e.Lawful) (hrecorded : Recorded db log)
    (hkeeps : e.roll.Keeps (e.ledger db) stays) (hnow : now.InFourDigits)
    (hadds : e.Adds db stays group member actor now outcome) :
    (e.add group member actor now).run db = outcome := by
  have hbegins := @Lawful.begins_iff _ _ _ _ _ _ h _ _ hkeeps _ hnow group member
  cases hadds with
  | excluded gate => exact h.run_add_of_error gate.run member actor now
  | missing internal nowhere =>
    obtain ⟨g, hg⟩ := hrecorded.run_requireInternal internal
    rw [h.run_add hg, if_pos nowhere]
  | again internal there present =>
    obtain ⟨g, hg⟩ := hrecorded.run_requireInternal internal
    rw [h.run_add hg, if_neg (ne_false_of_eq_true there), if_pos present]
  | clash internal there absent begun =>
    obtain ⟨g, hg⟩ := hrecorded.run_requireInternal internal
    rw [h.run_add hg, if_neg (ne_false_of_eq_true there), if_neg (Bool.eq_false_iff.mp absent),
      if_pos (hbegins.mpr begun)]
  | entered internal there absent fresh =>
    obtain ⟨g, hg⟩ := hrecorded.run_requireInternal internal
    rw [h.run_add hg, if_neg (ne_false_of_eq_true there), if_neg (Bool.eq_false_iff.mp absent),
      if_neg (mt hbegins.mp fresh)]

/-- What a removal comes to is its outcome. -/
theorem Lawful.run_of_removes (h : e.Lawful) (hrecorded : Recorded db log)
    (hremoves : e.Removes db group member actor now outcome) :
    (e.remove group member actor now).run db = outcome := by
  cases hremoves with
  | excluded gate => exact h.run_remove_of_error gate.run member actor now
  | absent internal absent =>
    obtain ⟨g, hg⟩ := hrecorded.run_requireInternal internal
    rw [h.run_remove hg, if_neg (Bool.eq_false_iff.mp absent)]
  | left internal present =>
    obtain ⟨g, hg⟩ := hrecorded.run_requireInternal internal
    rw [h.run_remove hg, if_pos present]

/-- Both kinds of members are written with just these outcomes. -/
theorem Lawful.exact (h : e.Lawful) (hrecorded : Recorded db log)
    (hkeeps : e.roll.Keeps (e.ledger db) stays) (hnow : now.InFourDigits) :
    e.Exact db stays group member actor now where
  adds outcome := by
    refine ⟨fun hrun => ?_, h.run_of_adds hrecorded hkeeps hnow⟩
    obtain ⟨_, hadds⟩ := @exists_adds _ _ _ e db stays group member actor now
    obtain rfl := hrun.symm.trans (h.run_of_adds hrecorded hkeeps hnow hadds)
    exact hadds
  removes outcome := by
    refine ⟨fun hrun => ?_, h.run_of_removes hrecorded⟩
    obtain ⟨_, hremoves⟩ := @exists_removes _ _ _ e db group member actor now
    obtain rfl := hrun.symm.trans (h.run_of_removes hrecorded hremoves)
    exact hremoves
  enters := by
    refine ⟨fun g m => ?_, h.reads ?_⟩
    · rw [← h.mem_present, ← h.mem_present, h.ledger_entered, Ledger.mem_present_enter,
        e.roll.key_eq_iff]
    · rw [h.ledger_entered]
      exact hkeeps.enter group member actor hnow
  leaves present := by
    obtain ⟨before, s, after, hstays, hlasts, hothers, hclose⟩ :=
      hkeeps.exists_close (h.agrees hrecorded.ledgers) (h.mem_present.mpr present) ⟨actor, now⟩
    refine ⟨fun g m => ?_, before, s, after, hstays, hlasts, hothers, h.reads ?_⟩
    · rw [← h.mem_present, ← h.mem_present, h.ledger_left, Ledger.mem_present_exit, Ne,
        e.roll.key_eq_iff]
    · rw [h.ledger_left, ← hclose]
      exact hkeeps.exit group member actor hnow

end

end Enrolment

/--
After calls in years of four digits, a member of either kind is added to a
group or removed from it, by whomever.  The outcome is the one that is listed
for what the group, the member and the audit records are like then.
-/
theorem member_writes_are_exact {calls : List Call}
    (hclock : ∀ c ∈ calls, ∀ t ∈ c.readings, t.InFourDigits) {now : Instant} (hnow : now.InFourDigits) (group : GroupUuid) (actor : AccountId) :
    let db := callAll .empty calls
    (∃ stays, Enrolment.accounts.Reads db stays ∧
      ∀ member, Enrolment.accounts.Exact db stays group member actor now) ∧
    ∃ stays, Enrolment.groups.Reads db stays ∧
      ∀ included, Enrolment.groups.Exact db stays group included actor now := by
  intro db
  have hrecorded : Recorded db ([] ++ logOf .empty calls) := Recorded.empty.callAll hclock
  obtain ⟨-, -, ⟨members, hmembers, hmembersDated, -⟩, ⟨includes, hincludes, hincludesDated, -⟩,
    -⟩ := hrecorded.trail
  have haccounts := Enrolment.lawful_accounts
  have hgroups := Enrolment.lawful_groups
  exact ⟨⟨members, haccounts.reads ⟨hmembers, hmembersDated⟩,
      fun _ => haccounts.exact hrecorded ⟨hmembers, hmembersDated⟩ hnow⟩,
    includes, hgroups.reads ⟨hincludes, hincludesDated⟩,
      fun _ => hgroups.exact hrecorded ⟨hincludes, hincludesDated⟩ hnow⟩

/--
Account 2 has been in the group and was added to it in second 3, account 1 is
still in it, there is no account 7, and group `h` is not internal.
-/
theorem visit_writes_are_judged :
    let db := callAll .empty visitCalls
    (Store.addMember ⟨"g"⟩ ⟨7⟩ ⟨1⟩ (second 3)).run db = (.error (.accountNotFound ⟨7⟩), db) ∧
      (Store.addMember ⟨"g"⟩ ⟨2⟩ ⟨1⟩ (second 3)).run db = (.error (.store .database), db) ∧
      (Store.removeMember ⟨"g"⟩ ⟨2⟩ ⟨1⟩ (second 3)).run db = (.error (.notMember "2" ⟨"g"⟩), db) ∧
      (Store.removeMember ⟨"g"⟩ ⟨1⟩ ⟨9⟩ (second 3)).run db =
        (.ok (), db.leave ⟨"g"⟩ ⟨1⟩ ⟨9⟩ (second 3)) ∧
      (Store.addSubgroup ⟨"g"⟩ ⟨"h"⟩ ⟨1⟩ (second 3)).run db = (.ok (), db) ∧
      (Store.addSubgroup ⟨"h"⟩ ⟨"g"⟩ ⟨1⟩ (second 3)).run db =
        (.error (.unsupportedGroup ⟨"h"⟩), db) := by
  intro db
  have hclock : ∀ c ∈ visitCalls, ∀ t ∈ c.readings, t.InFourDigits := by
    decide +kernel
  have hnow : (second 3).InFourDigits := by
    decide +kernel
  have hinternal : db.hasGroup ⟨"g"⟩ = true := by
    decide +kernel
  have haudit : ((Store.membersAudit ⟨"g"⟩).run db).1.toOption.any
      (·.any fun r => r.account = ⟨2⟩ && r.addedOn = second 3) = true := by
    decide +kernel
  obtain ⟨⟨stays, hreads, haccounts⟩, _, -, hgroups⟩ :=
    member_writes_are_exact hclock hnow ⟨"g"⟩ ⟨1⟩
  obtain ⟨⟨_, -, hother⟩, -⟩ := member_writes_are_exact hclock hnow ⟨"g"⟩ ⟨9⟩
  obtain ⟨-, _, -, hexternal⟩ := member_writes_are_exact hclock hnow ⟨"h"⟩ ⟨1⟩
  have hbegun : ∃ s ∈ stays, s.group = ⟨"g"⟩ ∧ s.member = ⟨2⟩ ∧ s.addedOn = second 3 := by
    have hread : (Store.membersAudit ⟨"g"⟩).run db = _ := hreads ⟨"g"⟩
    rw [hread] at haudit
    simp only [Except.toOption, Option.any_some, List.any_eq_true, Bool.and_eq_true,
      decide_eq_true_eq] at haudit
    obtain ⟨r, hr, hmember, hbegin⟩ := haudit
    obtain ⟨s, hs, rfl⟩ := List.mem_map.mp hr
    obtain ⟨hs, hgroup⟩ := List.mem_filter.mp hs
    exact ⟨s, hs, of_decide_eq_true hgroup, hmember, hbegin⟩
  exact ⟨((haccounts ⟨7⟩).adds _).mpr (.missing hinternal (by decide +kernel)),
    ((haccounts ⟨2⟩).adds _).mpr
      (.clash hinternal (by decide +kernel) (by decide +kernel) hbegun),
    ((haccounts ⟨2⟩).removes _).mpr (.absent hinternal (by decide +kernel)),
    ((hother ⟨1⟩).removes _).mpr (.left hinternal (by decide +kernel)),
    ((hgroups ⟨"h"⟩).adds _).mpr (.again hinternal (by decide +kernel) (by decide +kernel)),
    ((hexternal ⟨"g"⟩).adds _).mpr (.excluded (.external (by decide +kernel) (by decide +kernel)))⟩

end AccessLedger
