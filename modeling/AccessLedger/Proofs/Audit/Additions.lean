import AccessLedger.Proofs.Audit.Completeness

/-!
# When an addition is refused

The audit row of a member is found by the group, the member and the instant at
which its period begins, and there may not be two such rows.  So someone who
has been added and removed cannot be added again while the clock still shows
what it showed at the addition: the row of the new period would be the second
one.  Different instants are written differently (`Instant.column_inj`), and all
else has been checked before, so that is the only reason for which an addition
can be refused (`additions_clash_in_one_instant`).  It does not arise once the
clock has gone on, since periods begin when calls are made
(`Stay.mem_dates`).
-/

namespace AccessLedger

/-- Different instants are written differently. -/
theorem Instant.column_inj {t u : Instant} (ht : t.InFourDigits) (hu : u.InFourDigits)
    (h : t.column = u.column) : t = u := by
  have hread := Timestamp.strict?_column ht
  rw [h, Timestamp.strict?_column hu] at hread
  exact (Option.some.inj hread).symm

/-! ## Rows that may not be added -/

namespace Database

/-- Whether a period of this member of the group begins at an instant. -/
def memberBegins (db : Database) (group : GroupUuid) (member : AccountId) (now : Instant) : Bool :=
  db.memberAudits.any fun r =>
    r.group = group && r.account = member.scalar && r.addedOn = now.column

/-- Whether a period of this group in the other one begins at an instant. -/
def includeBegins (db : Database) (group included : GroupUuid) (now : Instant) : Bool :=
  db.includeAudits.any fun r =>
    r.group = group && r.included = included && r.addedOn = now.column

variable {db : Database} {group : GroupUuid} {now : Instant}

theorem beginMembership_eq (member addedBy : AccountId) :
    db.beginMembership group member addedBy now =
      if db.isMember group member = true then (.ok false, db)
      else if db.memberBegins group member now = true then db.refuse
      else (.ok true, db.join group member addedBy now) := rfl

theorem beginInclusion_eq (included : GroupUuid) (addedBy : AccountId) :
    db.beginInclusion group included addedBy now =
      if db.isIncluded group included = true then (.ok false, db)
      else if db.includeBegins group included now = true then db.refuse
      else (.ok true, db.attach group included addedBy now) := rfl

end Database

/-! ## Rows and records -/

namespace Stay

/-- Periods begin when calls are made that have changed something. -/
theorem mem_dates {α κ : Type} {roll : Roll α κ} {stays : List (Stay α)} {log : List LogEntry}
    (hlog : (stays.flatMap (entries roll)).Perm log) {s : Stay α} (hs : s ∈ stays) :
    s.addedOn ∈ log.map (·.2.date) := by
  have hbegin : (s.group, ⟨roll.begins, s.addedBy, roll.told s.member, s.addedOn⟩) ∈
      s.entries roll := by
    rw [entries, changes, periodChanges]
    exact List.mem_map_of_mem List.mem_cons_self
  exact List.mem_map_of_mem (hlog.subset (List.mem_flatMap.mpr ⟨s, hs, hbegin⟩))

end Stay

namespace Database

variable {db : Database} {group : GroupUuid} {now : Instant}

/-- The rows of an instant are those of the records that begin then. -/
theorem memberBegins_iff {stays : List (Stay AccountId)}
    (h : db.memberAudits = stays.map Stay.memberRow) (hdated : ∀ s ∈ stays, s.Dated)
    (hnow : now.InFourDigits) (member : AccountId) :
    db.memberBegins group member now = true ↔
      ∃ r ∈ (stays.filter (·.group = group)).map Stay.memberRecord,
        r.account = member ∧ r.addedOn = now := by
  simp only [memberBegins, h, List.any_map, List.any_eq_true, List.mem_map, List.mem_filter,
    Function.comp, Bool.and_eq_true, decide_eq_true_eq]
  constructor
  · rintro ⟨s, hs, ⟨hgroup, hmember⟩, hbegin⟩
    refine ⟨s.memberRecord, ⟨s, ⟨hs, hgroup⟩, rfl⟩, AccountId.scalar_inj hmember, ?_⟩
    exact Instant.column_inj (hdated s hs).addedOn hnow hbegin
  · rintro ⟨_, ⟨s, ⟨hs, hgroup⟩, rfl⟩, rfl, rfl⟩
    exact ⟨s, hs, ⟨hgroup, rfl⟩, rfl⟩

theorem includeBegins_iff {stays : List (Stay GroupUuid)}
    (h : db.includeAudits = stays.map Stay.includeRow) (hdated : ∀ s ∈ stays, s.Dated)
    (hnow : now.InFourDigits) (included : GroupUuid) :
    db.includeBegins group included now = true ↔
      ∃ r ∈ (stays.filter (·.group = group)).map Stay.subgroupRecord,
        r.key.included = included ∧ r.key.addedOn = now := by
  simp only [includeBegins, h, List.any_map, List.any_eq_true, List.mem_map, List.mem_filter,
    Function.comp, Bool.and_eq_true, decide_eq_true_eq]
  constructor
  · rintro ⟨s, hs, ⟨hgroup, hincluded⟩, hbegin⟩
    refine ⟨s.subgroupRecord, ⟨s, ⟨hs, hgroup⟩, rfl⟩, hincluded, ?_⟩
    exact Instant.column_inj (hdated s hs).addedOn hnow hbegin
  · rintro ⟨_, ⟨s, ⟨hs, hgroup⟩, rfl⟩, rfl, rfl⟩
    exact ⟨s, hs, ⟨hgroup, rfl⟩, rfl⟩

end Database

/-! ## What is refused -/

/-- An addition succeeds, and what was to be added is there. -/
def StoreProgram.Adds (p : StoreProgram Unit) (db : Database) (isThere : Database → Bool) : Prop :=
  ∃ db', p.run db = (.ok (), db') ∧ isThere db' = true

/-- An addition is refused, although all of its checks are passed. -/
def StoreProgram.Clashes (p : StoreProgram Unit) (db : Database) : Prop :=
  p.run db = (.error (.store .database), db)

namespace Store

variable {db : Database} {group : GroupUuid} {g : InternalGroup}

/-- What an addition to an internal group comes to. -/
theorem run_addMember_eq (hinternal : (ask (requireInternal group)).run db = (.ok g, db))
    (member addedBy : AccountId) (now : Instant) :
    (addMember group member addedBy now).run db =
      if db.hasAccount member = false then (.error (.accountNotFound member), db)
      else if db.isMember group member = true then (.ok (), db)
      else if db.memberBegins group member now = true then (.error (.store .database), db)
      else (.ok (), db.join group member addedBy now) := by
  split
  · next hmissing => exact run_addMember_of_missing hinternal hmissing addedBy now
  · next hfound =>
    rw [run_addMember hinternal (Bool.of_not_eq_false hfound), Database.beginMembership_eq]
    cases db.isMember group member with
    | true => rfl
    | false => cases db.memberBegins group member now <;> rfl

theorem run_addSubgroup_eq (hinternal : (ask (requireInternal group)).run db = (.ok g, db))
    (included : GroupUuid) (addedBy : AccountId) (now : Instant) :
    (addSubgroup group included addedBy now).run db =
      if (db.description? included).isSome = false then (.error (.groupNotFound included), db)
      else if db.isIncluded group included = true then (.ok (), db)
      else if db.includeBegins group included now = true then (.error (.store .database), db)
      else (.ok (), db.attach group included addedBy now) := by
  split
  · next hmissing => exact run_addSubgroup_of_missing hinternal hmissing addedBy now
  · next hfound =>
    rw [run_addSubgroup hinternal (Bool.of_not_eq_false hfound), Database.beginInclusion_eq]
    cases db.isIncluded group included with
    | true => rfl
    | false => cases db.includeBegins group included now <;> rfl

theorem addMember_cases (hinternal : (ask (requireInternal group)).run db = (.ok g, db))
    {member : AccountId} (hfound : db.hasAccount member = true) (addedBy : AccountId)
    (now : Instant) :
    let add := addMember group member addedBy now
    let again := db.isMember group member = false ∧ db.memberBegins group member now = true
    (again → add.Clashes db) ∧ (¬again → add.Adds db (·.isMember group member)) := by
  intro add again
  have hrun := run_addMember_eq hinternal member addedBy now
  rw [if_neg (ne_false_of_eq_true hfound)] at hrun
  refine ⟨fun hagain => ?_, fun free => ?_⟩
  · obtain ⟨absent, begun⟩ := hagain
    rw [StoreProgram.Clashes, hrun, if_neg (Bool.eq_false_iff.mp absent), if_pos begun]
  · cases hmember : db.isMember group member with
    | true => exact ⟨db, by rw [hrun, if_pos hmember], hmember⟩
    | false =>
      rw [if_neg (Bool.eq_false_iff.mp hmember), if_neg fun begun => free ⟨hmember, begun⟩] at hrun
      exact ⟨_, hrun, db.isMember_join group member addedBy now⟩

theorem addSubgroup_cases (hinternal : (ask (requireInternal group)).run db = (.ok g, db))
    {included : GroupUuid} (hfound : (db.description? included).isSome = true)
    (addedBy : AccountId) (now : Instant) :
    let add := addSubgroup group included addedBy now
    let again := db.isIncluded group included = false ∧ db.includeBegins group included now = true
    (again → add.Clashes db) ∧ (¬again → add.Adds db (·.isIncluded group included)) := by
  intro add again
  have hrun := run_addSubgroup_eq hinternal included addedBy now
  rw [if_neg (ne_false_of_eq_true hfound)] at hrun
  refine ⟨fun hagain => ?_, fun free => ?_⟩
  · obtain ⟨absent, begun⟩ := hagain
    rw [StoreProgram.Clashes, hrun, if_neg (Bool.eq_false_iff.mp absent), if_pos begun]
  · cases hincluded : db.isIncluded group included with
    | true => exact ⟨db, by rw [hrun, if_pos hincluded], hincluded⟩
    | false =>
      rw [if_neg (Bool.eq_false_iff.mp hincluded), if_neg fun begun => free ⟨hincluded, begun⟩]
        at hrun
      exact ⟨_, hrun, db.isIncluded_attach group included addedBy now⟩

end Store

/--
After calls in years of four digits, an account that is there is asked to be
added to an internal group, or a group that has a description.  This fails if
it is not in the group, but has been added to it when the clock showed just
what it shows now, and it succeeds otherwise.  All periods have begun when the
clock showed what it did at one of the calls, so it succeeds if it shows
something else.
-/
theorem additions_clash_in_one_instant {calls : List Call}
    (hclock : ∀ c ∈ calls, ∀ t ∈ c.readings, t.InFourDigits) {group : GroupUuid}
    (hgroup : (callAll .empty calls).hasGroup group = true) {now : Instant}
    (hnow : now.InFourDigits) :
    let db := callAll .empty calls
    ∃ members subgroups,
      (Store.membersAudit group).run db = (.ok members, db) ∧
      (Store.subgroupsAudit group).run db = (.ok subgroups, db) ∧
      (∀ member addedBy, db.hasAccount member = true →
        let add := Store.addMember group member addedBy now
        let begun := ∃ r ∈ members, r.account = member ∧ r.addedOn = now
        (db.isMember group member = false ∧ begun → add.Clashes db) ∧
        (¬(db.isMember group member = false ∧ begun) → add.Adds db (·.isMember group member))) ∧
      (∀ included addedBy, (db.description? included).isSome = true →
        let add := Store.addSubgroup group included addedBy now
        let begun := ∃ r ∈ subgroups, r.key.included = included ∧ r.key.addedOn = now
        (db.isIncluded group included = false ∧ begun → add.Clashes db) ∧
        (¬(db.isIncluded group included = false ∧ begun) →
          add.Adds db (·.isIncluded group included))) ∧
      (∀ r ∈ members, r.addedOn ∈ calls.map Call.now) ∧
      ∀ r ∈ subgroups, r.key.addedOn ∈ calls.map Call.now := by
  intro db
  have hrecorded : Recorded db ([] ++ logOf .empty calls) := Recorded.empty.callAll hclock
  obtain ⟨memberLog, includeLog, ⟨members, hmembers, hmembersDated, hmembersLog⟩,
    ⟨includes, hincludes, hincludesDated, hincludesLog⟩, hlog⟩ := hrecorded.trail
  have hmemberRows := Database.memberAudits_eq hmembers
  have hincludeRows := Database.includeAudits_eq hincludes
  have hdates : (memberLog ++ includeLog).map (·.2.date) ⊆ calls.map Call.now := by
    intro t ht
    have hlogged := (hlog.map (·.2.date)).subset ht
    exact (sublist_dates_logOf .empty calls).subset hlogged
  rw [List.map_append] at hdates
  obtain ⟨g, hinternal⟩ := hrecorded.run_requireInternal hgroup
  refine ⟨_, _, Database.run_membersAudit hmembers hmembersDated group,
    Database.run_subgroupsAudit hincludes hincludesDated group, ?_, ?_, ?_, ?_⟩
  · intro member addedBy hfound add begun
    have hcases := Store.addMember_cases hinternal hfound addedBy now
    rwa [Database.memberBegins_iff hmemberRows hmembersDated hnow] at hcases
  · intro included addedBy hfound add begun
    have hcases := Store.addSubgroup_cases hinternal hfound addedBy now
    rwa [Database.includeBegins_iff hincludeRows hincludesDated hnow] at hcases
  · intro r hr
    obtain ⟨s, hs, rfl⟩ := List.mem_map.mp hr
    have hbegun := Stay.mem_dates hmembersLog (List.mem_filter.mp hs).1
    exact hdates (List.mem_append_left _ hbegun)
  · intro r hr
    obtain ⟨s, hs, rfl⟩ := List.mem_map.mp hr
    have hbegun := Stay.mem_dates hincludesLog (List.mem_filter.mp hs).1
    exact hdates (List.mem_append_right _ hbegun)

/-- Account 2 and an empty group come and go in one second. -/
def briefCalls : List Call :=
  [⟨.createAccount none none none, second 0⟩, ⟨.createAccount none none none, second 0⟩,
   ⟨.createGroup ⟨"g"⟩ "g" none none ⟨1⟩ (second 0), second 0⟩,
   ⟨.createGroup ⟨"h"⟩ "h" none none ⟨1⟩ (second 0), second 0⟩,
   ⟨.addMember ⟨"g"⟩ ⟨2⟩ ⟨1⟩, second 3⟩, ⟨.removeMember ⟨"g"⟩ ⟨2⟩ ⟨1⟩, second 3⟩,
   ⟨.addSubgroup ⟨"g"⟩ ⟨"h"⟩ ⟨1⟩, second 3⟩, ⟨.removeSubgroup ⟨"g"⟩ ⟨"h"⟩ ⟨1⟩, second 3⟩]

/-- Neither can be added again in that second, and both can be in the next one. -/
theorem brief_additions_clash :
    let db := callAll .empty briefCalls
    (Store.addMember ⟨"g"⟩ ⟨2⟩ ⟨1⟩ (second 3)).Clashes db ∧
      (Store.addMember ⟨"g"⟩ ⟨2⟩ ⟨1⟩ (second 4)).Adds db (·.isMember ⟨"g"⟩ ⟨2⟩) ∧
      (Store.addSubgroup ⟨"g"⟩ ⟨"h"⟩ ⟨1⟩ (second 3)).Clashes db ∧
      (Store.addSubgroup ⟨"g"⟩ ⟨"h"⟩ ⟨1⟩ (second 4)).Adds db (·.isIncluded ⟨"g"⟩ ⟨"h"⟩) := by
  intro db
  have hclock : ∀ c ∈ briefCalls, ∀ t ∈ c.readings, t.InFourDigits := by
    decide +kernel
  have hgroup : db.hasGroup ⟨"g"⟩ = true := by
    decide +kernel
  have hmember : ((Store.membersAudit ⟨"g"⟩).run db).1.toOption.any
      (·.any fun r => r.account = ⟨2⟩ && r.addedOn = second 3) = true := by
    decide +kernel
  have hinclude : ((Store.subgroupsAudit ⟨"g"⟩).run db).1.toOption.any
      (·.any fun r => r.key.included = ⟨"h"⟩ && r.key.addedOn = second 3) = true := by
    decide +kernel
  have hlater : second 4 ∉ briefCalls.map Call.now := by
    decide +kernel
  obtain ⟨members, subgroups, hmembers, hsubgroups, hadd, hattach, -, -⟩ :=
    @additions_clash_in_one_instant briefCalls hclock ⟨"g"⟩ hgroup (second 3) (by decide +kernel)
  obtain ⟨members', subgroups', -, -, hadd', hattach', hdates, hdates'⟩ :=
    @additions_clash_in_one_instant briefCalls hclock ⟨"g"⟩ hgroup (second 4) (by decide +kernel)
  rw [hmembers] at hmember
  rw [hsubgroups] at hinclude
  simp only [Except.toOption, Option.any_some, List.any_eq_true, Bool.and_eq_true,
    decide_eq_true_eq] at hmember hinclude
  refine ⟨(hadd ⟨2⟩ ⟨1⟩ (by decide +kernel)).1 ⟨by decide +kernel, hmember⟩,
    (hadd' ⟨2⟩ ⟨1⟩ (by decide +kernel)).2 ?_,
    (hattach ⟨"h"⟩ ⟨1⟩ (by decide +kernel)).1 ⟨by decide +kernel, hinclude⟩,
    (hattach' ⟨"h"⟩ ⟨1⟩ (by decide +kernel)).2 ?_⟩
  · rintro ⟨-, r, hr, -, hbegun⟩
    exact hlater (hbegun ▸ hdates r hr)
  · rintro ⟨-, r, hr, -, hbegun⟩
    exact hlater (hbegun ▸ hdates' r hr)

/-- An account is there, and cannot be added although the clock has not gone back. -/
theorem addition_is_not_always_possible :
    ¬∀ (calls : List Call) (now : Instant), (∀ c ∈ calls, ∀ t ∈ c.readings, t.InFourDigits) →
      (calls.map Call.now).Pairwise (· ≤ ·) → now.InFourDigits → (∀ c ∈ calls, c.now ≤ now) →
      ∀ (group : GroupUuid) (member addedBy : AccountId),
        let db := callAll .empty calls
        db.hasGroup group = true → db.hasAccount member = true →
          (Store.addMember group member addedBy now).Adds db (·.isMember group member) := by
  intro hall
  obtain ⟨db', hrun, -⟩ := hall briefCalls (second 3) (by decide +kernel) (by decide +kernel)
    (by decide +kernel) (by decide +kernel) ⟨"g"⟩ ⟨2⟩ ⟨1⟩ (by decide +kernel) (by decide +kernel)
  have hfails : ((Store.addMember ⟨"g"⟩ ⟨2⟩ ⟨1⟩ (second 3)).run
      (callAll .empty briefCalls)).1.toOption = none := by
    decide +kernel
  rw [hrun] at hfails
  cases hfails

end AccessLedger
