import AccessLedger.Proofs.Audit.Completeness
import Mathlib.Data.List.DropRight
import Mathlib.Data.List.Induction

/-!
# The audit records tell the past

Calls of the store are made one after the other, from the empty database on,
and their clock never goes back.  `databaseAt t calls` is the database after
the last of them that is made at the instant `t` or before it.  Whoever is a
member of a group there is covered at `t` by one audit record that is read
after all calls, and nobody else is covered by any
(`audit_records_tell_the_past`).

An operation leaves a ledger alone, or begins or ends a period at the time of
its clock (`Roll.Step`).  It makes no difference for the instants before, and
from then on the periods that cover an instant are the open ones.
-/

namespace AccessLedger

/-! ## Periods and the instants that they cover -/

namespace Stay

variable {α : Type}

/-- Whether a period has begun at an instant and is not over then. -/
def covers (t : Instant) (s : Stay α) : Bool :=
  s.addedOn ≤ t && (s.removal.isNone || s.removal.any (t < ·.removedOn))

/-- A period begins at an instant or before it, and so it ends if it does. -/
structure DoneBy (now : Instant) (s : Stay α) : Prop where
  addedOn : s.addedOn ≤ now
  removedOn : ∀ r ∈ s.removal, r.removedOn ≤ now

theorem DoneBy.mono {now later : Instant} {s : Stay α} (h : s.DoneBy now) (hle : now ≤ later) :
    s.DoneBy later :=
  ⟨Instant.le_trans h.addedOn hle, fun r hr => Instant.le_trans (h.removedOn r hr) hle⟩

/-- From then on a period covers an instant if it lasts. -/
theorem DoneBy.covers_eq {now t : Instant} {s : Stay α} (h : s.DoneBy now) (hle : now ≤ t) :
    s.covers t = s.removal.isNone := by
  have hbegun : s.addedOn ≤ t := Instant.le_trans h.addedOn hle
  cases hremoval : s.removal with
  | none => simp [covers, hremoval, hbegun]
  | some r =>
    have hover : ¬t < r.removedOn := Instant.le_trans (h.removedOn r hremoval) hle
    simp [covers, hremoval, hover]

variable [DecidableEq α] {group : GroupUuid} {member : α} {t now : Instant}

/-- Whether a period is one of this member of the group and covers an instant. -/
def holds (group : GroupUuid) (member : α) (t : Instant) (s : Stay α) : Bool :=
  s.group = group && s.member = member && s.covers t

theorem DoneBy.holds_eq_lasts {s : Stay α} (h : s.DoneBy now) (hle : now ≤ t) :
    s.holds group member t = s.lasts group member := by
  rw [holds, lasts, h.covers_eq hle]

theorem DoneBy.close {s : Stay α} (h : s.DoneBy now) (removedBy : AccountId) :
    (s.close group member ⟨removedBy, now⟩).DoneBy now := by
  unfold Stay.close
  split
  · refine ⟨h.addedOn, fun r hr => ?_⟩
    cases hr
    exact Instant.le_refl now
  · exact h

/-- The end of a period makes no difference before it. -/
theorem holds_close_of_lt (h : t < now) (g : GroupUuid) (m : α) (removedBy : AccountId)
    (s : Stay α) :
    (s.close g m ⟨removedBy, now⟩).holds group member t = s.holds group member t := by
  unfold close
  split
  · next hlasts =>
    have hopen : s.removal = none := (lasts_iff.mp hlasts).2
    simp [holds, covers, hopen, h]
  · rfl

end Stay

/-! ## One operation -/

namespace Roll

variable {α κ : Type} [DecidableEq κ]

/-- What an operation at the time `now` may do to a ledger. -/
inductive Step (roll : Roll α κ) (now : Instant) (l : Ledger (GroupUuid × κ)) :
    Ledger (GroupUuid × κ) → Prop
  | same : Step roll now l l
  | enter (group : GroupUuid) (member : α) (addedBy : AccountId) :
      Step roll now l (l.enter (group, roll.code member) addedBy.scalar now.column)
  | exit (group : GroupUuid) (member : α) (removedBy : AccountId) :
      Step roll now l (l.exit (group, roll.code member) removedBy.scalar now.column)

omit [DecidableEq κ] in
/-- The rows of a ledger are those of some periods in years of four digits. -/
structure Rows (roll : Roll α κ) (l : Ledger (GroupUuid × κ)) (stays : List (Stay α)) :
    Prop where
  periods : l.periods = stays.map (Stay.period roll)
  dated : ∀ s ∈ stays, s.Dated

variable {roll : Roll α κ} {now : Instant} {l l' : Ledger (GroupUuid × κ)} {stays : List (Stay α)}
  [DecidableEq α]

/-- From then on the periods that cover an instant are those whose rows are open. -/
theorem Rows.countP_holds (h : roll.Rows l stays) (hdone : ∀ s ∈ stays, s.DoneBy now)
    {t : Instant} (hle : now ≤ t) (group : GroupUuid) (member : α) :
    stays.countP (Stay.holds group member t) =
      (l.openPeriods (group, roll.code member)).length := by
  have hlasts : stays.countP (Stay.holds group member t) =
      stays.countP (Stay.lasts group member) :=
    List.countP_congr fun s hs => by rw [(hdone s hs).holds_eq_lasts hle]
  rw [hlasts, List.countP_eq_length_filter]
  exact Stay.length_filter_lasts roll group member h.periods

/-- An operation makes no difference for the instants before it. -/
theorem Step.rows (hstep : roll.Step now l l') (h : roll.Rows l stays)
    (hdone : ∀ s ∈ stays, s.DoneBy now) (hnow : now.InFourDigits) :
    ∃ stays', roll.Rows l' stays' ∧ (∀ s ∈ stays', s.DoneBy now) ∧
      ∀ t, t < now → ∀ group member,
        stays'.countP (Stay.holds group member t) = stays.countP (Stay.holds group member t) := by
  cases hstep with
  | same => exact ⟨stays, h, hdone, fun _ _ _ _ => rfl⟩
  | enter group member addedBy =>
    refine ⟨stays ++ [⟨group, member, addedBy, now, none⟩], ⟨?_, ?_⟩, ?_, ?_⟩
    · rw [Ledger.enter, h.periods, List.map_append]
      rfl
    · intro s hs
      rcases List.mem_append.mp hs with hold | hnew
      · exact h.dated s hold
      · cases List.mem_singleton.mp hnew
        refine ⟨hnow, fun _ hr => ?_⟩
        cases hr
    · intro s hs
      rcases List.mem_append.mp hs with hold | hnew
      · exact hdone s hold
      · cases List.mem_singleton.mp hnew
        refine ⟨Instant.le_refl now, fun _ hr => ?_⟩
        cases hr
    · intro t ht g m
      have hlater : ¬now ≤ t := fun hle => hle ht
      simp [List.countP_append, Stay.holds, Stay.covers, hlater]
  | exit group member removedBy =>
    refine ⟨stays.map (Stay.close group member ⟨removedBy, now⟩), ⟨?_, ?_⟩, ?_, ?_⟩
    · simp only [Ledger.exit, h.periods, List.map_map]
      exact List.map_congr_left fun s _ => (s.period_close roll group member ⟨removedBy, now⟩).symm
    · intro s hs
      obtain ⟨r, hr, rfl⟩ := List.mem_map.mp hs
      exact (h.dated r hr).close group member hnow
    · intro s hs
      obtain ⟨r, hr, rfl⟩ := List.mem_map.mp hs
      exact (hdone r hr).close removedBy
    · intro t ht g m
      rw [List.countP_map]
      exact List.countP_congr fun s _ => by
        rw [Function.comp, Stay.holds_close_of_lt ht]

end Roll

namespace Database.GroupStep

variable {now : Instant} {db db' : Database}

/-- What an operation does to the members and their periods. -/
theorem memberRoll (h : db.GroupStep now db') :
    memberRoll.Step now db.memberLedger db'.memberLedger := by
  cases h with
  | same h =>
    rw [h.memberLedger_eq]
    exact .same
  | foundedWith group _ _ _ _ _ creator =>
    rw [memberLedger_join]
    exact .enter group creator creator
  | join group member addedBy =>
    rw [memberLedger_join]
    exact .enter group member addedBy
  | leave group member removedBy =>
    rw [memberLedger_leave]
    exact .exit group member removedBy
  | founded | attach | detach => exact .same

/-- What an operation does to the included groups and their periods. -/
theorem includeRoll (h : db.GroupStep now db') :
    includeRoll.Step now db.includeLedger db'.includeLedger := by
  cases h with
  | same h =>
    rw [h.includeLedger_eq]
    exact .same
  | attach group included addedBy =>
    rw [includeLedger_attach]
    exact .enter group included addedBy
  | detach group included removedBy =>
    rw [includeLedger_detach]
    exact .exit group included removedBy
  | founded | foundedWith | join | leave => exact .same

end Database.GroupStep

/-! ## A run of calls -/

/-- The database after the last call that is made at an instant or before it. -/
def databaseAt (t : Instant) (calls : List Call) : Database :=
  callAll .empty (calls.rdropWhile (t < ·.now))

theorem databaseAt_concat_of_lt {t : Instant} {c : Call} (h : t < c.now) (calls : List Call) :
    databaseAt t (calls ++ [c]) = databaseAt t calls := by
  simp [databaseAt, h]

theorem databaseAt_concat_of_le {t : Instant} {c : Call} (h : c.now ≤ t) (calls : List Call) :
    databaseAt t (calls ++ [c]) = callAll .empty (calls ++ [c]) := by
  have hnot : ¬t < c.now := h
  simp [databaseAt, hnot]

/--
After calls with a clock that does not go back, the rows of a ledger are those
of some periods, and the periods that cover an instant are as many as the open
rows of that time.
-/
theorem Roll.exists_stays {α κ : Type} [DecidableEq α] [DecidableEq κ] (roll : Roll α κ)
    {ledger : Database → Ledger (GroupUuid × κ)} (hempty : (ledger .empty).periods = [])
    (hstep : ∀ (c : Call) (db : Database),
      roll.Step c.now (ledger db) (ledger (c.operation.after c.now db)))
    {calls : List Call} (hclock : ∀ c ∈ calls, c.now.InFourDigits)
    (hforward : (calls.map Call.now).Pairwise (· ≤ ·)) :
    ∃ stays, roll.Rows (ledger (callAll .empty calls)) stays ∧
      (∀ now, (∀ c ∈ calls, c.now ≤ now) → ∀ s ∈ stays, s.DoneBy now) ∧
      ∀ t group member, stays.countP (Stay.holds group member t) =
        ((ledger (databaseAt t calls)).openPeriods (group, roll.code member)).length := by
  induction calls using List.reverseRecOn with
  | nil =>
    refine ⟨[], ⟨hempty, by simp⟩, by simp, fun t group member => ?_⟩
    have hnone : (ledger (databaseAt t [])).periods = [] := hempty
    simp [Ledger.openPeriods, hnone]
  | append_singleton calls c ih =>
    rw [List.map_append, List.pairwise_append] at hforward
    obtain ⟨hbefore, -, hlast⟩ := hforward
    have hc : c ∈ calls ++ [c] := List.mem_append_right _ (List.mem_singleton_self c)
    have hle (d : Call) (hd : d ∈ calls) : d.now ≤ c.now :=
      hlast d.now (List.mem_map_of_mem hd) c.now (List.mem_singleton_self _)
    obtain ⟨stays, hrows, hdone, hcount⟩ :=
      ih (fun d hd => hclock d (List.mem_append_left _ hd)) hbefore
    obtain ⟨stays', hrows', hdone', hcount'⟩ :=
      (hstep c (callAll .empty calls)).rows hrows (hdone c.now hle) (hclock c hc)
    rw [← callAll_concat] at hrows'
    refine ⟨stays', hrows', fun now hnow s hs => (hdone' s hs).mono (hnow c hc), ?_⟩
    intro t group member
    by_cases ht : t < c.now
    · rw [databaseAt_concat_of_lt ht, hcount' t ht, hcount]
    · rw [databaseAt_concat_of_le ht]
      exact hrows'.countP_holds hdone' ht group member

/-! ## What the records tell -/

/-- Whether an audit record says that its account was a member at an instant. -/
def MemberAuditRecord.covers (t : Instant) (r : MemberAuditRecord) : Bool :=
  r.addedOn ≤ t && (r.isActive || r.removal.any (t < ·.removedOn))

/-- Whether an audit record says that its group was included at an instant. -/
def SubgroupAuditRecord.covers (t : Instant) (r : SubgroupAuditRecord) : Bool :=
  r.key.addedOn ≤ t && (r.isActive || r.removal.any (t < ·.removedOn))

/-- What is counted once or not at all is there if it is counted. -/
theorem exists_mem_of_countP {σ : Type} {l : List σ} {p : σ → Bool} {b : Bool}
    (h : l.countP p = if b = true then 1 else 0) :
    (b = true ↔ ∃ s ∈ l, p s = true) ∧ l.countP p ≤ 1 := by
  rw [← List.countP_pos_iff, h]
  cases b <;> simp

/-- The records that cover an instant are those of the periods that do. -/
theorem Stay.countP_records {α ρ : Type} [DecidableEq α] {record : Stay α → ρ} {covering : ρ → Bool}
    {member : α} {t : Instant}
    (hcovering : ∀ s, covering (record s) = (s.member = member && s.covers t)) (group : GroupUuid)
    (stays : List (Stay α)) :
    ((stays.filter (·.group = group)).map record).countP covering =
      stays.countP (holds group member t) := by
  rw [List.countP_map, List.countP_filter]
  refine List.countP_congr fun s _ => ?_
  rw [Function.comp, hcovering, holds, Bool.and_comm, Bool.and_assoc]

/--
Calls are made one after the other, from the empty database on, with a clock
that does not go back, in years of four digits.  The audit records of a group
can be read afterwards.  At each instant they say who was a member of the group
after the last call made by then, and which groups were included in it, and
each of them in one record only.
-/
theorem audit_records_tell_the_past {calls : List Call}
    (hclock : ∀ c ∈ calls, ∀ t ∈ c.readings, t.InFourDigits)
    (hforward : (calls.map Call.now).Pairwise (· ≤ ·)) (group : GroupUuid) :
    let db := callAll .empty calls
    ∃ members subgroups,
      (Store.membersAudit group).run db = (.ok members, db) ∧
      (Store.subgroupsAudit group).run db = (.ok subgroups, db) ∧
      ∀ t : Instant,
        (∀ account : AccountId,
          let covering := fun r : MemberAuditRecord => r.account = account && r.covers t
          ((databaseAt t calls).isMember group account = true ↔
            ∃ r ∈ members, covering r = true) ∧ members.countP covering ≤ 1) ∧
        ∀ included : GroupUuid,
          let covering := fun r : SubgroupAuditRecord => r.key.included = included && r.covers t
          ((databaseAt t calls).isIncluded group included = true ↔
            ∃ r ∈ subgroups, covering r = true) ∧ subgroups.countP covering ≤ 1 := by
  intro db
  have hnow (c : Call) (hc : c ∈ calls) : c.now.InFourDigits :=
    hclock c hc c.now (c.operation.now_mem_readings c.now)
  obtain ⟨members, hmemberRows, -, hmembers⟩ := Roll.exists_stays memberRoll rfl
    (fun c db => (c.operation.groupStep c.now db).memberRoll) hnow hforward
  obtain ⟨includes, hincludeRows, -, hincludes⟩ := Roll.exists_stays includeRoll rfl
    (fun c db => (c.operation.groupStep c.now db).includeRoll) hnow hforward
  have hagrees (t : Instant) : (databaseAt t calls).TrailAgrees :=
    (Reachable.empty.callAll _).ledgersAgree.trailAgrees
  have hmembersRun := Store.run_answer (.membersAudit group) db
  rw [Database.reply_membersAudit (Database.memberAudits_eq hmemberRows.periods)
    hmemberRows.dated] at hmembersRun
  have hincludesRun := Store.run_answer (.subgroupsAudit group) db
  rw [Database.reply_subgroupsAudit (Database.includeAudits_eq hincludeRows.periods)
    hincludeRows.dated] at hincludesRun
  refine ⟨_, _, hmembersRun, hincludesRun, fun t => ⟨fun account => ?_, fun included => ?_⟩⟩
  · refine exists_mem_of_countP ?_
    rw [Stay.countP_records (fun _ => rfl), hmembers]
    exact (hagrees t).open_member group account
  · refine exists_mem_of_countP ?_
    rw [Stay.countP_records (fun _ => rfl), hincludes]
    exact (hagrees t).open_include group included

/-- Account 2 leaves twice in the second in which it has come. -/
def returnCalls : List Call :=
  [⟨.createAccount none none none, second 0⟩, ⟨.createAccount none none none, second 0⟩,
   ⟨.createGroup ⟨"g"⟩ "g" none none ⟨1⟩ (second 0), second 0⟩, ⟨.addMember ⟨"g"⟩ ⟨2⟩ ⟨1⟩, second 3⟩,
   ⟨.removeMember ⟨"g"⟩ ⟨2⟩ ⟨1⟩, second 3⟩, ⟨.addMember ⟨"g"⟩ ⟨2⟩ ⟨1⟩, second 3⟩,
   ⟨.addMember ⟨"g"⟩ ⟨2⟩ ⟨1⟩, second 4⟩, ⟨.removeMember ⟨"g"⟩ ⟨2⟩ ⟨2⟩, second 6⟩,
   ⟨.addMember ⟨"g"⟩ ⟨2⟩ ⟨1⟩, second 6⟩]

/--
The records of account 2 cover the seconds 4 to 5 and those from 6 on, and not
second 3, in which it has come, left and not been let in again.
-/
theorem returns_are_told :
    ∃ members, (Store.membersAudit ⟨"g"⟩).run (callAll .empty returnCalls) =
        (.ok members, callAll .empty returnCalls) ∧
      (∀ n : Fin 60, (∃ r ∈ members, (r.account = ⟨2⟩ && r.covers (clockAt n)) = true) ↔
        4 ≤ n.val) := by
  obtain ⟨members, _, hmembers, -, htold⟩ := @audit_records_tell_the_past returnCalls
    (by decide +kernel) (by decide +kernel) ⟨"g"⟩
  refine ⟨members, hmembers, fun n => (((htold (clockAt n)).1 ⟨2⟩).1).symm.trans ?_⟩
  revert n
  decide +kernel

end AccessLedger
