import AccessLedger.Proofs.Audit.Reading
import AccessLedger.Proofs.Store.Effects
import AccessLedger.Proofs.Store.Membership

/-!
# The audit log is complete

Calls of the store are made one after the other, from the empty database on.
`logOf` lists the changes of the members of groups that they have in effect.
The rows of the database always tell this log, however often members have come
and gone (`Recorded.after`), so the audit log of a group that an owner asks
for shows all changes of the group and no others, newest first
(`audit_log_is_complete`).
-/

namespace AccessLedger

/-- One entry if something has happened, else none. -/
def entryIf (happened : Bool) (group : GroupUuid) (change : GroupChange) : List LogEntry :=
  if happened then [(group, change)] else []

namespace Operation

variable {α : Type}

/--
The changes that an operation has in effect: someone becomes a member who has
not been one, or someone is removed.
-/
def changes (operation : Operation α) (now : Instant) (db : Database) : List LogEntry :=
  let db' := operation.after now db
  let done := operation.succeeds now db
  match operation with
  | createGroup group _ _ _ creator _ =>
    entryIf (!db.isMember group creator && db'.isMember group creator) group
      ⟨.addUser, creator, .inl creator, now⟩
  | addMember group member addedBy =>
    entryIf (!db.isMember group member && db'.isMember group member) group
      ⟨.addUser, addedBy, .inl member, now⟩
  | removeMember group member removedBy =>
    entryIf done group ⟨.removeUser, removedBy, .inl member, now⟩
  | addSubgroup group included addedBy =>
    entryIf (!db.isIncluded group included && db'.isIncluded group included) group
      ⟨.addGroup, addedBy, .inr included.displayId, now⟩
  | removeSubgroup group included removedBy =>
    entryIf done group ⟨.removeGroup, removedBy, .inr included.displayId, now⟩
  | createAccount _ _ _ | describeExternal _ | createProject _ _ _ | grantSection _ _ _
  | applyAccess _ _ _ => []

/-- An operation has at most one change in effect, at the time of its clock. -/
theorem changes_cases (operation : Operation α) (now : Instant) (db : Database) :
    operation.changes now db = [] ∨
      ∃ e : LogEntry, operation.changes now db = [e] ∧ e.2.date = now := by
  cases operation with
  | createGroup | addMember | removeMember | addSubgroup | removeSubgroup =>
    simp only [changes, entryIf]
    split
    · exact .inr ⟨_, rfl, rfl⟩
    · exact .inl rfl
  | _ => exact .inl rfl

end Operation

/-- The database after some calls, one after the other. -/
def callAll (db : Database) : List Call → Database
  | [] => db
  | c :: calls => callAll (c.operation.after c.now db) calls

theorem callAll_concat (db : Database) (calls : List Call) (c : Call) :
    callAll db (calls ++ [c]) = c.operation.after c.now (callAll db calls) := by
  induction calls generalizing db with
  | nil => rfl
  | cons d calls ih => exact ih _

theorem Reachable.callAll {db : Database} (h : Reachable db) (calls : List Call) :
    Reachable (callAll db calls) := by
  induction calls generalizing db with
  | nil => exact h
  | cons c calls ih => exact ih (h.step c.operation c.now)

/-- The changes that some calls have in effect, one after the other. -/
def logOf (db : Database) : List Call → List LogEntry
  | [] => []
  | c :: calls => c.operation.changes c.now db ++ logOf (c.operation.after c.now db) calls

/-- Changes are dated by the clocks of their calls. -/
theorem sublist_dates_logOf (db : Database) (calls : List Call) :
    ((logOf db calls).map (·.2.date)).Sublist (calls.map Call.now) := by
  induction calls generalizing db with
  | nil => exact .slnil
  | cons c calls ih =>
    rw [logOf, List.map_append, List.map_cons]
    rcases c.operation.changes_cases c.now db with h | ⟨e, h, hdate⟩
    · rw [h]
      exact (ih _).cons _
    · rw [h, ← hdate]
      exact (ih _).cons_cons _

/-! ## What the rows tell -/

theorem Database.SameGroups.memberLedger_eq {db db' : Database} (h : db.SameGroups db') :
    db'.memberLedger = db.memberLedger := by
  rw [memberLedger, h.members, h.memberAudits, memberLedger]

theorem Database.SameGroups.includeLedger_eq {db db' : Database} (h : db.SameGroups db') :
    db'.includeLedger = db.includeLedger := by
  rw [includeLedger, h.includes, h.includeAudits, includeLedger]

/-- Groups can be read, and the audit rows tell a log. -/
structure Recorded (db : Database) (log : List LogEntry) : Prop where
  ledgers : db.LedgersAgree
  groups : ∀ r ∈ db.groups, r.Readable
  trail : ∃ members includes, memberRoll.Tells db.memberLedger members ∧
    includeRoll.Tells db.includeLedger includes ∧ (members ++ includes).Perm log

namespace Recorded

variable {db db' : Database} {log : List LogEntry} {group : GroupUuid} {now : Instant}

theorem empty : Recorded .empty [] where
  ledgers := Database.ledgersAgree_empty
  groups := fun _ h => nomatch h
  trail := ⟨[], [], ⟨[], rfl, fun _ h => (nomatch h), .nil⟩, ⟨[], rfl, fun _ h => (nomatch h), .nil⟩,
    .nil⟩

theorem readable_group (h : Recorded db log) (uuid : GroupUuid) :
    ∀ r ∈ db.group? uuid, r.Readable :=
  fun r hr => h.groups r (List.mem_of_find?_eq_some hr)

/-- An internal group is let pass. -/
theorem run_requireInternal (h : Recorded db log) (hgroup : db.hasGroup group = true) :
    ∃ g, (Store.ask (requireInternal group)).run db = (.ok g, db) := by
  obtain ⟨row, hrow⟩ := Option.isSome_iff_exists.mp hgroup
  obtain ⟨g, hg, -⟩ := Database.eval_requireInternal hrow (h.readable_group group row hrow)
  exact ⟨g, by simp [hg]⟩

theorem of_sameGroups (h : Recorded db log) (hsame : db.SameGroups db') : Recorded db' log := by
  refine ⟨?_, hsame.groups ▸ h.groups, ?_⟩
  · rw [Database.LedgersAgree, hsame.memberLedger_eq, hsame.includeLedger_eq]
    exact h.ledgers
  · rw [hsame.memberLedger_eq, hsame.includeLedger_eq]
    exact h.trail

theorem withGroup (h : Recorded db log) (uuid : GroupUuid) (id : UInt32) (name : String)
    (description : Option String) (owner : GroupUuid) {createdOn : Instant}
    (hcreated : createdOn.InFourDigits) :
    Recorded (db.withGroup uuid id name description owner createdOn) log where
  ledgers := h.ledgers
  groups r hr := by
    rcases List.mem_append.mp hr with hold | hnew
    · exact h.groups r hold
    · cases List.mem_singleton.mp hnew
      exact ⟨⟨id, rfl⟩, ⟨0, rfl⟩, ⟨createdOn, hcreated, rfl⟩⟩
  trail := h.trail

/-- One more change of an account. -/
theorem of_member (h : Recorded db log) {e : LogEntry} (hledgers : db'.LedgersAgree)
    (hgroups : db'.groups = db.groups) (hincludes : db'.includeLedger = db.includeLedger)
    (htells : ∀ members, memberRoll.Tells db.memberLedger members →
      memberRoll.Tells db'.memberLedger (members ++ [e])) : Recorded db' (log ++ [e]) := by
  obtain ⟨members, includes, hmembers, hinclude, hlog⟩ := h.trail
  refine ⟨hledgers, hgroups ▸ h.groups, members ++ [e], includes, htells members hmembers,
    hincludes ▸ hinclude, ?_⟩
  calc members ++ [e] ++ includes
    _ = members ++ ([e] ++ includes) := List.append_assoc _ _ _
    _ |>.Perm (members ++ (includes ++ [e])) := List.perm_append_comm.append_left _
    _ = members ++ includes ++ [e] := (List.append_assoc _ _ _).symm
    _ |>.Perm (log ++ [e]) := hlog.append_right _

/-- One more change of a group. -/
theorem of_include (h : Recorded db log) {e : LogEntry} (hledgers : db'.LedgersAgree)
    (hgroups : db'.groups = db.groups) (hmembers : db'.memberLedger = db.memberLedger)
    (htells : ∀ includes, includeRoll.Tells db.includeLedger includes →
      includeRoll.Tells db'.includeLedger (includes ++ [e])) : Recorded db' (log ++ [e]) := by
  obtain ⟨members, includes, hmember, hincludes, hlog⟩ := h.trail
  refine ⟨hledgers, hgroups ▸ h.groups, members, includes ++ [e], hmembers ▸ hmember,
    htells includes hincludes, ?_⟩
  rw [← List.append_assoc]
  exact hlog.append_right _

theorem join (h : Recorded db log) {member : AccountId} (addedBy : AccountId)
    (absent : db.isMember group member = false) (hnow : now.InFourDigits) :
    Recorded (db.join group member addedBy now)
      (log ++ [(group, ⟨.addUser, addedBy, .inl member, now⟩)]) := by
  refine h.of_member (h.ledgers.change (.join group member addedBy now absent)) rfl rfl
    fun members hmembers => ?_
  rw [Database.memberLedger_join]
  exact hmembers.enter group member addedBy hnow

theorem leave (h : Recorded db log) {member : AccountId} (removedBy : AccountId)
    (present : db.isMember group member = true) (hnow : now.InFourDigits) :
    Recorded (db.leave group member removedBy now)
      (log ++ [(group, ⟨.removeUser, removedBy, .inl member, now⟩)]) := by
  refine h.of_member (h.ledgers.change (.leave group member removedBy now present)) rfl rfl
    fun members hmembers => ?_
  rw [Database.memberLedger_leave]
  exact hmembers.exit h.ledgers.1 (Database.mem_memberLedger.mpr present) removedBy hnow

theorem attach (h : Recorded db log) {included : GroupUuid} (addedBy : AccountId)
    (absent : db.isIncluded group included = false) (hnow : now.InFourDigits) :
    Recorded (db.attach group included addedBy now)
      (log ++ [(group, ⟨.addGroup, addedBy, .inr included.displayId, now⟩)]) := by
  refine h.of_include (h.ledgers.change (.attach group included addedBy now absent)) rfl rfl
    fun includes hincludes => ?_
  rw [Database.includeLedger_attach]
  exact hincludes.enter group included addedBy hnow

theorem detach (h : Recorded db log) {included : GroupUuid} (removedBy : AccountId)
    (present : db.isIncluded group included = true) (hnow : now.InFourDigits) :
    Recorded (db.detach group included removedBy now)
      (log ++ [(group, ⟨.removeGroup, removedBy, .inr included.displayId, now⟩)]) := by
  refine h.of_include (h.ledgers.change (.detach group included removedBy now present)) rfl rfl
    fun includes hincludes => ?_
  rw [Database.includeLedger_detach]
  exact hincludes.exit h.ledgers.2 (Database.mem_includeLedger.mpr present) removedBy hnow

end Recorded

@[simp]
theorem Database.isMember_join (db : Database) (group : GroupUuid) (member addedBy : AccountId)
    (now : Instant) : (db.join group member addedBy now).isMember group member = true :=
  decide_eq_true (List.mem_append_right _ (List.mem_singleton_self _))

@[simp]
theorem Database.isIncluded_attach (db : Database) (group included : GroupUuid)
    (addedBy : AccountId) (now : Instant) :
    (db.attach group included addedBy now).isIncluded group included = true :=
  decide_eq_true (List.mem_append_right _ (List.mem_singleton_self _))

namespace Recorded

variable {db : Database} {log : List LogEntry} {now : Instant}

theorem after_addMember (h : Recorded db log) (hnow : now.InFourDigits) (group : GroupUuid)
    (member addedBy : AccountId) :
    let operation := Operation.addMember group member addedBy
    Recorded (operation.after now db) (log ++ operation.changes now db) := by
  simp only [Operation.changes]
  rcases Operation.after_addMember now db group member addedBy with
    hafter | ⟨-, absent, hafter⟩
  · rw [hafter, Bool.not_and_self]
    exact (List.append_nil log).symm ▸ h
  · rw [hafter, absent, Database.isMember_join]
    exact h.join addedBy absent hnow

theorem after_removeMember (h : Recorded db log) (hnow : now.InFourDigits) (group : GroupUuid)
    (member removedBy : AccountId) :
    let operation := Operation.removeMember group member removedBy
    Recorded (operation.after now db) (log ++ operation.changes now db) := by
  simp only [Operation.changes]
  rcases Operation.after_removeMember now db group member removedBy with
    ⟨hdone, hafter⟩ | ⟨hdone, present, hafter⟩ <;> rw [hafter, hdone]
  · exact (List.append_nil log).symm ▸ h
  · exact h.leave removedBy present hnow

theorem after_addSubgroup (h : Recorded db log) (hnow : now.InFourDigits)
    (group included : GroupUuid) (addedBy : AccountId) :
    let operation := Operation.addSubgroup group included addedBy
    Recorded (operation.after now db) (log ++ operation.changes now db) := by
  simp only [Operation.changes]
  rcases Operation.after_addSubgroup now db group included addedBy with
    hafter | ⟨-, absent, hafter⟩
  · rw [hafter, Bool.not_and_self]
    exact (List.append_nil log).symm ▸ h
  · rw [hafter, absent, Database.isIncluded_attach]
    exact h.attach addedBy absent hnow

theorem after_removeSubgroup (h : Recorded db log) (hnow : now.InFourDigits)
    (group included : GroupUuid) (removedBy : AccountId) :
    let operation := Operation.removeSubgroup group included removedBy
    Recorded (operation.after now db) (log ++ operation.changes now db) := by
  simp only [Operation.changes]
  rcases Operation.after_removeSubgroup now db group included removedBy with
    ⟨hdone, hafter⟩ | ⟨hdone, present, hafter⟩ <;> rw [hafter, hdone]
  · exact (List.append_nil log).symm ▸ h
  · exact h.detach removedBy present hnow

/-- The creator of a new group becomes a member as anybody else does. -/
theorem after_createGroup (h : Recorded db log) (hnow : now.InFourDigits) (group : GroupUuid)
    (name : String) (description : Option String) (owner : Option GroupUuid)
    (creator : AccountId) {createdOn : Instant} (hcreated : createdOn.InFourDigits) :
    let operation := Operation.createGroup group name description owner creator createdOn
    Recorded (operation.after now db) (log ++ operation.changes now db) := by
  simp only [Operation.changes]
  rcases Operation.after_createGroup now db group name description owner creator createdOn with
    hafter | ⟨id, hafter⟩ <;> rw [hafter]
  · rw [Bool.not_and_self]
    exact (List.append_nil log).symm ▸ h
  · have hfounded := h.withGroup group id name description (owner.getD group) hcreated
    exact hfounded.after_addMember hnow group creator creator

/-- Every operation records the changes that it has in effect, and nothing else. -/
theorem after (h : Recorded db log) {α : Type} (operation : Operation α)
    (hclock : ∀ t ∈ operation.readings now, t.InFourDigits) :
    Recorded (operation.after now db) (log ++ operation.changes now db) := by
  have hnow := hclock now (operation.now_mem_readings now)
  have hquiet (hop : operation.managesGroups = false) (hnone : operation.changes now db = []) :
      Recorded (operation.after now db) (log ++ operation.changes now db) := by
    rw [hnone, List.append_nil]
    exact h.of_sameGroups (Operation.sameGroups_after hop now db)
  cases operation with
  | createGroup => exact h.after_createGroup hnow _ _ _ _ _ (hclock _ List.mem_cons_self)
  | addMember => exact h.after_addMember hnow _ _ _
  | removeMember => exact h.after_removeMember hnow _ _ _
  | addSubgroup => exact h.after_addSubgroup hnow _ _ _
  | removeSubgroup => exact h.after_removeSubgroup hnow _ _ _
  | _ => exact hquiet rfl rfl

/-- All calls record the changes that they have in effect. -/
theorem callAll (h : Recorded db log) {calls : List Call}
    (hclock : ∀ c ∈ calls, ∀ t ∈ c.readings, t.InFourDigits) :
    Recorded (callAll db calls) (log ++ logOf db calls) := by
  induction calls generalizing db log with
  | nil => exact (List.append_nil log).symm ▸ h
  | cons c calls ih =>
    obtain ⟨hfirst, hclock⟩ := List.forall_mem_cons.mp hclock
    rw [logOf, ← List.append_assoc]
    exact ih (h.after c.operation hfirst) hclock

/-- An owner is shown the changes of a group that the database has recorded. -/
theorem auditLog (h : Recorded db log) {group : GroupUuid} {caller : AccountId}
    (howner : db.isOwner group caller = true)
    (hlimit : (db.auditedAccounts group).eraseDups.length ≤ Database.accountLimit) :
    ∃ events, (Store.ask (auditLog group caller)).run db = (.ok events, db) ∧
      (events.map AuditEvent.change).Perm (changesOf group log) ∧
      events.Pairwise fun a b => b.date ≤ a.date := by
  obtain ⟨_, _, ⟨members, hmembers, hmembersDated, hmembersLog⟩,
    ⟨includes, hincludes, hincludesDated, hincludesLog⟩, hlog⟩ := h.trail
  have hmemberRows := Database.memberAudits_eq hmembers
  have hincludeRows := Database.includeAudits_eq hincludes
  have haccounts := Database.auditedAccounts_eq hmemberRows hincludeRows group
  obtain ⟨found, hfound, hsome, -⟩ :=
    Database.reply_internalGroup (h.readable_group group)
  have hthere : found.isSome = true := by
    obtain ⟨row, hrow, -⟩ := (Option.any_eq_true _ _).mp howner
    rw [hsome, hrow]
    rfl
  obtain ⟨internal, rfl⟩ := Option.isSome_iff_exists.mp hthere
  obtain ⟨events, hevents, hchanges, hsorted⟩ :=
    eval_auditLog (Database.findsGroups h.groups) hfound
      ((Database.reply_isOwner group caller).trans (congrArg _ howner))
      (Database.reply_membersAudit hmemberRows hmembersDated group)
      (Database.reply_subgroupsAudit hincludeRows hincludesDated group)
      (fun r hr a ha => List.mem_append_left _ (List.mem_flatMap.mpr ⟨r, hr, ha⟩))
      (fun r hr a ha => List.mem_append_right _ (List.mem_flatMap.mpr ⟨r, hr, ha⟩))
      fun ids hnodup hin => Database.reply_accounts <|
        Nat.le_trans (length_le_of_nodup hnodup hin) (haccounts ▸ hlimit)
  refine ⟨events, by simp [hevents], hchanges.trans ?_, hsorted⟩
  have htold : (members.flatMap (Stay.entries memberRoll) ++
      includes.flatMap (Stay.entries includeRoll)).Perm log :=
    (hmembersLog.append hincludesLog).trans hlog
  have hgroup := (htold.filter (·.1 = group)).map Prod.snd
  rw [List.filter_append, List.map_append] at hgroup
  simp only [List.flatMap_map]
  refine .trans (.of_eq ?_) hgroup
  congr 1
  · exact (Stay.changesOf_flatMap_entries memberRoll group members).symm
  · exact (Stay.changesOf_flatMap_entries includeRoll group includes).symm

end Recorded

/-! ## The log of a run -/

/-- Newest first is the reverse of the order of a clock that goes forward. -/
theorem eq_reverse_of_perm {events : List AuditEvent} {changes : List GroupChange}
    (hperm : (events.map AuditEvent.change).Perm changes)
    (hsorted : events.Pairwise fun a b => b.date ≤ a.date)
    (hdates : (changes.map GroupChange.date).Pairwise (· < ·)) :
    events.map AuditEvent.change = changes.reverse := by
  have hreverse := hperm.trans changes.reverse_perm.symm
  have hlt : changes.reverse.Pairwise fun a b => b.date < a.date :=
    List.pairwise_reverse.mpr (List.pairwise_map.mp hdates)
  have hne : changes.reverse.Pairwise fun a b => a.date ≠ b.date := by
    refine hlt.imp fun h e => ?_
    rw [e] at h
    exact Instant.le_refl _ h
  have hle : (events.map AuditEvent.change).Pairwise fun a b => b.date ≤ a.date :=
    List.pairwise_map.mpr hsorted
  have hlt' : (events.map AuditEvent.change).Pairwise fun a b => b.date < a.date := by
    refine (hle.and (hne.perm hreverse.symm Ne.symm)).imp fun h => ?_
    exact Classical.byContradiction fun hnot => h.2 (Instant.le_antisymm hnot h.1)
  refine hreverse.eq_of_pairwise (fun a b _ _ hab hba => ?_) hlt' hlt
  rw [Instant.lt_iff] at hab hba
  omega

/--
Calls are made one after the other, from the empty database on, in years of
four digits.  Whoever owns a group then is shown exactly the changes of its
members that the calls have had in effect, each once, newest first, if the
accounts in its audit rows can all be looked up at once.  If each call is made
later than the one before, the last change is shown first.
-/
theorem audit_log_is_complete {calls : List Call} {group : GroupUuid} {caller : AccountId}
    (hclock : ∀ c ∈ calls, ∀ t ∈ c.readings, t.InFourDigits)
    (howner : (callAll .empty calls).isOwner group caller = true)
    (hlimit : ((callAll .empty calls).auditedAccounts group).eraseDups.length ≤
      Database.accountLimit) :
    let db := callAll .empty calls
    let changes := changesOf group (logOf .empty calls)
    ∃ events, (Store.ask (auditLog group caller)).run db = (.ok events, db) ∧
      (events.map AuditEvent.change).Perm changes ∧
      (events.Pairwise fun a b => b.date ≤ a.date) ∧
      ((calls.map Call.now).Pairwise (· < ·) →
        events.map AuditEvent.change = changes.reverse) := by
  obtain ⟨events, hevents, hperm, hsorted⟩ :=
    (Recorded.empty.callAll hclock).auditLog howner hlimit
  refine ⟨events, hevents, hperm, hsorted, fun hforward => eq_reverse_of_perm hperm hsorted ?_⟩
  refine (hforward.sublist (sublist_dates_logOf .empty calls)).sublist ?_
  rw [changesOf, List.map_map]
  exact (List.filter_sublist).map _

theorem leap_of_minute (n : Fin 60) (h : 1000000000 ≤ 0) : (n.val : Int) % 60 = 59 := by
  omega

theorem in_range_of_minute (n : Fin 60) :
    -8334601228800 ≤ (n.val : Int) ∧ (n.val : Int) < 8210266876800 := by
  omega

/-- So many seconds after the start of 1970. -/
def clockAt (n : Fin 60) : Instant :=
  ⟨n.val, 0, Instant.start.nanos_lt, leap_of_minute n, in_range_of_minute n⟩

theorem mod_sixty_lt (n : Nat) : n % 60 < 60 :=
  Nat.mod_lt n (by decide)

/-- So many seconds into the first minute of 1970. -/
def second (n : Nat) : Instant := clockAt ⟨n % 60, mod_sixty_lt n⟩

/-- Account 2 is added twice and removed twice, and a group of another system is included. -/
def visitCalls : List Call :=
  [⟨.createAccount none none none, clockAt 0⟩, ⟨.createAccount none none none, clockAt 1⟩,
   ⟨.createGroup ⟨"g"⟩ "g" none none ⟨1⟩ (clockAt 1), clockAt 2⟩, ⟨.addMember ⟨"g"⟩ ⟨2⟩ ⟨1⟩, clockAt 3⟩,
   ⟨.addMember ⟨"g"⟩ ⟨2⟩ ⟨1⟩, clockAt 4⟩, ⟨.removeMember ⟨"g"⟩ ⟨2⟩ ⟨2⟩, clockAt 5⟩,
   ⟨.removeMember ⟨"g"⟩ ⟨2⟩ ⟨2⟩, clockAt 6⟩, ⟨.describeExternal ⟨⟨"h"⟩, "h", none⟩, clockAt 7⟩,
   ⟨.addSubgroup ⟨"g"⟩ ⟨"h"⟩ ⟨1⟩, clockAt 8⟩]

/-- The second addition and the second removal have no effect, and the log does not show them. -/
theorem visit_is_shown :
    ∃ events, (Store.ask (auditLog ⟨"g"⟩ ⟨1⟩)).run (callAll .empty visitCalls) =
        (.ok events, callAll .empty visitCalls) ∧
      events.map AuditEvent.change =
        [⟨.addGroup, ⟨1⟩, .inr "h", clockAt 8⟩, ⟨.removeUser, ⟨2⟩, .inl ⟨2⟩, clockAt 5⟩,
         ⟨.addUser, ⟨1⟩, .inl ⟨2⟩, clockAt 3⟩, ⟨.addUser, ⟨1⟩, .inl ⟨1⟩, clockAt 2⟩] := by
  obtain ⟨events, hevents, -, -, hreverse⟩ := @audit_log_is_complete visitCalls ⟨"g"⟩ ⟨1⟩
    (by decide +kernel) (by decide +kernel) (by decide +kernel)
  refine ⟨events, hevents, (hreverse (by decide +kernel)).trans ?_⟩
  decide +kernel

end AccessLedger
