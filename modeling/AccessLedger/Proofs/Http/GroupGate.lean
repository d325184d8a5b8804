import AccessLedger.Proofs.Audit.Failures
import AccessLedger.Proofs.Http.Refusals

/-!
# One gate for every way to a group

The audit log lets owners of an internal group in; the requests that change a
group ask for the same before they begin; and the operations that they are for
ask once more whether the group is internal.  What these gates say is a matter
of three tables (`gateReply?`).  A request to a group is refused by its gate
with this reply, whatever it is for, and the replies to other requests are
different ones (`one_gate_for_every_request`).
-/

namespace AccessLedger

/-! ## The gate of a group -/

/-- The row of a group can be read, if there is one. -/
def Database.ReadsGroup (db : Database) (uuid : GroupUuid) : Prop :=
  ∀ row, db.group? uuid = some row → ∃ stored internal,
    storedGroup? uuid row = some stored ∧ stored.decode = .ok internal

/-- Why the gate of a group refuses a caller, if it does. -/
def Database.gateFailure? (db : Database) (uuid : GroupUuid) (caller : AccountId) :
    Option Failure :=
  match db.group? uuid with
  | some row => if db.isMember row.owner caller then none else some .notOwner
  | none =>
    some (if (db.description? uuid).isSome then .unsupportedGroup uuid else .groupNotFound uuid)

section

variable {db : Database} {uuid : GroupUuid} {caller : AccountId}

theorem gateFailure?_of_none (hrow : db.group? uuid = none) : db.gateFailure? uuid caller =
    some (if (db.description? uuid).isSome then .unsupportedGroup uuid
      else .groupNotFound uuid) := by
  rw [Database.gateFailure?, hrow]

theorem gateFailure?_of_some {row : GroupRow} (hrow : db.group? uuid = some row) :
    db.gateFailure? uuid caller =
      if db.isMember row.owner caller then none else some .notOwner := by
  rw [Database.gateFailure?, hrow]

theorem uuid_of_decode {stored : StoredGroup} {internal : InternalGroup}
    (h : stored.decode = .ok internal) : internal.uuid = stored.uuid := by
  unfold StoredGroup.decode at h
  cases hcreated : decodeTimestamp stored.createdOn with
  | error e =>
    rw [hcreated] at h
    cases h
  | ok createdOn =>
    rw [hcreated] at h
    cases h
    rfl

theorem uuid_of_storedGroup? {row : GroupRow} {stored : StoredGroup}
    (h : Database.storedGroup? uuid row = some stored) : stored.uuid = uuid := by
  obtain ⟨id, -, h⟩ := Option.bind_eq_some_iff.mp h
  obtain ⟨visible, -, h⟩ := Option.bind_eq_some_iff.mp h
  cases h
  rfl

/-- An internal group passes if its row can be read. -/
theorem exists_run_requireInternal (hread : db.ReadsGroup uuid) {row : GroupRow}
    (hrow : db.group? uuid = some row) : ∃ internal, internal.uuid = uuid ∧
      (Store.ask (requireInternal uuid)).run db = (.ok internal, db) := by
  obtain ⟨stored, internal, hstored, hdecode⟩ := hread row hrow
  have hreply : db.reply (.internalGroup uuid) = .ok (some internal) := by
    rw [Database.reply, Store.answer, Store.internalGroup, run_query_bind]
    simp only [Database.perform, hrow, hstored, Option.map_some, Database.answer, hdecode]
    rfl
  refine ⟨internal, (uuid_of_decode hdecode).trans (uuid_of_storedGroup? hstored), ?_⟩
  rw [Store.run_ask, requireInternal, Program.eval_bind_of_ok ((Program.eval_query _).trans hreply)]
  rfl

theorem run_requireOwnership (uuid : GroupUuid) (caller : AccountId) (db : Database) :
    (Store.ask (requireOwnership uuid caller)).run db =
      (if db.isOwner uuid caller then .ok () else .error .notOwner, db) := by
  rw [Store.run_ask, requireOwnership,
    Program.eval_bind_of_ok ((Program.eval_query _).trans (db.reply_isOwner uuid caller))]
  cases db.isOwner uuid caller <;> rfl

/--
What stands behind the gate is reached with the group if the gate does not
refuse the caller.  The identifier that ownership is asked for may be taken from
the group.
-/
theorem run_gate {α : Type} (hread : db.ReadsGroup uuid) (caller : AccountId)
    (f : InternalGroup → GroupUuid) (hf : ∀ g, g.uuid = uuid → f g = uuid)
    (next : InternalGroup → BackendProgram α) :
    let guarded := Store.ask do
      let g ← requireInternal uuid
      requireOwnership (f g) caller
      next g
    match db.gateFailure? uuid caller with
    | some e => guarded.run db = (.error e, db)
    | none => ∃ g, g.uuid = uuid ∧ guarded.run db = (Store.ask (next g)).run db := by
  intro guarded
  have hguarded : guarded = Store.ask (requireInternal uuid) >>= fun g =>
      Store.ask (requireOwnership (f g) caller) >>= fun _ => Store.ask (next g) :=
    (Http.ask_andThen _ _).trans (bind_congr fun g => Http.ask_andThen _ _)
  rw [hguarded]
  cases hrow : db.group? uuid with
  | none =>
    rw [gateFailure?_of_none hrow]
    exact run_bind_of_error (Store.run_requireInternal_of_none hrow) _
  | some row =>
    obtain ⟨g, hg, hinternal⟩ := exists_run_requireInternal hread hrow
    have howner := run_requireOwnership uuid caller db
    rw [Database.isOwner, hrow, Option.any_some] at howner
    rw [gateFailure?_of_some hrow, run_bind_of_ok hinternal, hf g hg]
    cases hmember : db.isMember row.owner caller with
    | true =>
      rw [hmember] at howner
      exact ⟨g, hg, run_bind_of_ok howner _⟩
    | false =>
      rw [hmember] at howner
      exact run_bind_of_error howner _

end

namespace Http

/-! ## What fails behind the gate -/

/-- Why a request fails that the gate of a group has let pass. -/
inductive BeyondGate (uuid : GroupUuid) : Failure → Prop
  | store (fault : StoreFault) : BeyondGate uuid (.store fault)
  | noAccount (id : AccountId) : BeyondGate uuid (.accountNotFound id)
  | noGroup {included : GroupUuid} (h : included ≠ uuid) : BeyondGate uuid (.groupNotFound included)
  | noMember (member : String) : BeyondGate uuid (.notMember member uuid)

section

variable {db db' : Database} {uuid : GroupUuid} {caller : AccountId} {now : Instant} {e : Failure}

theorem run_requireOwner (hread : db.ReadsGroup uuid) :
    (requireOwner uuid caller).run db = match db.gateFailure? uuid caller with
      | some e => (.error e, db)
      | none => (.ok (), db) := by
  have howner : requireOwner uuid caller = Store.ask do
      let _ ← requireInternal uuid
      requireOwnership uuid caller
      return () := congrArg Store.ask (bind_congr fun _ => bind_pure_unit.symm)
  have hgate := run_gate hread caller (fun _ => uuid) (fun _ _ => rfl) fun _ => pure ()
  rw [howner]
  cases hfailure : db.gateFailure? uuid caller with
  | some e =>
    rw [hfailure] at hgate
    exact hgate
  | none =>
    rw [hfailure] at hgate
    obtain ⟨g, -, hrun⟩ := hgate
    exact hrun

/-- Whoever has passed the gate asks for a group that is internal. -/
theorem exists_row_of_gateFailure? (h : db.gateFailure? uuid caller = none) :
    ∃ row, db.group? uuid = some row := by
  cases hrow : db.group? uuid with
  | none =>
    rw [gateFailure?_of_none hrow] at h
    cases h
  | some row => exact ⟨row, rfl⟩

section

variable {g : InternalGroup} (hinternal : (Store.ask (requireInternal uuid)).run db = (.ok g, db))

include hinternal

theorem beyondGate_of_addMember {member addedBy : AccountId}
    (h : (Store.addMember uuid member addedBy now).run db = (.error e, db')) :
    BeyondGate uuid e := by
  by_cases hfound : db.hasAccount member = true
  · rw [Store.run_addMember hinternal hfound] at h
    rcases db.beginMembership_cases uuid member addedBy now with ⟨-, hcase⟩ | ⟨-, hcase | hcase⟩ <;>
      rw [hcase] at h <;> cases h
    exact .store _
  · rw [Store.run_addMember_of_missing hinternal (Bool.eq_false_iff.mpr hfound)] at h
    cases h
    exact .noAccount member

theorem beyondGate_of_removeMember {member removedBy : AccountId}
    (h : (Store.removeMember uuid member removedBy now).run db = (.error e, db')) :
    BeyondGate uuid e := by
  rw [Store.run_removeMember hinternal] at h
  split at h <;> cases h
  exact .noMember _

theorem beyondGate_of_addSubgroup {row : GroupRow} (hrow : db.group? uuid = some row)
    {included : GroupUuid} {addedBy : AccountId}
    (h : (Store.addSubgroup uuid included addedBy now).run db = (.error e, db')) :
    BeyondGate uuid e := by
  cases hfound : db.description? included with
  | some d =>
    rw [Store.run_addSubgroup hinternal (by rw [hfound]; rfl)] at h
    rcases db.beginInclusion_cases uuid included addedBy now with
      ⟨-, hcase⟩ | ⟨-, hcase | hcase⟩ <;> rw [hcase] at h <;> cases h
    exact .store _
  | none =>
    have hne : included ≠ uuid := by
      rintro rfl
      rw [Database.description?, hrow] at hfound
      cases hfound
    rw [Store.run_addSubgroup_of_missing hinternal (by rw [hfound]; rfl)] at h
    cases h
    exact .noGroup hne

theorem beyondGate_of_removeSubgroup {included : GroupUuid} {removedBy : AccountId}
    (h : (Store.removeSubgroup uuid included removedBy now).run db = (.error e, db')) :
    BeyondGate uuid e := by
  rw [Store.run_removeSubgroup hinternal] at h
  split at h <;> cases h
  exact .noMember _

end

/-- The group that a task is about. -/
def Task.group? : Task → Option GroupUuid
  | .readLog uuid => some uuid
  | .addMember uuid _ => some uuid
  | .removeMember uuid _ => some uuid
  | .addSubgroup uuid _ => some uuid
  | .removeSubgroup uuid _ => some uuid
  | .readAccess _ => none
  | .commit _ _ => none

/-- Whoever is refused by the gate is refused by a task on the group, and nothing has changed. -/
theorem run_task_of_refused (hread : db.ReadsGroup uuid) {task : Task}
    (hgroup : task.group? = some uuid) (h : db.gateFailure? uuid caller = some e) :
    (task.program caller now).run db = (.error e, db) := by
  have howner : (requireOwner uuid caller).run db = (.error e, db) := by
    rw [run_requireOwner hread, h]
  cases task with
  | readLog uuid =>
    cases hgroup
    have hgate := run_gate hread caller InternalGroup.uuid (fun _ => id) logOfGroup
    rw [h] at hgate
    exact run_bind_of_error hgate _
  | addMember | removeMember | addSubgroup | removeSubgroup =>
    cases hgroup
    exact run_bind_of_error howner _
  | readAccess | commit => cases hgroup

/-- What becomes of an answer does not fail. -/
theorem run_of_bind_pure {α β : Type} {p : StoreProgram α} {f : α → β}
    (h : StoreProgram.run (p >>= fun a => pure (f a)) db = (.error e, db')) :
    p.run db = (.error e, db') := by
  match hrun : p.run db with
  | (.ok a, after) =>
    rw [run_bind_of_ok hrun] at h
    cases h
  | (.error e', after) =>
    rw [run_bind_of_error hrun] at h
    cases h
    rfl

/-- A task that the gate lets pass fails for other reasons, if it fails. -/
theorem beyondGate_of_run_task (hread : db.ReadsGroup uuid) {task : Task}
    (hgroup : task.group? = some uuid) (h : db.gateFailure? uuid caller = none)
    (hrun : (task.program caller now).run db = (.error e, db')) : BeyondGate uuid e := by
  obtain ⟨row, hrow⟩ := exists_row_of_gateFailure? h
  obtain ⟨g, -, hinternal⟩ := exists_run_requireInternal hread hrow
  have howner : (requireOwner uuid caller).run db = (.ok (), db) := by
    rw [run_requireOwner hread, h]
  have hchange {change : StoreProgram Unit}
      (hchanged : StoreProgram.run (requireOwner uuid caller >>= fun _ => change >>= fun _ =>
        pure noContent) db = (.error e, db')) : change.run db = (.error e, db') := by
    rw [run_bind_of_ok howner] at hchanged
    exact run_of_bind_pure hchanged
  cases task with
  | readLog uuid =>
    cases hgroup
    have hgate := run_gate hread caller InternalGroup.uuid (fun _ => id) logOfGroup
    rw [h] at hgate
    obtain ⟨internal, -, hlog⟩ := hgate
    have hfails : (Store.ask (auditLog uuid caller)).run db = (.error e, db') :=
      run_of_bind_pure hrun
    have hfails' := congrArg Prod.fst (hlog.symm.trans hfails)
    obtain ⟨fault, rfl⟩ := (unfailing_logOfGroup internal).failsByStore_ask db e hfails'
    exact .store fault
  | addMember =>
    cases hgroup
    exact beyondGate_of_addMember hinternal (hchange hrun)
  | removeMember =>
    cases hgroup
    exact beyondGate_of_removeMember hinternal (hchange hrun)
  | addSubgroup =>
    cases hgroup
    exact beyondGate_of_addSubgroup hinternal hrow (hchange hrun)
  | removeSubgroup =>
    cases hgroup
    exact beyondGate_of_removeSubgroup hinternal (hchange hrun)
  | readAccess | commit => cases hgroup

/-- A task on a group that is done is answered by a success. -/
theorem isSuccess_of_run_task {task : Task} (hgroup : task.group? = some uuid) {reply : Reply}
    (hrun : (task.program caller now).run db = (.ok reply, db')) : reply.isSuccess = true := by
  cases task with
  | readLog =>
    obtain ⟨events, between, -, hreply⟩ := exists_of_run_bind hrun
    cases hreply
    rfl
  | addMember | removeMember | addSubgroup | removeSubgroup => exact Task.isSuccess_of_run rfl hrun
  | readAccess | commit => cases hgroup

end

/-! ## Replies -/

/-- The replies by which the gate of a group can refuse a caller. -/
def gateReplies (uuid : GroupUuid) : List Reply :=
  [.error 403 "not an owner",
   .error 405 ("group " ++ uuid.text ++ " is not an internal group"),
   .error 404 ("group not found: " ++ uuid.text)]

/--
The reply by which the gate of a group refuses a caller, if it does: as far as
the tables of groups, of their members and of other groups tell.
-/
def gateReply? (db : Database) (uuid : GroupUuid) (caller : AccountId) : Option Reply :=
  match db.groups.find? (·.uuid = some uuid) with
  | some row =>
    if (⟨row.owner, caller.scalar⟩ : MemberRow) ∈ db.members then none
    else some (.error 403 "not an owner")
  | none =>
    if db.externals.any (·.uuid = some uuid) then
      some (.error 405 ("group " ++ uuid.text ++ " is not an internal group"))
    else some (.error 404 ("group not found: " ++ uuid.text))

section

variable {db db' : Database} {uuid : GroupUuid} {caller : AccountId}

/-- The gate fails as it does, and its failure is reported. -/
theorem gateReply?_eq (db : Database) (uuid : GroupUuid) (caller : AccountId) :
    gateReply? db uuid caller =
      (db.gateFailure? uuid caller).map fun e => (ApiError.ofFailure e).reply := by
  have hrow : db.groups.find? (·.uuid = some uuid) = db.group? uuid := rfl
  rw [gateReply?, hrow, Database.gateFailure?]
  cases hgroup : db.group? uuid with
  | some row =>
    by_cases hmember : (⟨row.owner, caller.scalar⟩ : MemberRow) ∈ db.members
    · simp only [hmember, Database.isMember, if_true, decide_true]
      rfl
    · simp only [hmember, Database.isMember, if_false, decide_false, Bool.false_eq_true]
      rfl
  | none =>
    have hdescribed : (db.description? uuid).isSome = db.externals.any (·.uuid = some uuid) := by
      rw [Database.description?, hgroup]
      exact Option.isSome_map.trans List.isSome_find?
    rw [hdescribed]
    cases db.externals.any (·.uuid = some uuid) <;> rfl

theorem mem_gateReplies {reply : Reply} (h : gateReply? db uuid caller = some reply) :
    reply ∈ gateReplies uuid := by
  unfold gateReply? at h
  split at h
  · split at h
    · cases h
    · cases h
      simp [gateReplies]
  · split at h <;> cases h <;> simp [gateReplies]

theorem Reply.error_inj {status status' : Nat} {text text' : String}
    (h : Reply.error status text = Reply.error status' text') :
    status = status' ∧ text = text' := by
  cases h
  exact ⟨rfl, rfl⟩

theorem not_mem_gateReplies_of_isSuccess {reply : Reply} (h : reply.isSuccess = true) :
    reply ∉ gateReplies uuid := by
  intro hin
  simp only [gateReplies, List.mem_cons, List.not_mem_nil, or_false] at hin
  rcases hin with rfl | rfl | rfl <;> cases h

theorem BeyondGate.not_mem_gateReplies {e : Failure} (h : BeyondGate uuid e) :
    (ApiError.ofFailure e).reply ∉ gateReplies uuid := by
  intro hin
  simp only [gateReplies, List.mem_cons, List.not_mem_nil, or_false] at hin
  have hstatus : (ApiError.ofFailure e).status = 404 ∧
      (ApiError.ofFailure e).text = "group not found: " ++ uuid.text := by
    rcases hin with hin | hin | hin
    · cases h <;> cases (Reply.error_inj hin).1
    · cases h <;> cases (Reply.error_inj hin).1
    · exact Reply.error_inj hin
  obtain ⟨hstatus, htext⟩ := hstatus
  cases h with
  | store fault => cases hstatus
  | noAccount id =>
    have htexts : "account not found: " ++ id.display = "group not found: " ++ uuid.text := htext
    have hlists := congrArg String.toList htexts
    simp at hlists
  | @noGroup included hne =>
    have htexts : "group not found: " ++ included.text = "group not found: " ++ uuid.text := htext
    have hlists := congrArg String.toList htexts
    simp only [String.toList_append, List.append_cancel_left_eq, String.toList_inj] at hlists
    exact hne (congrArg GroupUuid.mk hlists)
  | noMember member =>
    -- the texts end alike, and what is left of one is longer than what is left of the other
    have htexts : member ++ " is not a member of group " ++ uuid.text =
        "group not found: " ++ uuid.text := htext
    have hlengths := congrArg String.length htexts
    have hlong : " is not a member of group ".length = 26 := by decide
    have hshort : "group not found: ".length = 17 := by decide
    simp only [String.length_append] at hlengths
    omega

end

/-! ## Requests to a group -/

/-- A request to read the log of a group or to change it, with parameters that can be read. -/
inductive GroupRequest (uuid : GroupUuid) (r : Request) : Prop
  | log {raw : List Char}
      (route : Route.ofPath? (segments (pathOf r.target)) = some (.auditLog raw))
      (named : Text.Percent.decode raw = some uuid.text) (method : r.method = "GET")
  | member {raw account : List Char} {id : AccountId}
      (route : Route.ofPath? (segments (pathOf r.target)) = some (.member raw account))
      (named : Text.Percent.decode raw = some uuid.text)
      (numbered : accountParameter? account = some id)
      (method : r.method = "PUT" ∨ r.method = "DELETE")
  | subgroup {raw included : List Char} {text : String}
      (route : Route.ofPath? (segments (pathOf r.target)) = some (.subgroup raw included))
      (named : Text.Percent.decode raw = some uuid.text)
      (included : Text.Percent.decode included = some text)
      (method : r.method = "PUT" ∨ r.method = "DELETE")

section

variable {db db' : Database} {uuid : GroupUuid} {caller : AccountId} {r : Request} {now : Instant}

theorem plan_of_action {route : Route} {raw : RawAction} {action : Action String AccountId}
    {task : Task} {method : String} (hmethod : r.method = method)
    (hroute : Route.ofPath? (segments (pathOf r.target)) = some route)
    (hraw : route.action? method = some raw) (haction : raw.decode? = some action)
    (htask : action.task r = .ok task) : plan (some caller) r = .ok (caller, task) := by
  rw [← hmethod] at hraw
  simp only [plan, hroute, hraw, haction, htask]
  rfl

theorem GroupRequest.method_ne (h : GroupRequest uuid r) : r.method ≠ "HEAD" := by
  cases h with
  | log _ _ method =>
    rw [method]
    decide
  | member _ _ _ method | subgroup _ _ _ method =>
    rcases method with method | method <;> rw [method] <;> decide

/-- A request to a group asks for a task on it. -/
theorem GroupRequest.exists_task (h : GroupRequest uuid r) (caller : AccountId) :
    ∃ task, plan (some caller) r = .ok (caller, task) ∧ task.group? = some uuid := by
  cases h with
  | @log raw route named method =>
    have haction : Action.decode? (.readLog raw) = some (.readLog uuid.text) := by
      rw [Action.decode?, named]
      rfl
    exact ⟨.readLog uuid, plan_of_action method route rfl haction rfl, rfl⟩
  | @member raw account id route named numbered method =>
    rcases method with method | method
    · have haction : Action.decode? (.addMember raw account) = some (.addMember uuid.text id) := by
        rw [Action.decode?, named, numbered]
        rfl
      exact ⟨.addMember uuid id, plan_of_action method route rfl haction rfl, rfl⟩
    · have haction : Action.decode? (.removeMember raw account) =
          some (.removeMember uuid.text id) := by
        rw [Action.decode?, named, numbered]
        rfl
      exact ⟨.removeMember uuid id, plan_of_action method route rfl haction rfl, rfl⟩
  | @subgroup raw included text route named hincluded method =>
    rcases method with method | method
    · have haction : Action.decode? (.addSubgroup raw included) =
          some (.addSubgroup uuid.text text) := by
        rw [Action.decode?, named, hincluded]
        rfl
      exact ⟨.addSubgroup uuid ⟨text⟩, plan_of_action method route rfl haction rfl, rfl⟩
    · have haction : Action.decode? (.removeSubgroup raw included) =
          some (.removeSubgroup uuid.text text) := by
        rw [Action.decode?, named, hincluded]
        rfl
      exact ⟨.removeSubgroup uuid ⟨text⟩, plan_of_action method route rfl haction rfl, rfl⟩

theorem respond_of_run_ok {task : Task} {reply : Reply} (hmethod : r.method ≠ "HEAD")
    (hplan : plan (some caller) r = .ok (caller, task))
    (hrun : (task.program caller now).run db = (.ok reply, db')) :
    respond (some caller) r now db = (reply, db') := by
  simp only [respond, hplan, hrun, if_neg hmethod]

theorem respond_of_run_error {task : Task} {e : Failure} (hmethod : r.method ≠ "HEAD")
    (hplan : plan (some caller) r = .ok (caller, task))
    (hrun : (task.program caller now).run db = (.error e, db')) :
    respond (some caller) r now db = ((ApiError.ofFailure e).reply, db') := by
  simp only [respond, hplan, hrun, if_neg hmethod]

/-- A request to a group gets the reply of its gate, or one that is not from there. -/
theorem GroupRequest.respond (hread : db.ReadsGroup uuid) (h : GroupRequest uuid r)
    (caller : AccountId) (now : Instant) :
    match gateReply? db uuid caller with
    | some reply => Http.respond (some caller) r now db = (reply, db)
    | none => (Http.respond (some caller) r now db).1 ∉ gateReplies uuid := by
  obtain ⟨task, hplan, hgroup⟩ := h.exists_task caller
  rw [gateReply?_eq]
  cases hgate : db.gateFailure? uuid caller with
  | some e =>
    exact respond_of_run_error h.method_ne hplan (run_task_of_refused hread hgroup hgate)
  | none =>
    obtain ⟨result, db', hrun⟩ : ∃ result db', (task.program caller now).run db = (result, db') :=
      ⟨_, _, rfl⟩
    cases result with
    | ok reply =>
      have hreply := respond_of_run_ok h.method_ne hplan hrun
      exact hreply ▸ not_mem_gateReplies_of_isSuccess (isSuccess_of_run_task hgroup hrun)
    | error e =>
      have hbeyond := beyondGate_of_run_task hread hgroup hgate hrun
      have hreply := respond_of_run_error h.method_ne hplan hrun
      exact hreply ▸ hbeyond.not_mem_gateReplies

/-- Where the gate has let a caller pass, the group is internal. -/
theorem exists_internal_of_requireOwner
    (h : (requireOwner uuid caller).run db = (.ok (), db')) :
    db' = db ∧ ∃ g, (Store.ask (requireInternal uuid)).run db' = (.ok g, db') := by
  obtain rfl : db' = db := by
    have hsame := run_of_asks_isRead (Store.asks_ask (do
      let _ ← requireInternal uuid
      requireOwnership uuid caller)) db
    exact (congrArg Prod.snd h).symm.trans hsame
  refine ⟨rfl, ?_⟩
  rw [requireOwner, ask_andThen] at h
  obtain ⟨g, between, hinternal, howner⟩ := exists_of_run_bind h
  have hbetween := run_of_asks_isRead (Store.asks_ask (requireInternal uuid)) db'
  rw [hinternal] at hbetween
  obtain rfl := hbetween
  exact ⟨g, hinternal⟩

end

/--
The row of a group can be read, if there is one.  Then the requests to the
group by a caller are either all refused by its gate, with one reply, or none of
them is; a group that the gate has found internal is so for the store; and the
reply of the gate is the same wherever the groups, the descriptions of others and
the members are the same.
-/
theorem one_gate_for_every_request {db : Database} {uuid : GroupUuid}
    (hread : db.ReadsGroup uuid) (caller : AccountId) :
    (∀ r now, GroupRequest uuid r → match gateReply? db uuid caller with
      | some reply => respond (some caller) r now db = (reply, db)
      | none => (respond (some caller) r now db).1 ∉ gateReplies uuid) ∧
    (∀ db', (requireOwner uuid caller).run db = (.ok (), db') →
      db' = db ∧ ∃ g, (Store.ask (requireInternal uuid)).run db' = (.ok g, db')) ∧
    ∀ db', db'.groups = db.groups → db'.externals = db.externals → db'.members = db.members →
      ∀ r r' now now', GroupRequest uuid r → GroupRequest uuid r' →
        (respond (some caller) r now db).1 ∈ gateReplies uuid →
        respond (some caller) r' now' db' = ((respond (some caller) r now db).1, db') := by
  refine ⟨fun r now h => h.respond hread caller now, fun db' => exists_internal_of_requireOwner, ?_⟩
  intro db' hgroups hexternals hmembers r r' now now' h h' hrefused
  have hread' : db'.ReadsGroup uuid := by
    intro row hrow
    rw [Database.group?, hgroups] at hrow
    exact hread row hrow
  have hgate : gateReply? db' uuid caller = gateReply? db uuid caller := by
    simp only [gateReply?, hgroups, hexternals, hmembers]
  have hhere := h.respond hread caller now
  have hthere := h'.respond hread' caller now'
  rw [hgate] at hthere
  cases hreply : gateReply? db uuid caller with
  | none =>
    rw [hreply] at hhere
    exact absurd hrefused hhere
  | some reply =>
    rw [hreply] at hhere hthere
    rw [hhere]
    exact hthere

theorem readsGroup_twoGroups : twoGroups.ReadsGroup ⟨"g"⟩ := by
  intro row hrow
  have hreads : (twoGroups.group? ⟨"g"⟩).any (fun row =>
      (Database.storedGroup? ⟨"g"⟩ row).any fun stored => stored.decode.isOk) = true := by
    decide +kernel
  rw [hrow, Option.any_some] at hreads
  obtain ⟨stored, hstored, hdecode⟩ := (Option.any_eq_true _ _).mp hreads
  cases hinternal : stored.decode with
  | error e =>
    rw [hinternal] at hdecode
    cases hdecode
  | ok internal => exact ⟨stored, internal, hstored, hinternal⟩

/-- To read the log of `g`. -/
def readLogOfG : Request := { method := "GET", target := "/groups/g/log.audit".toList }

/-- To remove account 1 from `g`. -/
def removeFromG : Request := { method := "DELETE", target := "/groups/g/members/1".toList }

theorem groupRequest_readLogOfG : GroupRequest ⟨"g"⟩ readLogOfG :=
  @GroupRequest.log _ _ ['g'] rfl rfl rfl

theorem groupRequest_removeFromG : GroupRequest ⟨"g"⟩ removeFromG :=
  @GroupRequest.member _ _ ['g'] ['1'] ⟨1⟩ rfl rfl rfl (.inr rfl)

/-- Account 2 is refused whatever it asks of `g`, also where there are no accounts. -/
theorem stranger_meets_one_gate :
    respond (some ⟨2⟩) readLogOfG .start twoGroups = (.error 403 "not an owner", twoGroups) ∧
    respond (some ⟨2⟩) removeFromG .start twoGroups = (.error 403 "not an owner", twoGroups) ∧
    (respond (some ⟨2⟩) removeFromG .start { twoGroups with accounts := [] }).1 =
      .error 403 "not an owner" ∧
    (respond (some ⟨1⟩) removeFromG .start twoGroups).1 ∉ gateReplies ⟨"g"⟩ := by
  obtain ⟨hrefused, -, hsame⟩ := one_gate_for_every_request readsGroup_twoGroups ⟨2⟩
  obtain ⟨hpassed, -, -⟩ := one_gate_for_every_request readsGroup_twoGroups ⟨1⟩
  have hstranger : gateReply? twoGroups ⟨"g"⟩ ⟨2⟩ = some (.error 403 "not an owner") := by
    rfl
  have howner : gateReply? twoGroups ⟨"g"⟩ ⟨1⟩ = none := by
    rfl
  rw [hstranger] at hrefused
  rw [howner] at hpassed
  have hlog := hrefused readLogOfG .start groupRequest_readLogOfG
  have hwithout := hsame { twoGroups with accounts := [] } rfl rfl rfl readLogOfG removeFromG
    .start .start groupRequest_readLogOfG groupRequest_removeFromG
    (by rw [hlog]; exact mem_gateReplies hstranger)
  refine ⟨hlog, hrefused removeFromG .start groupRequest_removeFromG, ?_,
    hpassed removeFromG .start groupRequest_removeFromG⟩
  rw [hwithout, hlog]

end Http

end AccessLedger
