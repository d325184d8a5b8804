import AccessLedger.Proofs.Http.Confinement
import AccessLedger.Proofs.Http.Unapplied
import AccessLedger.Proofs.Store.AllOrNothing

/-!
# Requests that fail change nothing

What a request asks for is all or nothing, as the operations of the store are
(`Task.allOrNothing`).  A reply that is not a success has one of three causes.
The request is refused before the store is looked at; or its program fails, and
undoes what it has done; or it answers that there is no such project, which
only a task that reads does (`Task.isSuccess_of_run`).  The requests that a
client takes to be safe have tasks that read (`isRead_of_plan`), so they change
nothing even if they succeed.
-/

namespace AccessLedger.Http

variable {user : Option AccountId} {r : Request} {caller : AccountId} {task : Task}
  {db db' : Database} {now : Instant}

/-- Whether a task changes nothing. -/
def Task.isRead : Task → Bool
  | .readLog _ | .readAccess _ => true
  | _ => false

theorem Task.asks_program (caller : AccountId) (now : Instant) (h : task.isRead = true) :
    (task.program caller now).Asks fun q => q.isRead = true := by
  cases task with
  | readLog uuid => exact Program.asks_bind (Store.asks_ask _) fun _ => trivial
  | readAccess project =>
    refine Program.asks_bind ?_ fun config => ?_
    · refine Program.asks_bind (Store.asks_project project) fun found => ?_
      cases found with
      | none => trivial
      | some p => exact Program.asks_bind (Program.asks_query rfl) fun _ => trivial
    · cases config <;> trivial
  | _ => cases h

/-! ## What a task leaves behind -/

/-- The gate before a change only reads. -/
theorem allOrNothing_change {uuid : GroupUuid} {change : StoreProgram Unit}
    (h : AllOrNothing change) :
    AllOrNothing (requireOwner uuid caller >>= fun _ => change >>= fun _ => pure noContent) :=
  .bind_of_asks_isRead (Store.asks_ask _) fun _ => h.bind_done _

/-- A change that goes through is answered by one reply, whatever has been changed. -/
theorem eq_noContent_of_run {uuid : GroupUuid} {change : StoreProgram Unit} {reply : Reply}
    (h : StoreProgram.run (requireOwner uuid caller >>= fun _ => change >>= fun _ =>
      pure noContent) db = (.ok reply, db')) : reply = noContent := by
  obtain ⟨-, passed, -, hchange⟩ := exists_of_run_bind h
  obtain ⟨-, changed, -, hreply⟩ := exists_of_run_bind hchange
  cases hreply
  rfl

theorem Task.allOrNothing (caller : AccountId) (now : Instant) (task : Task) :
    AllOrNothing (task.program caller now) := by
  cases task with
  | readLog uuid => exact .of_asks_isRead (asks_program caller now rfl)
  | readAccess project => exact .of_asks_isRead (asks_program caller now rfl)
  | addMember uuid account => exact allOrNothing_change (Store.allOrNothing_addMember _ _ _ _)
  | removeMember uuid account =>
    exact allOrNothing_change (Store.allOrNothing_removeMember _ _ _ _)
  | addSubgroup uuid included =>
    exact allOrNothing_change (Store.allOrNothing_addSubgroup _ _ _ _)
  | removeSubgroup uuid included =>
    exact allOrNothing_change (Store.allOrNothing_removeSubgroup _ _ _ _)
  | commit project body => exact (Store.allOrNothing_applyAccess _ _ _ _).bind_done _

/-- A task that may change something never answers by an error. -/
theorem Task.isSuccess_of_run (h : task.isRead = false) {reply : Reply}
    (hrun : (task.program caller now).run db = (.ok reply, db')) : reply.isSuccess = true := by
  cases task with
  | readLog | readAccess => cases h
  | addMember | removeMember | addSubgroup | removeSubgroup =>
    rw [eq_noContent_of_run hrun]
    rfl
  | commit project body =>
    obtain ⟨answer, -, rfl⟩ := exists_answer_of_commit hrun
    rfl

/-! ## What a request leaves behind -/

/-- A request is planned by way of its route, the method there and the parameters. -/
theorem exists_action_of_plan (h : plan user r = .ok (caller, task)) :
    ∃ route raw action, Route.ofPath? (segments (pathOf r.target)) = some route ∧
      route.action? r.method = some raw ∧ raw.decode? = some action ∧
      action.task r = .ok task := by
  unfold plan at h
  split at h
  · cases h
  next route hroute =>
  split at h
  · cases h
  next raw hraw =>
  split at h
  · cases h
  split at h
  · cases h
  next action haction =>
  cases htask : action.task r with
  | error refusal =>
    rw [htask] at h
    cases h
  | ok planned =>
    rw [htask] at h
    cases h
    exact ⟨route, raw, action, hroute, hraw, haction, htask⟩

/-- What is asked for by `GET`, and by `HEAD`, only reads. -/
theorem isRead_of_plan (hmethod : r.method = "GET" ∨ r.method = "HEAD")
    (h : plan user r = .ok (caller, task)) : task.isRead = true := by
  obtain ⟨route, raw, action, -, hraw, haction, htask⟩ := exists_action_of_plan h
  have hput : r.method ≠ "PUT" := by
    rcases hmethod with hmethod | hmethod <;> rw [hmethod] <;> decide
  have hdelete : r.method ≠ "DELETE" := by
    rcases hmethod with hmethod | hmethod <;> rw [hmethod] <;> decide
  cases route with
  | member | subgroup =>
    simp only [Route.action?, hput, hdelete, if_false] at hraw
    cases hraw
  | auditLog uuid =>
    simp only [Route.action?, hmethod, if_true, Option.some.injEq] at hraw
    subst hraw
    obtain ⟨text, -, haction⟩ := Option.bind_eq_some_iff.mp haction
    cases haction
    cases htask
    rfl
  | access project =>
    simp only [Route.action?, hmethod, if_true, Option.some.injEq] at hraw
    subst hraw
    obtain ⟨text, -, haction⟩ := Option.bind_eq_some_iff.mp haction
    cases haction
    cases htask
    rfl

/-- The database stays as it was unless a task is carried out. -/
theorem respond_cases (user : Option AccountId) (r : Request) (now : Instant) (db : Database) :
    let db' := (respond user r now db).2
    db' = db ∨ ∃ caller task reply, plan user r = .ok (caller, task) ∧
      (task.program caller now).run db = (.ok reply, db') ∧
      (respond user r now db).1.isSuccess = reply.isSuccess := by
  have hbody (reply : Reply) : (if r.method = "HEAD" then reply.withoutBody else reply).isSuccess =
      reply.isSuccess := by
    split <;> rfl
  unfold respond
  cases hplan : plan user r with
  | error reply => exact .inl rfl
  | ok planned =>
    obtain ⟨caller, task⟩ := planned
    dsimp only
    match hrun : (task.program caller now).run db with
    | (.error failure, db') => exact .inl ((task.allOrNothing caller now).run_error hrun)
    | (.ok reply, db') => exact .inr ⟨caller, task, reply, rfl, hrun, hbody reply⟩

/-- A request that is not carried out leaves the database as it was. -/
theorem respond_of_not_isSuccess (h : (respond user r now db).1.isSuccess = false) :
    (respond user r now db).2 = db := by
  rcases respond_cases user r now db with hsame | ⟨caller, task, reply, -, hrun, hsuccess⟩
  · exact hsame
  · cases htask : task.isRead with
    | true =>
      have hsame := run_of_asks_isRead (Task.asks_program caller now htask) db
      rwa [hrun] at hsame
    | false =>
      rw [hsuccess, Task.isSuccess_of_run htask hrun] at h
      cases h

/-- A request to read leaves it as it was even if it succeeds. -/
theorem respond_of_read (h : r.method = "GET" ∨ r.method = "HEAD") :
    (respond user r now db).2 = db := by
  rcases respond_cases user r now db with hsame | ⟨caller, task, reply, hplan, hrun, -⟩
  · exact hsame
  · have hsame := run_of_asks_isRead (Task.asks_program caller now (isRead_of_plan h hplan)) db
    rwa [hrun] at hsame

/--
Of any database, whatever is in it: an operation that fails leaves it as it
was, unless it registers an account or a group.  So does a request that is not
answered by a success, and every request by `GET`, or by `HEAD`.
-/
theorem failed_requests_change_nothing (db : Database) (now : Instant) :
    (∀ {α : Type} (operation : Operation α), operation.registers = false →
      ∀ e db', (operation.program now).run db = (.error e, db') → db' = db) ∧
    ∀ (user : Option AccountId) (r : Request),
      ((respond user r now db).1.isSuccess = false → (respond user r now db).2 = db) ∧
      (r.method = "GET" ∨ r.method = "HEAD" → (respond user r now db).2 = db) := by
  refine ⟨fun operation hoperation e db' hrun => ?_, fun user r => ⟨?_, ?_⟩⟩
  · exact (operation.allOrNothing hoperation now).run_error hrun
  · exact respond_of_not_isSuccess
  · exact respond_of_read

/--
Account 2 has been a member of `g` for no time at all, so it cannot be one
again before the clock goes on; nobody can read when `h` was created.
-/
def wornDatabase : Database :=
  let db :=
    (Operation.removeMember ⟨"g"⟩ ⟨2⟩ ⟨1⟩).after .start <|
    (Operation.addMember ⟨"g"⟩ ⟨2⟩ ⟨1⟩).after .start twoGroups
  { db with groups := db.groups.map fun row =>
      if row.uuid = some ⟨"h"⟩ then { row with createdOn := "once" } else row }

/-- What a request of account 1 leads to. -/
def wornRespond (method target : String) : Reply × Database :=
  respond (some ⟨1⟩) { method, target := target.toList } .start wornDatabase

/-- A row that may not be added, one that cannot be read, and a log. -/
theorem worn_requests_change_nothing :
    let readded := (Store.addMember ⟨"g"⟩ ⟨2⟩ ⟨1⟩ .start).run wornDatabase
    let putMember := wornRespond "PUT" "/groups/g/members/2"
    let putUnread := wornRespond "PUT" "/groups/h/members/1"
    let getLog := wornRespond "GET" "/groups/g/log.audit"
    readded = (.error (.store .database), wornDatabase) ∧
    putMember.1.status = 500 ∧ putMember.2 = wornDatabase ∧
    putUnread.1.status = 500 ∧ putUnread.2 = wornDatabase ∧
    getLog.1.status = 200 ∧ getLog.2 = wornDatabase := by
  obtain ⟨hoperation, hrespond⟩ := failed_requests_change_nothing wornDatabase .start
  intro readded putMember putUnread getLog
  have hreadded : readded.1 = .error (.store .database) := by
    rfl
  have hmember : putMember.1.status = 500 ∧ putMember.1.isSuccess = false := by
    decide +kernel
  have hunread : putUnread.1.status = 500 ∧ putUnread.1.isSuccess = false := by
    decide +kernel
  have hlog : getLog.1.status = 200 := by
    decide +kernel
  refine ⟨Prod.ext hreadded ?_, hmember.1, ?_, hunread.1, ?_, hlog, ?_⟩
  · exact hoperation (.addMember ⟨"g"⟩ ⟨2⟩ ⟨1⟩) rfl _ _ (Prod.ext hreadded rfl)
  · exact (hrespond _ _).1 hmember.2
  · exact (hrespond _ _).1 hunread.2
  · exact (hrespond _ _).2 (.inl rfl)

end AccessLedger.Http
