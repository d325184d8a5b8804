import AccessLedger.Http.Api
import AccessLedger.Proofs.Store.Collisions

/-!
# What a reply to a commit leaves out

A request that is refused gets a status of 400 or more, so one with another
status has been carried out (`exists_run_of_status`).  A commit that has been
carried out is answered with the names of the sections that are not as
requested, and they are those that the caller may not change, or that have
rules for unknown groups (`unapplied_sections_are_explained`).
-/

namespace AccessLedger.Http

variable {user : Option AccountId} {r : Request} {caller : AccountId} {task : Task}
  {db : Database} {now : Instant}

theorem ApiError.le_status (e : ApiError) : 400 ≤ e.reply.status := by
  change 400 ≤ e.status
  cases e <;> simp [status]

theorem le_status_of_commitBody {reply : Reply} (h : commitBody r = .error reply) :
    400 ≤ reply.status := by
  unfold commitBody at h
  split at h
  · cases h
    decide
  · split at h <;> cases h <;> decide

theorem le_status_of_task {action : Action String AccountId} {reply : Reply}
    (h : action.task r = .error reply) : 400 ≤ reply.status := by
  cases action with
  | commit project =>
    simp only [Action.task] at h
    cases hbody : commitBody r with
    | ok body =>
      rw [hbody] at h
      cases h
    | error refusal =>
      rw [hbody] at h
      cases h
      exact le_status_of_commitBody hbody
  | _ => cases h

/-- A request that is refused before the store is looked at gets an error. -/
theorem le_status_of_plan {reply : Reply} (h : plan user r = .error reply) :
    400 ≤ reply.status := by
  unfold plan at h
  split at h
  · cases h
    decide
  split at h
  · cases h
    decide
  split at h
  · cases h
    exact ApiError.le_status _
  split at h
  · cases h
    decide
  next action _ =>
    cases htask : action.task r with
    | ok task =>
      rw [htask] at h
      cases h
    | error refusal =>
      rw [htask] at h
      cases h
      exact le_status_of_task htask

/-- A request whose status is not that of an error has been carried out. -/
theorem exists_run_of_status (h : (respond user r now db).1.status < 400) :
    ∃ caller task reply db', plan user r = .ok (caller, task) ∧
      (task.program caller now).run db = (.ok reply, db') ∧
      respond user r now db = (if r.method = "HEAD" then reply.withoutBody else reply, db') := by
  have hbody (reply : Reply) : (if r.method = "HEAD" then reply.withoutBody else reply).status =
      reply.status := by
    split <;> rfl
  unfold respond at h ⊢
  cases hplan : plan user r with
  | error reply =>
    simp only [hplan, hbody] at h
    exact absurd (le_status_of_plan hplan) (by omega)
  | ok planned =>
    obtain ⟨caller, task⟩ := planned
    simp only [hplan] at h ⊢
    match hrun : (task.program caller now).run db with
    | (.error failure, db') =>
      simp only [hrun, hbody] at h
      exact absurd (ApiError.le_status (.ofFailure failure)) (by omega)
    | (.ok reply, db') => exact ⟨caller, task, reply, db', rfl, hrun, rfl⟩

/-- What is posted to the access of a project is a commit. -/
theorem exists_commit_of_plan {raw : List Char}
    (hroute : Route.ofPath? (segments (pathOf r.target)) = some (.access raw))
    (hmethod : r.method = "POST") (h : plan user r = .ok (caller, task)) :
    user = some caller ∧ ∃ project body, Text.Percent.decode raw = some project ∧
      commitBody r = .ok body ∧ task = .commit project body := by
  have haction : (Route.access raw).action? "POST" = some (.commit raw) := rfl
  simp only [plan, hroute, hmethod, haction] at h
  cases user with
  | none => cases h
  | some account =>
    cases hproject : Text.Percent.decode raw with
    | none =>
      simp only [Action.decode?, hproject] at h
      cases h
    | some project =>
      simp only [Action.decode?, hproject] at h
      cases hbody : commitBody r with
      | error refusal =>
        simp only [Action.task, hbody] at h
        cases h
      | ok body =>
        simp only [Action.task, hbody] at h
        cases h
        exact ⟨rfl, project, body, rfl, rfl, rfl⟩

/-- A commit that is carried out has been applied, and its reply tells what is stored. -/
theorem exists_answer_of_commit {project : String} {body : CommitBody} {reply : Reply}
    {db' : Database} (h : ((Task.commit project body).program caller now).run db =
      (.ok reply, db')) :
    ∃ answer, (Store.applyAccess project caller body.update now).run db = (.ok answer, db') ∧
      reply = .json 200 (commitReply body.sections answer) := by
  obtain ⟨answer, db'', hrun, hreply⟩ := exists_of_run_bind h
  cases hreply
  exact ⟨answer, hrun, rfl⟩

/--
A commit is posted to a reachable database and answered with status 200.  Then
a name is reported as unapplied if it is requested, may be changed and has a
rule for a group without description; if it is requested, may not be changed
and was not stored as requested; or if it is not requested, was stored and may
not be changed.  No name is reported exactly if the answered sections are the
requested ones, in whatever order.  The answered sections are the ones that are
stored then, unless they collide with those that were stored before; in this
case nothing is written.
-/
theorem unapplied_sections_are_explained {db : Database} (h : Reachable db) {raw : List Char}
    (hroute : Route.ofPath? (segments (pathOf r.target)) = some (.access raw))
    (hmethod : r.method = "POST") (hstatus : (respond user r now db).1.status = 200) :
    let db' := (respond user r now db).2
    ∃ caller project body stored current answer unapplied,
      user = some caller ∧ Text.Percent.decode raw = some project ∧ commitBody r = .ok body ∧
      (respond user r now db).1 = .json 200 (.ofMembers
        [("access", AccessConfig.codec.encode answer),
         ("unapplied_sections", Codec.nameSet.encode unapplied)]) ∧
      (Store.project project).run db = (.ok (some stored), db) ∧
      (Store.project project).run db' = (.ok (some current), db') ∧
      (∀ n, n ∈ unapplied ↔ Unapplied (db.ownedSections project caller).coversSection
        (fun u => (db.description? u).isSome) stored.sections body.sections n) ∧
      (unapplied.isEmpty = true ↔ answer.sections.Perm body.sections) ∧
      (¬Store.Collision stored.sections answer.sections →
        (unapplied.isEmpty = true ↔ current.sections.Perm body.sections)) ∧
      (Store.Collision stored.sections answer.sections → db' = db) := by
  intro db'
  have hok : (respond user r now db).1.status < 400 := by omega
  obtain ⟨caller, task, reply, after, hplan, hrun, hrespond⟩ := exists_run_of_status hok
  obtain ⟨huser, project, body, hproject, hbody, rfl⟩ :=
    exists_commit_of_plan hroute hmethod hplan
  obtain ⟨answer, hanswer, rfl⟩ := exists_answer_of_commit hrun
  obtain ⟨row, stored, hcommitted⟩ := Store.Committed.of_run h.wellKept hanswer
  obtain ⟨current, hcurrent, -, hsections⟩ := hcommitted.exists_current
  have hdb' : db' = after := congrArg Prod.snd hrespond
  have hempty : (sectionDifference body.sections answer.sections).isEmpty = true ↔
      answer.sections.Perm body.sections := hcommitted.isEmpty_sectionDifference
  refine ⟨caller, project, body, ⟨row.parent, row.revision, stored⟩, current, answer,
    sectionDifference body.sections answer.sections, huser, hproject, hbody, ?_,
    Store.run_project_of_holds hcommitted.found hcommitted.holds, ?_,
    fun n => hcommitted.mem_sectionDifference, hempty, fun htells => ?_, fun hcollision => ?_⟩
  · have hpost : r.method ≠ "HEAD" := by
      rw [hmethod]
      decide
    rw [hrespond, if_neg hpost]
    rfl
  · rw [hdb']
    exact hcurrent
  · rw [hsections.resolve_right htells]
    exact hempty
  · rw [hdb']
    exact hcommitted.eq_of_collision hcollision

/-! ## A commit of some sections of others -/

theorem CommitBody.lawful_codec : CommitBody.codec.Lawful := by
  refine Codec.Lawful.imap (Fields.Lawful.record ?_) fun _ => rfl
  apply Fields.Lawful.required Codec.lawful_string (by decide)
  apply Fields.Lawful.withDefault (Codec.lawful_string.option nofun) (by decide)
  exact Fields.Lawful.required AccessSection.lawful_codec.list (by decide) .nil

/-- The body of a commit is read as it was written. -/
theorem commitBody_of_write {body : CommitBody}
    (hjson : r.contentType.any (fun t => isJsonType t.toList) = true)
    (hbody : r.body = CommitBody.codec.write body) : commitBody r = .ok body := by
  rw [commitBody, hjson, hbody, CommitBody.lawful_codec.read_write]
  rfl

/-- A commit that is applied is answered. -/
theorem respond_of_run_applyAccess {raw : List Char} {project : String} {body : CommitBody}
    {answer : AccessConfig} {db' : Database}
    (hroute : Route.ofPath? (segments (pathOf r.target)) = some (.access raw))
    (hmethod : r.method = "POST") (hproject : Text.Percent.decode raw = some project)
    (hbody : commitBody r = .ok body)
    (hrun : (Store.applyAccess project caller body.update now).run db = (.ok answer, db')) :
    respond (some caller) r now db = (.json 200 (commitReply body.sections answer), db') := by
  have haction : (Route.access raw).action? "POST" = some (.commit raw) := rfl
  have hpost : ("POST" : String) ≠ "HEAD" := by decide
  have hplan : plan (some caller) r = .ok (caller, .commit project body) := by
    simp only [plan, hroute, hmethod, haction, Action.decode?, hproject]
    simp only [Option.bind_eq_bind, Option.bind_some, Action.task, hbody]
    rfl
  have htask : ((Task.commit project body).program caller now).run db =
      (.ok (.json 200 (commitReply body.sections answer)), db') := run_bind_of_ok hrun _
  simp only [respond, hplan, htask, hmethod, hpost, if_false]

/-- A project with two sections.  Account 1 may change one of them, and a third one. -/
def lentProject : Database :=
  (Operation.grantSection "p" "refs/c" ⟨"g"⟩).after .start <|
  (Operation.grantSection "p" "refs/a" ⟨"g"⟩).after .start <|
  (Operation.createProject "p" none [⟨"refs/a", []⟩, ⟨"refs/b", []⟩]).after .start <|
  (Operation.createGroup ⟨"g"⟩ "g" none none ⟨1⟩ .start).after .start <|
  (Operation.createAccount none none none).after .start .empty

theorem reachable_lentProject : Reachable lentProject :=
  (((((Reachable.empty.step _ _).step _ _).step _ _).step _ _).step _ _)

/-- What is stored of the project, and what account 1 may change of it. -/
theorem stored_lentProject :
    (lentProject.project? "p").isSome = true ∧
    lentProject.Holds "p" [⟨"refs/a", []⟩, ⟨"refs/b", []⟩] ∧
    lentProject.ownedSections "p" ⟨1⟩ = .ofList ["refs/a", "refs/c"] := by
  decide +kernel

/-- A rule for a group that nobody knows, and two new sections; a stored one is left out. -/
def lentSections : List AccessSection :=
  [⟨"refs/a", [⟨"read", false, [⟨⟨⟨"x"⟩, "x"⟩, .allow, false, 0, 0⟩]⟩]⟩, ⟨"refs/c", []⟩,
   ⟨"refs/d", []⟩]

/-- What account 1 asks for. -/
def lentBody : CommitBody :=
  ⟨revisionOf [⟨"refs/a", []⟩, ⟨"refs/b", []⟩], none, lentSections⟩

/-- The request of account 1. -/
def lentCommit : Request :=
  { method := "POST", target := "/projects/p/access".toList,
    contentType := some "application/json", body := CommitBody.codec.write lentBody }

theorem route_lentCommit :
    Route.ofPath? (segments (pathOf lentCommit.target)) = some (.access ['p']) := rfl

theorem decode_lentCommit : Text.Percent.decode ['p'] = some "p" := rfl

theorem json_lentCommit : lentCommit.contentType.any (fun t => isJsonType t.toList) = true := rfl

theorem commitBody_lentCommit : commitBody lentCommit = .ok lentBody :=
  commitBody_of_write json_lentCommit rfl

/-- The commit is based on the stored revision, so it is carried out. -/
theorem status_lentCommit :
    (respond (some ⟨1⟩) lentCommit .start lentProject).1.status = 200 := by
  obtain ⟨hfound, hheld, howned⟩ := stored_lentProject
  obtain ⟨row, hrow⟩ := Option.isSome_iff_exists.mp hfound
  obtain ⟨stored, hrevision, -, hholds⟩ := reachable_lentProject.wellKept.found hrow
  obtain rfl := hholds.unique hheld
  obtain ⟨answer, db', hrun⟩ : ∃ answer db',
      (Store.applyAccess "p" ⟨1⟩ lentBody.update .start).run lentProject = (.ok answer, db') :=
    Store.exists_run_applyAccess hholds hrow hrevision.symm rfl
      (by rw [howned]; rfl) reachable_lentProject.contended_eq
  rw [respond_of_run_applyAccess route_lentCommit rfl decode_lentCommit commitBody_lentCommit hrun]
  rfl

/--
Three sections are reported, each for a reason of its own, and the other one is
not.  So what is stored then is not what was requested, whether the lists
collide or not.
-/
theorem lent_commit_is_explained :
    let db' := (respond (some ⟨1⟩) lentCommit .start lentProject).2
    ∃ (access : Json) (unapplied : NameSet) (current : Project),
      (respond (some ⟨1⟩) lentCommit .start lentProject).1 = .json 200 (.ofMembers
        [("access", access), ("unapplied_sections", Codec.nameSet.encode unapplied)]) ∧
      (Store.project "p").run db' = (.ok (some current), db') ∧
      "refs/a" ∈ unapplied ∧ "refs/b" ∈ unapplied ∧ "refs/c" ∉ unapplied ∧
      "refs/d" ∈ unapplied ∧ ¬current.sections.Perm lentSections := by
  intro db'
  obtain ⟨caller, project, body, stored, current, answer, unapplied, huser, hproject, hbody,
    hreply, hstored, hcurrent, hunapplied, -, hsame, hskipped⟩ :=
      unapplied_sections_are_explained reachable_lentProject route_lentCommit rfl status_lentCommit
  cases huser
  obtain rfl := Option.some.inj (decode_lentCommit.symm.trans hproject)
  obtain rfl := Except.ok.inj (commitBody_lentCommit.symm.trans hbody)
  obtain ⟨hfound, hheld, howned⟩ := stored_lentProject
  obtain ⟨row, hrow⟩ := Option.isSome_iff_exists.mp hfound
  have hsections : stored.sections = [⟨"refs/a", []⟩, ⟨"refs/b", []⟩] := by
    have hread := (Store.run_project_of_holds hrow hheld).symm.trans hstored
    cases hread
    rfl
  rw [hsections, howned] at hunapplied
  have hb : "refs/b" ∈ unapplied := (hunapplied "refs/b").mpr <|
    .left (s := ⟨"refs/b", []⟩) rfl rfl rfl
  refine ⟨_, unapplied, current, hreply, hcurrent, (hunapplied "refs/a").mpr ?_, hb, ?_,
    (hunapplied "refs/d").mpr ?_, fun hperm => ?_⟩
  · exact .unknownGroup (s := lentSections[0]) (r := ⟨⟨⟨"x"⟩, "x"⟩, .allow, false, 0, 0⟩)
      rfl rfl (.head _) rfl
  · intro hin
    have hfound : lentBody.sections.find? (·.name = "refs/c") = some ⟨"refs/c", []⟩ := rfl
    have hmine : (NameSet.ofList ["refs/a", "refs/c"]).coversSection "refs/c" = true := rfl
    cases (hunapplied _).mp hin with
    | unknownGroup found _ rule _ =>
      obtain rfl := Option.some.inj (hfound.symm.trans found)
      cases rule
    | kept _ others _ => exact Bool.false_ne_true (others.symm.trans hmine)
    | left _ others _ => exact Bool.false_ne_true (others.symm.trans hmine)
  · exact .kept (s := ⟨"refs/d", []⟩) rfl rfl (by decide)
  · by_cases hcollision : Store.Collision stored.sections answer.sections
    · -- nothing has been written, and there were two sections only
      rw [hskipped hcollision, hstored] at hcurrent
      cases hcurrent
      rw [hsections] at hperm
      exact absurd hperm.length_eq (by decide)
    · exact NameSet.isEmpty_iff.mp ((hsame hcollision).mpr hperm) _ hb

/-! ## A commit of a section with the stored revision -/

/-- The request for one section in the place of another one. -/
def rivalCommit (m n : Nat) : Request :=
  { lentCommit with
    body := CommitBody.codec.write
      ⟨revisionOf (numberedSections m), none, numberedSections n⟩ }

/-- The reply to a commit says which sections are unapplied. -/
theorem unapplied_eq_of_commitReply {requested : List AccessSection} {answer : AccessConfig}
    {access : Json} {unapplied : NameSet}
    (h : Reply.json 200 (commitReply requested answer) = .json 200 (.ofMembers
      [("access", access), ("unapplied_sections", Codec.nameSet.encode unapplied)])) :
    unapplied = sectionDifference requested answer.sections := by
  have hbody := Option.some.inj (congrArg Reply.body h)
  simp only [commitReply, Json.ofMembers, List.map_cons, List.map_nil, Json.object.injEq,
    List.cons.injEq, Prod.mk.injEq, true_and, and_true] at hbody
  exact (Codec.lawful_nameSet.encode_injective hbody.2).symm

theorem commitBody_rivalCommit (m n : Nat) : commitBody (rivalCommit m n) =
    .ok ⟨revisionOf (numberedSections m), none, numberedSections n⟩ :=
  commitBody_of_write json_lentCommit rfl

/--
The sections that are stored then need not be the requested ones when no name
is reported: the revision of the requested one may be that of another one that
was stored, and then this one stays.
-/
theorem unreported_commit_is_skipped :
    ¬∀ (user : Option AccountId) (r : Request) (now : Instant) (db : Database) (raw : List Char),
      Reachable db → Route.ofPath? (segments (pathOf r.target)) = some (.access raw) →
      r.method = "POST" → (respond user r now db).1.status = 200 →
      ∃ caller project body stored current access unapplied,
        user = some caller ∧ Text.Percent.decode raw = some project ∧ commitBody r = .ok body ∧
        (respond user r now db).1 = .json 200 (.ofMembers
          [("access", access), ("unapplied_sections", Codec.nameSet.encode unapplied)]) ∧
        (Store.project project).run db = (.ok (some stored), db) ∧
        (Store.project project).run (respond user r now db).2 =
          (.ok (some current), (respond user r now db).2) ∧
        (∀ n, n ∈ unapplied ↔ Unapplied (db.ownedSections project caller).coversSection
          (fun u => (db.description? u).isSome) stored.sections body.sections n) ∧
        (unapplied.isEmpty = true ↔ current.sections.Perm body.sections) := by
  intro hclaim
  obtain ⟨m, n, answer, hne, hvalid, hsections, hrun⟩ := Store.exists_skipped_commit
  have hbody := commitBody_rivalCommit m n
  have hrespond := @respond_of_run_applyAccess (rivalCommit m n) _ _ _ _ _ _ _ _ route_lentCommit
    rfl decode_lentCommit hbody hrun
  have hstatus := congrArg (fun outcome => outcome.1.status) hrespond
  obtain ⟨caller, project, body, stored, current, access, unapplied, -, hproject, hasked, hreply, -,
    hcurrent, -, hempty⟩ := hclaim _ (rivalCommit m n) .start _ _ (reachable_founderProject _)
      route_lentCommit rfl hstatus
  obtain rfl := Option.some.inj (decode_lentCommit.symm.trans hproject)
  obtain rfl := Except.ok.inj (hbody.symm.trans hasked)
  simp only [hrespond] at hreply hcurrent
  -- nothing is reported, since what is answered is what was requested
  have hunapplied : unapplied.isEmpty = true := by
    rw [unapplied_eq_of_commitReply hreply, hsections, isEmpty_sectionDifference_iff]
    exact fun s => Iff.rfl
  -- but the other section is still there
  have hstored : current.sections = numberedSections m := by
    rw [Store.run_project_of_holds (project?_founderProject hvalid)
      (holds_founderProject hvalid)] at hcurrent
    have hfound := Option.some.inj (Except.ok.inj (Prod.mk.inj hcurrent).1)
    exact (congrArg Project.sections hfound).symm
  have hperm := hempty.mp hunapplied
  rw [hstored] at hperm
  exact hne (numberedSections_inj (List.perm_singleton.mp hperm))

end AccessLedger.Http
