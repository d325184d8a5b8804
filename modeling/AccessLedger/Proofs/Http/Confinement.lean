import AccessLedger.Http.Api
import AccessLedger.Proofs.Store.Commit

/-!
# What callers of the API can change

Some accounts control a group if one of them is a member of it, or if it is an
internal group whose owner they control (`Controlled`).  Whatever they ask of
the API, in whatever order, the other groups keep their members, included
groups and audit rows, and a section of a project keeps its content unless it
or all refs are granted there to a group that they control
(`callers_are_confined`).  Although callers may change who is a member of a
group that they control, they never control another group by that.
-/

namespace AccessLedger.Http

/-- The groups that some accounts control. -/
inductive Controlled (db : Database) (A : AccountId → Prop) : GroupUuid → Prop
  | member {group : GroupUuid} {account : AccountId} (hA : A account)
      (h : db.isMember group account = true) : Controlled db A group
  | owned {group : GroupUuid} {row : GroupRow} (h : db.group? group = some row)
      (howner : Controlled db A row.owner) : Controlled db A group

/-- Neither a section nor all refs are granted, in a project, to a group that is controlled. -/
def Protected (db : Database) (A : AccountId → Prop) (project name : String) : Prop :=
  ∀ r ∈ db.grants, r.project = project → r.sectionName = name ∨ r.sectionName = allRefs →
    ¬Controlled db A r.group

/-- What is stored of a project under the name of a section. -/
def sectionsNamed (db : Database) (project name : String) : List StoredSection :=
  (db.storedSections project).filter (·.name = name)

/-- The second database differs from the first one only in what some accounts control there. -/
structure Confined (A : AccountId → Prop) (db db' : Database) : Prop where
  members : ∀ group, ¬Controlled db A group →
    db'.members.filter (·.group = group) = db.members.filter (·.group = group)
  includes : ∀ group, ¬Controlled db A group →
    db'.includes.filter (·.group = group) = db.includes.filter (·.group = group)
  memberAudits : ∀ group, ¬Controlled db A group →
    db'.memberAudits.filter (·.group = group) = db.memberAudits.filter (·.group = group)
  includeAudits : ∀ group, ¬Controlled db A group →
    db'.includeAudits.filter (·.group = group) = db.includeAudits.filter (·.group = group)
  sections : ∀ project name, Protected db A project name →
    sectionsNamed db' project name = sectionsNamed db project name

/-- What requests of some accounts keep, who have begun with `db`. -/
structure Within (A : AccountId → Prop) (db db' : Database) : Prop where
  wellKept : db'.WellKept
  groups : db'.groups = db.groups
  grants : db'.grants = db.grants
  confined : Confined A db db'

section

variable {A : AccountId → Prop} {db db' : Database} {caller : AccountId}

theorem Within.refl (h : db.WellKept) : Within A db db :=
  ⟨h, rfl, rfl, fun _ _ => rfl, fun _ _ => rfl, fun _ _ => rfl, fun _ _ => rfl, fun _ _ _ => rfl⟩

/-! ## Power does not grow -/

/-- Whoever is a member of a group now controlled it in the beginning. -/
theorem Within.controlled_of_isMember (h : Within A db db') (hA : A caller) {group : GroupUuid}
    (hmember : db'.isMember group caller = true) : Controlled db A group := by
  apply Classical.byContradiction
  intro hnot
  have hin : (⟨group, caller.scalar⟩ : MemberRow) ∈ db'.members.filter (·.group = group) :=
    List.mem_filter.mpr ⟨of_decide_eq_true hmember, decide_eq_true rfl⟩
  rw [h.confined.members group hnot] at hin
  exact hnot (.member hA (decide_eq_true (List.mem_filter.mp hin).1))

/-- Whoever owns a group now controlled it in the beginning. -/
theorem Within.controlled_of_isOwner (h : Within A db db') (hA : A caller) {group : GroupUuid}
    (howner : db'.isOwner group caller = true) : Controlled db A group := by
  obtain ⟨row, hrow, hmember⟩ := (Option.any_eq_true _ _).mp howner
  rw [Database.group?, h.groups] at hrow
  exact .owned hrow (h.controlled_of_isMember hA hmember)

/-- Whoever may change a section now controlled a group that it is granted to. -/
theorem Within.coversSection_eq_false (h : Within A db db') (hA : A caller)
    {project name : String} (hprotected : Protected db A project name) :
    (db'.ownedSections project caller).coversSection name = false := by
  have hnot (n : String) (hn : n = name ∨ n = allRefs) :
      n ∉ db'.ownedSections project caller := by
    intro hin
    obtain ⟨r, hr, hname⟩ := List.mem_map.mp (NameSet.mem_ofList.mp hin)
    obtain ⟨hgrant, hmember⟩ := List.mem_filter.mp hr
    rw [Bool.and_eq_true, decide_eq_true_eq] at hmember
    refine hprotected r (h.grants ▸ hgrant) hmember.1 (hname ▸ hn) ?_
    exact h.controlled_of_isMember hA hmember.2
  simp only [NameSet.coversSection, hnot name (.inl rfl), hnot allRefs (.inr rfl), decide_false,
    Bool.or_self]

/-! ## Changes of a group that is controlled -/

/-- A change of a group that is controlled stays within what is controlled. -/
theorem Within.sameBut (h : Within A db db') {group : GroupUuid}
    (hgroup : Controlled db A group) {db'' : Database} (hsame : db'.SameBut group db'') :
    Within A db db'' := by
  have hne {g : GroupUuid} (hg : ¬Controlled db A g) : g ≠ group := fun e => hg (e ▸ hgroup)
  refine ⟨h.wellKept.of_eq hsame.projects hsame.sections, hsame.groups.trans h.groups,
    hsame.grants.trans h.grants, ?_⟩
  refine ⟨fun g hg => ?_, fun g hg => ?_, fun g hg => ?_, fun g hg => ?_, fun p n hn => ?_⟩
  · exact (hsame.members g (hne hg)).trans (h.confined.members g hg)
  · exact (hsame.includes g (hne hg)).trans (h.confined.includes g hg)
  · exact (hsame.memberAudits g (hne hg)).trans (h.confined.memberAudits g hg)
  · exact (hsame.includeAudits g (hne hg)).trans (h.confined.includeAudits g hg)
  · rw [← h.confined.sections p n hn, sectionsNamed, sectionsNamed, Database.storedSections,
      hsame.sections]
    rfl

/-- What every statement of a program may do. -/
def KeepsWithin (A : AccountId → Prop) (db : Database) {β : Type} (q : Statement β) : Prop :=
  ∀ db', Within A db db' → Within A db (db'.perform q).2

theorem keepsWithin_of_isRead {β : Type} (q : Statement β) (hq : q.isRead = true) :
    KeepsWithin A db q :=
  fun db' h => (Database.perform_of_isRead hq db').symm ▸ h

end

/-! ## What the API does -/

section

variable {A : AccountId → Prop} {db : Database} {caller : AccountId}

theorem ask_andThen {α β : Type} (p : BackendProgram α) (f : α → BackendProgram β) :
    Store.ask (p >>= f) = Store.ask p >>= fun a => Store.ask (f a) :=
  Program.interpret_andThen _ p f

/-- Whoever passes the gate of a group controls it. -/
theorem safe_requireOwner (hA : A caller) (group : GroupUuid) :
    Safe (Within A db) (fun _ => Controlled db A group) (requireOwner group caller) := by
  unfold requireOwner
  rw [ask_andThen]
  refine (Store.safe_of_asks_isRead (Store.asks_ask _)).bind fun _ _ => ?_
  rw [requireOwnership, ask_andThen]
  have howns : Safe (Within A db) (fun owns => owns = true → Controlled db A group)
      (Store.ask (Program.query (Backend.isOwner group caller))) := by
    refine Safe.query fun db' h => ⟨h, fun owns hanswer howns => ?_⟩
    cases hanswer
    exact h.controlled_of_isOwner hA howns
  refine howns.bind fun owns h => ?_
  cases owns with
  | true => exact h rfl
  | false => trivial

section

variable {group : GroupUuid} (hgroup : Controlled db A group) (now : Instant)

include hgroup

theorem safe_addMember (member addedBy : AccountId) :
    Safe (Within A db) (fun _ => True) (Store.addMember group member addedBy now) :=
  Safe.of_asks <| Store.asks_addMember (P := KeepsWithin A db) keepsWithin_of_isRead _ _ _ _
    fun db' h => h.sameBut hgroup (db'.sameBut_beginMembership group now member addedBy)

theorem safe_removeMember (member removedBy : AccountId) :
    Safe (Within A db) (fun _ => True) (Store.removeMember group member removedBy now) :=
  Safe.of_asks <| Store.asks_removeMember (P := KeepsWithin A db) keepsWithin_of_isRead _ _ _ _
    fun db' h => h.sameBut hgroup (db'.sameBut_endMembership group now member removedBy)

theorem safe_addSubgroup (included : GroupUuid) (addedBy : AccountId) :
    Safe (Within A db) (fun _ => True) (Store.addSubgroup group included addedBy now) :=
  Safe.of_asks <| Store.asks_addSubgroup (P := KeepsWithin A db) keepsWithin_of_isRead _ _ _ _
    fun db' h => h.sameBut hgroup (db'.sameBut_beginInclusion group now included addedBy)

theorem safe_removeSubgroup (included : GroupUuid) (removedBy : AccountId) :
    Safe (Within A db) (fun _ => True) (Store.removeSubgroup group included removedBy now) :=
  Safe.of_asks <| Store.asks_removeSubgroup (P := KeepsWithin A db) keepsWithin_of_isRead _ _ _ _
    fun db' h => h.sameBut hgroup (db'.sameBut_endInclusion group now included removedBy)

end

/-- Sections that are protected stay when a commit is merged. -/
theorem filter_map_toStored (sections : List AccessSection) (n : String) :
    (sections.map AccessSection.toStored).filter (·.name = n) =
      (sections.filter (·.name = n)).map AccessSection.toStored := by
  rw [List.filter_map]
  rfl

theorem safe_applyAccess (hA : A caller) (project : String) (update : AccessUpdate)
    (now : Instant) :
    Safe (Within A db) (fun _ => True) (Store.applyAccess project caller update now) := by
  refine Store.safe_applyAccess
    (fun sections => ∀ n, Protected db A project n →
      (sections.map AccessSection.toStored).filter (·.name = n) = sectionsNamed db project n)
    (fun owned => ∀ n, Protected db A project n → owned.coversSection n = false)
    (fun db' h => h.wellKept) (fun db' sections h hholds n hn => ?_)
    (fun db' h n hn => h.coversSection_eq_false hA hn)
    (fun db' stored owned isKnown h hfound hstored hloads howns hvalid => ?_)
  · rw [← h.confined.sections project n hn, sectionsNamed, hholds.storedSections_eq]
  · refine ⟨h.wellKept.swap _ rfl rfl (valid_mergeSections hstored hvalid) hfound, h.groups,
      h.grants, { h.confined with sections := fun p n hn => ?_ }⟩
    by_cases hp : p = project
    · subst hp
      rw [sectionsNamed, Store.storedSections_swap_commitSwap, ← hloads n hn,
        filter_map_toStored, filter_map_toStored, filter_mergeSections (howns n hn) hstored hvalid]
    · rw [← h.confined.sections p n hn, sectionsNamed, Database.storedSections,
        Database.filter_sections_swap_of_ne _ hp]
      rfl

/-- Whatever a caller asks for stays within what the callers control. -/
theorem safe_task (hA : A caller) (now : Instant) (task : Task) :
    Safe (Within A db) (fun _ => True) (task.program caller now) := by
  cases task with
  | readLog uuid =>
    exact (Store.safe_of_asks_isRead (Store.asks_ask _)).bind fun _ _ => trivial
  | addMember uuid account =>
    exact (safe_requireOwner hA uuid).bind fun _ h =>
      (safe_addMember h now account caller).bind fun _ _ => trivial
  | removeMember uuid account =>
    exact (safe_requireOwner hA uuid).bind fun _ h =>
      (safe_removeMember h now account caller).bind fun _ _ => trivial
  | addSubgroup uuid included =>
    exact (safe_requireOwner hA uuid).bind fun _ h =>
      (safe_addSubgroup h now included caller).bind fun _ _ => trivial
  | removeSubgroup uuid included =>
    exact (safe_requireOwner hA uuid).bind fun _ h =>
      (safe_removeSubgroup h now included caller).bind fun _ _ => trivial
  | readAccess project =>
    refine Store.safe_of_asks_isRead (Program.asks_bind ?_ fun config => ?_)
    · refine Program.asks_bind (Store.asks_project _) fun found => ?_
      cases found with
      | none => trivial
      | some p => exact Program.asks_bind (Program.asks_query rfl) fun _ => trivial
    · cases config <;> trivial
  | commit project body =>
    exact (safe_applyAccess hA project body.update now).bind fun _ _ => trivial

theorem user_of_plan {user : Option AccountId} {r : Request} {task : Task}
    (h : plan user r = .ok (caller, task)) : user = some caller := by
  unfold plan at h
  split at h
  · cases h
  split at h
  · cases h
  split at h
  · cases h
  split at h
  · cases h
  · next action _ =>
    cases htask : action.task r with
    | error reply =>
      rw [htask] at h
      cases h
    | ok task =>
      rw [htask] at h
      cases h
      rfl

/-- One request, whether it is carried out or refused. -/
theorem within_respond (user : Option AccountId) (hA : ∀ caller, user = some caller → A caller)
    (r : Request) (now : Instant) {db' : Database} (h : Within A db db') :
    Within A db (respond user r now db').2 := by
  unfold respond
  cases hplan : plan user r with
  | error reply => exact h
  | ok planned =>
    obtain ⟨caller, task⟩ := planned
    have hrun := ((safe_task (hA caller (user_of_plan hplan)) now task).run h).1
    dsimp only
    generalize StoreProgram.run _ _ = outcome at hrun ⊢
    obtain ⟨_ | _, _⟩ := outcome <;> exact hrun

/-- A request, with the user who makes it and what the clock shows then. -/
structure Arrival where
  user : Option AccountId
  request : Request
  now : Instant

/-- The database after some requests, one after the other. -/
def serveAll (db : Database) : List Arrival → Database
  | [] => db
  | a :: rest => serveAll (respond a.user a.request a.now db).2 rest

theorem within_serveAll {arrivals : List Arrival}
    (hcallers : ∀ a ∈ arrivals, ∀ caller, a.user = some caller → A caller) {db' : Database}
    (h : Within A db db') : Within A db (serveAll db' arrivals) := by
  induction arrivals generalizing db' with
  | nil => exact h
  | cons a rest ih =>
    refine ih (fun b hb => hcallers b (List.mem_cons_of_mem a hb)) ?_
    exact within_respond a.user (hcallers a List.mem_cons_self) a.request a.now h

end

/--
Requests of some accounts to a reachable database change nothing of groups that
they do not control, and no section that is not granted to a group that they do.
-/
theorem callers_are_confined {db : Database} (h : Reachable db) {A : AccountId → Prop}
    (arrivals : List Arrival)
    (hcallers : ∀ a ∈ arrivals, ∀ caller, a.user = some caller → A caller) :
    Confined A db (serveAll db arrivals) :=
  (within_serveAll hcallers (.refl h.wellKept)).confined

/-- Two groups with one member each, which own themselves. -/
def twoGroups : Database :=
  (Operation.createGroup ⟨"h"⟩ "h" none none ⟨2⟩ .start).after .start <|
  (Operation.createGroup ⟨"g"⟩ "g" none none ⟨1⟩ .start).after .start <|
  (Operation.createAccount none none none).after .start <|
  (Operation.createAccount none none none).after .start .empty

theorem reachable_twoGroups : Reachable twoGroups :=
  (((Reachable.empty.step _ _).step _ _).step _ _).step _ _

/-- Account 1 asks for a member of its own group, and for itself in the other one. -/
def additions : List Arrival :=
  [⟨some ⟨1⟩, { method := "PUT", target := "/groups/g/members/2".toList }, .start⟩,
   ⟨some ⟨1⟩, { method := "PUT", target := "/groups/h/members/1".toList }, .start⟩]

/-- The first request is carried out, and the second one is not. -/
theorem additions_are_confined :
    Confined (· = ⟨1⟩) twoGroups (serveAll twoGroups additions) ∧
    (serveAll twoGroups additions).isMember ⟨"g"⟩ ⟨2⟩ = true ∧
    (serveAll twoGroups additions).isMember ⟨"h"⟩ ⟨1⟩ = false := by
  refine ⟨callers_are_confined reachable_twoGroups additions ?_, by decide +kernel,
    by decide +kernel⟩
  simp only [additions, List.mem_cons, List.not_mem_nil, or_false]
  rintro a (rfl | rfl) caller hcaller
  · exact (Option.some.inj hcaller).symm
  · exact (Option.some.inj hcaller).symm

end AccessLedger.Http
