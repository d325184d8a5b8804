import AccessLedger.Proofs.Audit.Completeness
import AccessLedger.Proofs.Store.Commits
import Mathlib.Data.List.Nodup

/-!
# Who may act

Nobody is written down as an owner.  An account owns a group if it is a member
of the group that is its owner, and a section if it is a member of a group to
which the section is granted, so ownership follows from groups, grants and
members.  To add or remove a member changes one membership
(`Database.MovesOnly`), and with it what this member may do by it and nothing
else; a section that is granted to another group of the member as well stays
theirs.  Included groups and sections do not matter at all
(`memberships_move_authority`).
-/

namespace AccessLedger

namespace Database

variable {db db' : Database} {group : GroupUuid} {member : AccountId} {now : Instant}

/-! ## What ownership follows from -/

/-- The group whose members own an internal group. -/
def ownerOf (db : Database) (uuid : GroupUuid) : Option GroupUuid :=
  (db.group? uuid).map GroupRow.owner

theorem isOwner_eq_any (uuid : GroupUuid) (account : AccountId) :
    db.isOwner uuid account = (db.ownerOf uuid).any fun owner => db.isMember owner account := by
  rw [isOwner, ownerOf]
  cases db.group? uuid <;> rfl

/-- An account owns the sections that are granted to a group of which it is a direct member. -/
@[simp]
theorem mem_ownedSections {project : String} {account : AccountId} {n : String} :
    n ∈ db.ownedSections project account ↔
      ∃ g ∈ db.grants, g.project = project ∧ g.sectionName = n ∧
        db.isMember g.group account = true := by
  simp only [ownedSections, NameSet.mem_ofList, List.mem_map, List.mem_filter, Bool.and_eq_true,
    decide_eq_true_eq]
  constructor
  · rintro ⟨g, ⟨hg, hproject, hmember⟩, hname⟩
    exact ⟨g, hg, hproject, hname, hmember⟩
  · rintro ⟨g, hg, hproject, hname, hmember⟩
    exact ⟨g, ⟨hg, hproject, hmember⟩, hname⟩

/-- Two databases differ in no group, no grant and no membership but perhaps this one. -/
structure MovesOnly (group : GroupUuid) (member : AccountId) (db db' : Database) : Prop where
  groups : db'.groups = db.groups
  grants : db'.grants = db.grants
  others : ∀ g account, (g = group → account ≠ member) →
    db'.isMember g account = db.isMember g account

theorem MovesOnly.refl (group : GroupUuid) (member : AccountId) (db : Database) :
    MovesOnly group member db db :=
  ⟨rfl, rfl, fun _ _ _ => rfl⟩

/-- The row of a membership is that of no other one. -/
theorem memberRow_ne {g : GroupUuid} {account : AccountId} (h : g = group → account ≠ member) :
    (⟨g, account.scalar⟩ : MemberRow) ≠ ⟨group, member.scalar⟩ := by
  intro hrow
  obtain ⟨hgroup, hscalar⟩ := MemberRow.mk.inj hrow
  exact h hgroup (AccountId.scalar_inj hscalar)

theorem movesOnly_join (addedBy : AccountId) :
    MovesOnly group member db (db.join group member addedBy now) := by
  refine ⟨rfl, rfl, fun g account hother => ?_⟩
  simp only [isMember, join, List.mem_append, List.mem_singleton, memberRow_ne hother, or_false]

theorem movesOnly_leave (removedBy : AccountId) :
    MovesOnly group member db (db.leave group member removedBy now) := by
  refine ⟨rfl, rfl, fun g account hother => ?_⟩
  simp only [isMember, leave, List.mem_filter, memberRow_ne hother, ne_eq, not_false_eq_true,
    decide_true, and_true]

@[simp]
theorem isMember_leave (removedBy : AccountId) :
    (db.leave group member removedBy now).isMember group member = false := by
  simp only [isMember, leave, List.mem_filter, ne_eq, not_true_eq_false, decide_false,
    Bool.false_eq_true, and_false]

theorem MovesOnly.ownerOf_eq (h : MovesOnly group member db db') (uuid : GroupUuid) :
    db'.ownerOf uuid = db.ownerOf uuid := by
  rw [ownerOf, group?, h.groups, ownerOf, group?]

/-- Ownership of a group moves only with its owner group, and only for the member. -/
theorem MovesOnly.isOwner_eq (h : MovesOnly group member db db') {uuid : GroupUuid}
    {account : AccountId} (hother : db.ownerOf uuid = some group → account ≠ member) :
    db'.isOwner uuid account = db.isOwner uuid account := by
  rw [isOwner_eq_any, isOwner_eq_any, h.ownerOf_eq]
  cases howner : db.ownerOf uuid with
  | none => rfl
  | some owner =>
    exact h.others owner account fun hgroup => hother (howner.trans (congrArg some hgroup))

theorem MovesOnly.ownedSections_eq (h : MovesOnly group member db db') (project : String)
    {account : AccountId} (hother : account ≠ member) :
    db'.ownedSections project account = db.ownedSections project account := by
  refine NameSet.ext fun n => ?_
  rw [mem_ownedSections, mem_ownedSections, h.grants]
  refine exists_congr fun g => ?_
  rw [h.others g.group account fun _ => hother]

end Database

/-! ## Answers that move -/

/-- A program comes to the same answer on two databases. -/
def StoreProgram.SameAnswer {α : Type} (p : StoreProgram α) (db db' : Database) : Prop :=
  (p.run db').1 = (p.run db).1

namespace Database

/-- Who owns a group and who owns which sections is answered as before. -/
structure KeepsAuthority (db db' : Database) : Prop where
  groups : ∀ uuid account, (Store.isOwner uuid account).SameAnswer db db'
  sections : ∀ project account, (Store.ownedSections project account).SameAnswer db db'

/--
Who owns a group and who owns which sections is answered as before, but for
one member.  This member owns what the group owns if and only if the member is
in it now, and the sections that are granted to any group of theirs.
-/
structure MovesAuthority (group : GroupUuid) (member : AccountId) (db db' : Database) : Prop where
  groups_of : ∀ uuid account, ¬(Store.isOwner uuid account).SameAnswer db db' →
    account = member ∧ db.ownerOf uuid = some group
  groups : ∀ uuid, db.ownerOf uuid = some group →
    (Store.isOwner uuid member).run db' = (.ok (db'.isMember group member), db')
  sections_of : ∀ project account, ¬(Store.ownedSections project account).SameAnswer db db' →
    account = member
  sections : ∀ project, ∃ owned, (Store.ownedSections project member).run db' = (.ok owned, db') ∧
    ∀ n, n ∈ owned ↔ ∃ g ∈ db.grants, g.project = project ∧ g.sectionName = n ∧
      db'.isMember g.group member = true

variable {db db' : Database} {group : GroupUuid} {member : AccountId}

/-- Answers are made of what is stored. -/
theorem MovesOnly.movesAuthority (h : MovesOnly group member db db') :
    MovesAuthority group member db db' where
  groups_of uuid account hmoved := by
    by_contra hnot
    refine hmoved (congrArg Except.ok (h.isOwner_eq fun howner haccount => ?_))
    exact hnot ⟨haccount, howner⟩
  groups uuid howner := by
    have hanswer : db'.isOwner uuid member = db'.isMember group member := by
      rw [isOwner_eq_any, h.ownerOf_eq, howner, Option.any_some]
    rw [← hanswer]
    rfl
  sections_of project account hmoved := by
    by_contra haccount
    exact hmoved (congrArg Except.ok (h.ownedSections_eq project haccount))
  sections project := by
    refine ⟨db'.ownedSections project member, rfl, fun n => ?_⟩
    simp [h.grants]

/-- Two databases with the same groups, members and grants. -/
structure SameRights (db db' : Database) : Prop where
  groups : db'.groups = db.groups
  members : db'.members = db.members
  grants : db'.grants = db.grants

theorem SameRights.refl (db : Database) : db.SameRights db := ⟨rfl, rfl, rfl⟩

theorem SameRights.trans {db'' : Database} (h : db.SameRights db') (h' : db'.SameRights db'') :
    db.SameRights db'' :=
  ⟨h'.groups.trans h.groups, h'.members.trans h.members, h'.grants.trans h.grants⟩

theorem SameRights.keepsAuthority (h : db.SameRights db') : db.KeepsAuthority db' where
  groups uuid account := by
    refine congrArg Except.ok ?_
    simp only [isOwner, group?, isMember, h.groups, h.members]
  sections project account := by
    refine congrArg Except.ok ?_
    simp only [ownedSections, isMember, h.grants, h.members]

end Database

/-! ## Writes -/

/-- Whether a statement can change groups, members or grants. -/
def Statement.movesRights {β : Type} : Statement β → Bool
  | .insertGroup _ _ _ _ _ | .insertGrant _ _ _ | .beginMembership _ _ _ _
  | .endMembership _ _ _ _ => true
  | _ => false

/-- Whether an operation can change groups, members or grants. -/
def Operation.movesRights {α : Type} : Operation α → Bool
  | .createGroup _ _ _ _ _ _ | .grantSection _ _ _ | .addMember _ _ _ | .removeMember _ _ _ => true
  | _ => false

theorem Change.sameRights {db db' : Database} {β : Type} {q : Statement β}
    (h : Change db q db') (hq : q.movesRights = false) : db.SameRights db' := by
  cases h with
  | group | grant | join | leave => cases hq
  | _ => exact ⟨rfl, rfl, rfl⟩

theorem Operation.movesRights_of_writes {α β : Type} {operation : Operation α} {q : Statement β}
    (h : operation.movesRights = false) (hwrites : operation.writes q = true) :
    q.movesRights = false := by
  cases operation <;> cases q <;>
    first | rfl | exact Bool.noConfusion h | exact Bool.noConfusion hwrites

/-- Other operations leave all rights as they are, whether they succeed or fail. -/
theorem Operation.sameRights_after {α : Type} {operation : Operation α}
    (h : operation.movesRights = false) (now : Instant) (db : Database) :
    db.SameRights (operation.after now db) :=
  rel_after Database.SameRights.refl Database.SameRights.trans
    (fun q db hwrites => (db.change_perform q).sameRights (movesRights_of_writes h hwrites)) now db

namespace Store

variable {db db' : Database} {group : GroupUuid} {member actor : AccountId} {now : Instant}

/-- An addition that succeeds has found the member there, or has added it. -/
theorem of_run_addMember (hrun : (addMember group member actor now).run db = (.ok (), db')) :
    db.isMember group member = true ∧ db' = db ∨ db' = db.join group member actor now := by
  obtain ⟨g, between, hinternal, hrest⟩ := exists_of_run_bind hrun
  have hbetween : between = db := by
    rw [← run_of_asks_isRead (asks_ask (requireInternal group)) db, hinternal]
  subst hbetween
  rw [run_query_bind, Database.perform] at hrest
  dsimp only at hrest
  split at hrest
  · cases hrest
  · rw [run_query_bind, Database.perform] at hrest
    rcases between.beginMembership_cases group member actor now with
      ⟨present, hcase⟩ | ⟨-, hcase | hcase⟩ <;> rw [hcase] at hrest <;> cases hrest
    · exact .inl ⟨present, rfl⟩
    · exact .inr rfl

/-- A removal that succeeds has removed the member. -/
theorem of_run_removeMember
    (hrun : (removeMember group member actor now).run db = (.ok (), db')) :
    db' = db.leave group member actor now := by
  have hcases := Operation.after_removeMember now db group member actor
  simp only [Operation.after, Operation.succeeds, Operation.program, hrun] at hcases
  rcases hcases with ⟨hfailed, -⟩ | ⟨-, -, hleft⟩
  · cases hfailed
  · exact hleft

end Store

/--
What writes of members and of all else do to authority.  An addition or a
removal of a member that succeeds changes what this member owns, and only by
what the group owns or was granted; a section that is granted to another group
of the member stays theirs.  To include a group, to end that or to commit
sections changes nothing of it, even if it fails.
-/
theorem memberships_move_authority (db : Database) (now : Instant) :
    (∀ group member actor db', (Store.addMember group member actor now).run db = (.ok (), db') →
      db'.isMember group member = true ∧ db.MovesAuthority group member db') ∧
    (∀ group member actor db', (Store.removeMember group member actor now).run db = (.ok (), db') →
      db'.isMember group member = false ∧ db.MovesAuthority group member db') ∧
    (∀ group included actor,
      db.KeepsAuthority ((Store.addSubgroup group included actor now).run db).2) ∧
    (∀ group included actor,
      db.KeepsAuthority ((Store.removeSubgroup group included actor now).run db).2) ∧
    ∀ project account update,
      db.KeepsAuthority ((Store.applyAccess project account update now).run db).2 := by
  refine ⟨fun group member actor db' hrun => ?_, fun group member actor db' hrun => ?_,
    fun group included actor => ?_, fun group included actor => ?_,
    fun project account update => ?_⟩
  · rcases Store.of_run_addMember hrun with ⟨present, rfl⟩ | rfl
    · exact ⟨present, (Database.MovesOnly.refl group member db').movesAuthority⟩
    · exact ⟨db.isMember_join group member actor now,
        (Database.movesOnly_join actor).movesAuthority⟩
  · obtain rfl := Store.of_run_removeMember hrun
    exact ⟨Database.isMember_leave actor, (Database.movesOnly_leave actor).movesAuthority⟩
  · have hsame : db.SameRights ((Operation.addSubgroup group included actor).after now db) :=
      Operation.sameRights_after rfl now db
    exact hsame.keepsAuthority
  · have hsame : db.SameRights ((Operation.removeSubgroup group included actor).after now db) :=
      Operation.sameRights_after rfl now db
    exact hsame.keepsAuthority
  · have hsame : db.SameRights ((Operation.applyAccess project account update).after now db) :=
      Operation.sameRights_after rfl now db
    exact hsame.keepsAuthority

/-- The shared project with a second account, to which nothing is granted. -/
def sharedProjectWithGuest : Database :=
  (Operation.createAccount none none none).after .start sharedProject

/-- The same project after the guest has joined the group and has got a section by another one. -/
def sharedProjectWithOwner : Database :=
  (Operation.grantSection "p" "refs/a" ⟨"h"⟩).after .start <|
  (Operation.createGroup ⟨"h"⟩ "h" none none ⟨2⟩ .start).after .start <|
  (Operation.addMember ⟨"g"⟩ ⟨2⟩ ⟨1⟩).after .start sharedProjectWithGuest

/--
The second account becomes a member, and owns the group and all sections of the
project.  When it is removed it loses them, but for the one that is granted to
another group of its own.
-/
theorem guest_gains_and_loses_authority :
    (∃ db', (Store.addMember ⟨"g"⟩ ⟨2⟩ ⟨1⟩ .start).run sharedProjectWithGuest = (.ok (), db') ∧
      sharedProjectWithGuest.isOwner ⟨"g"⟩ ⟨2⟩ = false ∧
      (Store.isOwner ⟨"g"⟩ ⟨2⟩).run db' = (.ok true, db') ∧
      (sharedProjectWithGuest.ownedSections "p" ⟨2⟩).isEmpty = true ∧
      ∃ owned, (Store.ownedSections "p" ⟨2⟩).run db' = (.ok owned, db') ∧ allRefs ∈ owned) ∧
    ∃ db', (Store.removeMember ⟨"g"⟩ ⟨2⟩ ⟨1⟩ .start).run sharedProjectWithOwner = (.ok (), db') ∧
      sharedProjectWithOwner.isOwner ⟨"g"⟩ ⟨2⟩ = true ∧
      (Store.isOwner ⟨"g"⟩ ⟨2⟩).run db' = (.ok false, db') ∧
      allRefs ∈ sharedProjectWithOwner.ownedSections "p" ⟨2⟩ ∧
      ∃ owned, (Store.ownedSections "p" ⟨2⟩).run db' = (.ok owned, db') ∧
        allRefs ∉ owned ∧ "refs/a" ∈ owned := by
  constructor
  · have hrun : ((Store.addMember ⟨"g"⟩ ⟨2⟩ ⟨1⟩ .start).run sharedProjectWithGuest).1 =
        .ok () := by
      decide +kernel
    have howner : sharedProjectWithGuest.ownerOf ⟨"g"⟩ = some ⟨"g"⟩ := by
      decide +kernel
    have hgrant : (⟨"p", allRefs, ⟨"g"⟩⟩ : GrantRow) ∈ sharedProjectWithGuest.grants := by
      decide +kernel
    obtain ⟨hadd, -⟩ := memberships_move_authority sharedProjectWithGuest .start
    obtain ⟨hmember, hmoves⟩ := hadd ⟨"g"⟩ ⟨2⟩ ⟨1⟩ _ (Prod.ext hrun rfl)
    obtain ⟨owned, howned, hmem⟩ := hmoves.sections "p"
    have hgroup := hmoves.groups ⟨"g"⟩ howner
    rw [hmember] at hgroup
    exact ⟨_, Prod.ext hrun rfl, by decide +kernel, hgroup, by decide +kernel, owned, howned,
      (hmem allRefs).mpr ⟨_, hgrant, rfl, rfl, hmember⟩⟩
  · have hrun : ((Store.removeMember ⟨"g"⟩ ⟨2⟩ ⟨1⟩ .start).run sharedProjectWithOwner).1 =
        .ok () := by
      decide +kernel
    have howner : sharedProjectWithOwner.ownerOf ⟨"g"⟩ = some ⟨"g"⟩ := by
      decide +kernel
    have hgrants : sharedProjectWithOwner.grants =
        [⟨"p", allRefs, ⟨"g"⟩⟩, ⟨"p", "refs/a", ⟨"h"⟩⟩] := by
      decide +kernel
    have hother : ((Store.removeMember ⟨"g"⟩ ⟨2⟩ ⟨1⟩ .start).run
        sharedProjectWithOwner).2.isMember ⟨"h"⟩ ⟨2⟩ = true := by
      decide +kernel
    obtain ⟨-, hremove, -⟩ := memberships_move_authority sharedProjectWithOwner .start
    obtain ⟨hmember, hmoves⟩ := hremove ⟨"g"⟩ ⟨2⟩ ⟨1⟩ _ (Prod.ext hrun rfl)
    obtain ⟨owned, howned, hmem⟩ := hmoves.sections "p"
    have hgroup := hmoves.groups ⟨"g"⟩ howner
    rw [hmember] at hgroup
    refine ⟨_, Prod.ext hrun rfl, by decide +kernel, hgroup, by decide +kernel, owned, howned,
      fun hin => ?_, (hmem "refs/a").mpr ⟨⟨"p", "refs/a", ⟨"h"⟩⟩, ?_, rfl, rfl, hother⟩⟩
    · obtain ⟨g, hg, -, hname, hgroup'⟩ := (hmem allRefs).mp hin
      rw [hgrants] at hg
      rcases List.mem_pair.mp hg with rfl | rfl
      · rw [hmember] at hgroup'
        cases hgroup'
      · revert hname
        decide
    · rw [hgrants]
      exact .tail _ (.head _)

end AccessLedger
