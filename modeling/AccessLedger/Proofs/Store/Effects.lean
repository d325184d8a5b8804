import AccessLedger.Proofs.Store.Change
import AccessLedger.Proofs.Store.Operation

/-!
# What operations do to groups

Five operations manage groups.  Each of them, run undisturbed, either leaves
the groups and their members as they are or makes the one change that it is
there for (`Operation.after_addMember` and so on).  The others leave all groups
alone (`Operation.sameGroups_after`).  So there are seven things that can
happen to groups (`Database.GroupStep`, `Operation.groupStep`).
-/

namespace AccessLedger

/-- Two databases have the same groups, with the same members and audit rows. -/
structure Database.SameGroups (db db' : Database) : Prop where
  groups : db'.groups = db.groups
  members : db'.members = db.members
  memberAudits : db'.memberAudits = db.memberAudits
  includes : db'.includes = db.includes
  includeAudits : db'.includeAudits = db.includeAudits

theorem Database.SameGroups.refl (db : Database) : db.SameGroups db := ⟨rfl, rfl, rfl, rfl, rfl⟩

theorem Database.SameGroups.trans {db db' db'' : Database} (h : db.SameGroups db')
    (h' : db'.SameGroups db'') : db.SameGroups db'' where
  groups := h'.groups.trans h.groups
  members := h'.members.trans h.members
  memberAudits := h'.memberAudits.trans h.memberAudits
  includes := h'.includes.trans h.includes
  includeAudits := h'.includeAudits.trans h.includeAudits

/-! ## Operations that leave groups alone -/

/-- Whether a statement can change groups or their members. -/
def Statement.managesGroups {β : Type} : Statement β → Bool
  | .insertGroup _ _ _ _ _ | .beginMembership _ _ _ _ | .endMembership _ _ _ _
  | .beginInclusion _ _ _ _ | .endInclusion _ _ _ _ => true
  | _ => false

/-- Whether an operation can change groups or their members. -/
def Operation.managesGroups {α : Type} : Operation α → Bool
  | .createGroup _ _ _ _ _ _ | .addMember _ _ _ | .removeMember _ _ _ | .addSubgroup _ _ _
  | .removeSubgroup _ _ _ => true
  | _ => false

theorem Change.sameGroups {db db' : Database} {β : Type} {q : Statement β}
    (h : Change db q db') (hq : q.managesGroups = false) : db.SameGroups db' := by
  cases h with
  | group | join | leave | attach | detach => cases hq
  | _ => exact ⟨rfl, rfl, rfl, rfl, rfl⟩

theorem Operation.managesGroups_of_writes {α β : Type} {operation : Operation α}
    {q : Statement β} (h : operation.managesGroups = false) (hwrites : operation.writes q = true) :
    q.managesGroups = false := by
  cases operation <;> cases q <;>
    first | rfl | exact Bool.noConfusion h | exact Bool.noConfusion hwrites

theorem Operation.sameGroups_after {α : Type} {operation : Operation α}
    (h : operation.managesGroups = false) (now : Instant) (db : Database) :
    db.SameGroups (operation.after now db) :=
  rel_after Database.SameGroups.refl Database.SameGroups.trans
    (fun q db hwrites => (db.change_perform q).sameGroups (managesGroups_of_writes h hwrites))
    now db

/-! ## Operations that manage groups -/

section

variable {α β : Type} {p : StoreProgram α} {db db' : Database}

/-- A program goes on from where its first part has come to. -/
theorem run_bind_of_ok {a : α} (h : p.run db = (.ok a, db')) (f : α → StoreProgram β) :
    StoreProgram.run (p >>= f) db = (f a).run db' := by
  simp only [StoreProgram.run] at h
  simp [StoreProgram.run, h]

/-- A program fails where its first part does. -/
theorem run_bind_of_error {e : Failure} (h : p.run db = (.error e, db'))
    (f : α → StoreProgram β) : StoreProgram.run (p >>= f) db = (.error e, db') := by
  simp only [StoreProgram.run] at h
  simp [StoreProgram.run, h]

/-- A program that answers has answered in its first part, and then in its second. -/
theorem exists_of_run_bind {f : α → StoreProgram β} {b : β}
    (h : StoreProgram.run (p >>= f) db = (.ok b, db')) :
    ∃ a between, p.run db = (.ok a, between) ∧ (f a).run between = (.ok b, db') := by
  match hp : p.run db with
  | (.error e, between) =>
    rw [run_bind_of_error hp] at h
    cases h
  | (.ok a, between) =>
    rw [run_bind_of_ok hp] at h
    exact ⟨a, between, rfl, h⟩

/-- A program that begins by reading fails there, or goes on from the same database. -/
theorem run_bind_of_asks_isRead (h : p.Asks fun q => q.isRead = true) (f : α → StoreProgram β)
    (db : Database) :
    (∃ e, StoreProgram.run (p >>= f) db = (.error e, db)) ∨
    ∃ a, (p.run db).1 = .ok a ∧ StoreProgram.run (p >>= f) db = (f a).run db := by
  have hdb : (p.run db).2 = db := run_of_asks_isRead h db
  cases houtcome : (p.run db).1 with
  | error e => exact .inl ⟨e, run_bind_of_error (Prod.ext houtcome hdb) f⟩
  | ok a => exact .inr ⟨a, rfl, run_bind_of_ok (Prod.ext houtcome hdb) f⟩

end

theorem run_query_bind {α β : Type} (q : Statement α) (f : α → StoreProgram β) (db : Database) :
    StoreProgram.run (Program.query q >>= f) db = match db.perform q with
      | (.ok a, db') => (f a).run db'
      | (.error e, db') => (.error e, db') := by
  rw [StoreProgram.run, Program.run_bind, Program.run_query]
  rcases db.perform q with ⟨_ | _, _⟩ <;> rfl

/-- Whether there is an internal group with this identifier. -/
def Database.hasGroup (db : Database) (uuid : GroupUuid) : Bool := (db.group? uuid).isSome

/-- Whether there is an account with this number. -/
def Database.hasAccount (db : Database) (account : AccountId) : Bool :=
  db.accounts.any (·.id = account.toNat)

/-- Only internal groups pass; others are told from unknown ones. -/
theorem Store.run_requireInternal_of_none {db : Database} {group : GroupUuid}
    (h : db.group? group = none) :
    (ask (requireInternal group)).run db =
      (.error (if (db.description? group).isSome then .unsupportedGroup group
        else .groupNotFound group), db) := by
  have hgroup : (internalGroup group).run db = (.ok none, db) := by
    simp [internalGroup, StoreProgram.run, Database.perform, h]
  simp only [StoreProgram.run] at hgroup
  simp only [ask, requireInternal, StoreProgram.run, Program.run_interpret, Program.run_bind,
    Program.run_query, answer, hgroup, groupDescription, Database.perform]
  cases db.description? group <;> rfl

theorem Store.hasGroup_of_requireInternal {db : Database} {group : GroupUuid} {g : InternalGroup}
    (h : ((ask (requireInternal group)).run db).1 = .ok g) : db.hasGroup group = true := by
  cases hrow : db.group? group with
  | some r => rw [Database.hasGroup, hrow, Option.isSome_some]
  | none =>
    rw [run_requireInternal_of_none hrow] at h
    cases h

/-- Nobody is made a member without an account. -/
theorem Store.run_addMember_of_missing {db : Database} {group : GroupUuid} {g : InternalGroup}
    (hinternal : (ask (requireInternal group)).run db = (.ok g, db)) {member : AccountId}
    (hmissing : db.hasAccount member = false) (addedBy : AccountId) (now : Instant) :
    (addMember group member addedBy now).run db = (.error (.accountNotFound member), db) := by
  rw [Database.hasAccount] at hmissing
  rw [addMember, run_bind_of_ok hinternal, run_query_bind, Database.perform]
  simp only [hmissing, Bool.not_false, if_true]
  rfl

/-- Once all checks are passed, the outcome of an addition is that of its one statement. -/
theorem Store.run_addMember {db : Database} {group : GroupUuid} {g : InternalGroup}
    (hinternal : (ask (requireInternal group)).run db = (.ok g, db)) {member : AccountId}
    (hfound : db.hasAccount member = true) (addedBy : AccountId) (now : Instant) :
    (addMember group member addedBy now).run db =
      match db.beginMembership group member addedBy now with
      | (.ok _, db') => (.ok (), db')
      | (.error e, db') => (.error e, db') := by
  rw [Database.hasAccount] at hfound
  rw [addMember, run_bind_of_ok hinternal, run_query_bind, Database.perform]
  simp only [hfound, Bool.not_true, Bool.false_eq_true, if_false]
  rw [run_query_bind, Database.perform]
  rcases db.beginMembership group member addedBy now with ⟨_ | _, _⟩ <;> rfl

/-- An account is made a member by one statement, once all checks are passed. -/
theorem Store.run_addMember_of_found {db db' : Database} {group : GroupUuid} {g : InternalGroup}
    (hinternal : (ask (requireInternal group)).run db = (.ok g, db)) {member : AccountId}
    (hfound : db.hasAccount member = true) {addedBy : AccountId} {now : Instant} {added : Bool}
    (hbegin : db.beginMembership group member addedBy now = (.ok added, db')) :
    (addMember group member addedBy now).run db = (.ok (), db') := by
  rw [run_addMember hinternal hfound, hbegin]

/-- Nothing is included without a description. -/
theorem Store.run_addSubgroup_of_missing {db : Database} {group : GroupUuid} {g : InternalGroup}
    (hinternal : (ask (requireInternal group)).run db = (.ok g, db)) {included : GroupUuid}
    (hmissing : (db.description? included).isSome = false) (addedBy : AccountId) (now : Instant) :
    (addSubgroup group included addedBy now).run db = (.error (.groupNotFound included), db) := by
  rw [addSubgroup, run_bind_of_ok hinternal, groupDescription, run_query_bind, Database.perform]
  simp only [Option.isSome_eq_false_iff.mp hmissing, if_true]
  rfl

theorem Store.run_addSubgroup {db : Database} {group : GroupUuid} {g : InternalGroup}
    (hinternal : (ask (requireInternal group)).run db = (.ok g, db)) {included : GroupUuid}
    (hfound : (db.description? included).isSome = true) (addedBy : AccountId) (now : Instant) :
    (addSubgroup group included addedBy now).run db =
      match db.beginInclusion group included addedBy now with
      | (.ok _, db') => (.ok (), db')
      | (.error e, db') => (.error e, db') := by
  obtain ⟨d, hd⟩ := Option.isSome_iff_exists.mp hfound
  rw [addSubgroup, run_bind_of_ok hinternal, groupDescription, run_query_bind, Database.perform]
  simp only [hd, Option.isNone_some, Bool.false_eq_true, if_false]
  rw [run_query_bind, Database.perform]
  rcases db.beginInclusion group included addedBy now with ⟨_ | _, _⟩ <;> rfl

/-- Once the group is let pass, the outcome of a removal is that of its one statement. -/
theorem Store.run_removeMember {db : Database} {group : GroupUuid} {g : InternalGroup}
    (hinternal : (ask (requireInternal group)).run db = (.ok g, db))
    (member removedBy : AccountId) (now : Instant) :
    (removeMember group member removedBy now).run db =
      if db.isMember group member = true then (.ok (), db.leave group member removedBy now)
      else (.error (.notMember member.display group), db) := by
  rw [removeMember, run_bind_of_ok hinternal, run_query_bind, Database.perform]
  rcases db.endMembership_cases group member removedBy now with ⟨absent, hend⟩ | ⟨present, hend⟩
  · rw [hend, if_neg (Bool.eq_false_iff.mp absent)]
    rfl
  · rw [hend, if_pos present]
    rfl

theorem Store.run_removeSubgroup {db : Database} {group : GroupUuid} {g : InternalGroup}
    (hinternal : (ask (requireInternal group)).run db = (.ok g, db))
    (included : GroupUuid) (removedBy : AccountId) (now : Instant) :
    (removeSubgroup group included removedBy now).run db =
      if db.isIncluded group included = true then
        (.ok (), db.detach group included removedBy now)
      else (.error (.notMember included.text group), db) := by
  rw [removeSubgroup, run_bind_of_ok hinternal, run_query_bind, Database.perform]
  rcases db.endInclusion_cases group included removedBy now with ⟨absent, hend⟩ | ⟨present, hend⟩
  · rw [hend, if_neg (Bool.eq_false_iff.mp absent)]
    rfl
  · rw [hend, if_pos present]
    rfl

namespace Operation

/-- Whether an operation does what it is asked for. -/
def succeeds {α : Type} (operation : Operation α) (now : Instant) (db : Database) : Bool :=
  match ((operation.program now).run db).1 with
  | .ok _ => true
  | .error _ => false

variable (now : Instant) (db : Database) (group : GroupUuid)

theorem after_addMember (member addedBy : AccountId) :
    let db' := (addMember group member addedBy).after now db
    db' = db ∨ (db.hasGroup group = true ∧ db.hasAccount member = true) ∧
      db.isMember group member = false ∧ db' = db.join group member addedBy now := by
  simp only [after, program, Store.addMember]
  rcases run_bind_of_asks_isRead (Store.asks_ask (requireInternal group)) _ db with
    ⟨e, h⟩ | ⟨_, hinternal, h⟩ <;> rw [h]
  · exact .inl rfl
  rw [run_query_bind, Database.perform]
  by_cases hfound : db.hasAccount member = true
  · rw [Database.hasAccount] at hfound
    simp only [hfound, Bool.not_true, Bool.false_eq_true, if_false]
    rw [run_query_bind, Database.perform]
    rcases db.beginMembership_cases group member addedBy now with
      ⟨-, hcase⟩ | ⟨absent, hcase | hcase⟩ <;> rw [hcase]
    · exact .inl rfl
    · exact .inl rfl
    · exact .inr ⟨⟨Store.hasGroup_of_requireInternal hinternal, hfound⟩, absent, rfl⟩
  · rw [Database.hasAccount] at hfound
    simp only [hfound, Bool.not_false, if_true]
    exact .inl rfl

theorem after_removeMember (member removedBy : AccountId) :
    let db' := (removeMember group member removedBy).after now db
    let done := (removeMember group member removedBy).succeeds now db
    done = false ∧ db' = db ∨ done = true ∧ db.isMember group member = true ∧
      db' = db.leave group member removedBy now := by
  simp only [after, succeeds, program, Store.removeMember]
  rcases run_bind_of_asks_isRead (Store.asks_ask (requireInternal group)) _ db with
    ⟨e, h⟩ | ⟨_, -, h⟩ <;> rw [h]
  · exact .inl ⟨rfl, rfl⟩
  rw [run_query_bind, Database.perform]
  rcases db.endMembership_cases group member removedBy now with ⟨-, hcase⟩ | ⟨present, hcase⟩ <;>
    rw [hcase]
  · exact .inl ⟨rfl, rfl⟩
  · exact .inr ⟨rfl, present, rfl⟩

theorem after_addSubgroup (included : GroupUuid) (addedBy : AccountId) :
    let db' := (addSubgroup group included addedBy).after now db
    db' = db ∨ (db.hasGroup group = true ∧ (db.description? included).isSome = true) ∧
      db.isIncluded group included = false ∧ db' = db.attach group included addedBy now := by
  simp only [after, program, Store.addSubgroup, Store.groupDescription]
  rcases run_bind_of_asks_isRead (Store.asks_ask (requireInternal group)) _ db with
    ⟨e, h⟩ | ⟨_, hinternal, h⟩ <;> rw [h]
  · exact .inl rfl
  rw [run_query_bind, Database.perform]
  cases hfound : db.description? included with
  | none => exact .inl rfl
  | some d =>
    simp only [Option.isNone_some, Bool.false_eq_true, if_false]
    rw [run_query_bind, Database.perform]
    rcases db.beginInclusion_cases group included addedBy now with
      ⟨-, hcase⟩ | ⟨absent, hcase | hcase⟩ <;> rw [hcase]
    · exact .inl rfl
    · exact .inl rfl
    · exact .inr ⟨⟨Store.hasGroup_of_requireInternal hinternal, rfl⟩, absent, rfl⟩

theorem after_removeSubgroup (included : GroupUuid) (removedBy : AccountId) :
    let db' := (removeSubgroup group included removedBy).after now db
    let done := (removeSubgroup group included removedBy).succeeds now db
    done = false ∧ db' = db ∨ done = true ∧ db.isIncluded group included = true ∧
      db' = db.detach group included removedBy now := by
  simp only [after, succeeds, program, Store.removeSubgroup]
  rcases run_bind_of_asks_isRead (Store.asks_ask (requireInternal group)) _ db with
    ⟨e, h⟩ | ⟨_, -, h⟩ <;> rw [h]
  · exact .inl ⟨rfl, rfl⟩
  rw [run_query_bind, Database.perform]
  rcases db.endInclusion_cases group included removedBy now with ⟨-, hcase⟩ | ⟨present, hcase⟩ <;>
    rw [hcase]
  · exact .inl ⟨rfl, rfl⟩
  · exact .inr ⟨rfl, present, rfl⟩

/-- A new group is added, and then its creator as any member is. -/
theorem after_createGroup (name : String) (description : Option String)
    (owner : Option GroupUuid) (creator : AccountId) (createdOn : Instant) :
    let db' := (createGroup group name description owner creator createdOn).after now db
    db' = db ∨ ∃ id, db' = (addMember group creator creator).after now
      (db.withGroup group id name description (owner.getD group) createdOn) := by
  simp only [after, program, Store.createGroup]
  rw [run_query_bind, Database.perform]
  rcases db.insertGroup_cases group name description (owner.getD group) createdOn with
    h | ⟨id, -, h⟩ <;> rw [h]
  · exact .inl rfl
  refine .inr ⟨id, ?_⟩
  dsimp only
  rw [StoreProgram.run, Program.run_bind, StoreProgram.run]
  generalize Program.run Database.perform _ _ = outcome
  obtain ⟨_ | _, _⟩ := outcome <;> rfl

end Operation

/--
What an operation may do to groups and their members.  A new group is added
alone if its creator has no account, and with its creator otherwise.
-/
inductive Database.GroupStep (now : Instant) (db : Database) : Database → Prop
  | same {db' : Database} (groups : db.SameGroups db') : GroupStep now db db'
  | founded (group : GroupUuid) (id : UInt32) (name : String) (description : Option String)
      (owner : GroupUuid) (createdOn : Instant) :
      GroupStep now db (db.withGroup group id name description owner createdOn)
  | foundedWith (group : GroupUuid) (id : UInt32) (name : String) (description : Option String)
      (owner : GroupUuid) (createdOn : Instant) (creator : AccountId)
      (found : (db.withGroup group id name description owner createdOn).hasGroup group = true)
      (registered : db.hasAccount creator = true) :
      GroupStep now db ((db.withGroup group id name description owner createdOn).join group creator
        creator now)
  | join (group : GroupUuid) (member addedBy : AccountId) (found : db.hasGroup group = true)
      (registered : db.hasAccount member = true) (absent : db.isMember group member = false) :
      GroupStep now db (db.join group member addedBy now)
  | leave (group : GroupUuid) (member removedBy : AccountId)
      (present : db.isMember group member = true) :
      GroupStep now db (db.leave group member removedBy now)
  | attach (group included : GroupUuid) (addedBy : AccountId) (found : db.hasGroup group = true)
      (described : (db.description? included).isSome = true)
      (absent : db.isIncluded group included = false) :
      GroupStep now db (db.attach group included addedBy now)
  | detach (group included : GroupUuid) (removedBy : AccountId)
      (present : db.isIncluded group included = true) :
      GroupStep now db (db.detach group included removedBy now)

/-- Every operation takes such a step, whether it succeeds or fails. -/
theorem Operation.groupStep {α : Type} (operation : Operation α) (now : Instant) (db : Database) :
    db.GroupStep now (operation.after now db) := by
  cases operation with
  | createGroup group name description owner creator createdOn =>
    rcases after_createGroup now db group name description owner creator createdOn with
      h | ⟨id, h⟩ <;> rw [h]
    · exact .same (.refl db)
    · rcases after_addMember now (db.withGroup group id name description (owner.getD group)
          createdOn) group creator creator with h | ⟨⟨found, registered⟩, -, h⟩ <;> rw [h]
      · exact .founded group id name description (owner.getD group) createdOn
      · exact .foundedWith group id name description (owner.getD group) createdOn creator found
          registered
  | addMember group member addedBy =>
    rcases after_addMember now db group member addedBy with
      h | ⟨⟨found, registered⟩, absent, h⟩ <;> rw [h]
    · exact .same (.refl db)
    · exact .join group member addedBy found registered absent
  | removeMember group member removedBy =>
    rcases after_removeMember now db group member removedBy with ⟨-, h⟩ | ⟨-, present, h⟩ <;> rw [h]
    · exact .same (.refl db)
    · exact .leave group member removedBy present
  | addSubgroup group included addedBy =>
    rcases after_addSubgroup now db group included addedBy with
      h | ⟨⟨found, described⟩, absent, h⟩ <;> rw [h]
    · exact .same (.refl db)
    · exact .attach group included addedBy found described absent
  | removeSubgroup group included removedBy =>
    rcases after_removeSubgroup now db group included removedBy with
      ⟨-, h⟩ | ⟨-, present, h⟩ <;> rw [h]
    · exact .same (.refl db)
    · exact .detach group included removedBy present
  | _ => exact .same (sameGroups_after rfl now db)

end AccessLedger
