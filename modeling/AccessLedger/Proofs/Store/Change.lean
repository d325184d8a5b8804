import AccessLedger.Proofs.Store.Safety

/-!
# What one statement can change

`Change db q db'` lists the ways in which the statement `q` can make `db'` of
`db`, each with what is checked before, and `Database.change_perform` says
that there are no others.  Whatever is to be kept by every statement is proved by
cases on a change.  A change of the members of one group leaves all other
groups as they are (`Database.SameBut`).
-/

namespace AccessLedger

namespace Database

/-- The database in which an account has become a member and begun a period. -/
def join (db : Database) (group : GroupUuid) (account addedBy : AccountId) (now : Instant) :
    Database :=
  { db with
    members := db.members ++ [⟨group, account.scalar⟩]
    memberAudits := db.memberAudits ++
      [⟨group, account.scalar, addedBy.scalar, now.column, none, none⟩] }

/-- The database in which a membership and its periods have ended. -/
def leave (db : Database) (group : GroupUuid) (account removedBy : AccountId) (now : Instant) :
    Database :=
  { db with
    members := db.members.filter (· ≠ ⟨group, account.scalar⟩)
    memberAudits := db.memberAudits.map (MemberAuditRow.close group account removedBy now) }

/-- The database in which a group has been included and begun a period. -/
def attach (db : Database) (group included : GroupUuid) (addedBy : AccountId) (now : Instant) :
    Database :=
  { db with
    includes := db.includes ++ [⟨group, included⟩]
    includeAudits := db.includeAudits ++
      [⟨group, included, addedBy.scalar, now.column, none, none⟩] }

/-- The database in which an inclusion and its periods have ended. -/
def detach (db : Database) (group included : GroupUuid) (removedBy : AccountId) (now : Instant) :
    Database :=
  { db with
    includes := db.includes.filter (· ≠ ⟨group, included⟩)
    includeAudits := db.includeAudits.map (IncludeAuditRow.close group included removedBy now) }

/-- The database with a new group. -/
def withGroup (db : Database) (uuid : GroupUuid) (id : UInt32) (name : String)
    (description : Option String) (owner : GroupUuid) (now : Instant) : Database :=
  { db with groups := db.groups ++
      [⟨some uuid, .integer id.toNat, name, description, owner, .integer 0, now.column⟩] }

/-- No group has this identifier, this number or this name. -/
def IsFresh (db : Database) (uuid : GroupUuid) (id : UInt32) (name : String) : Prop :=
  ∀ g ∈ db.groups, g.uuid ≠ some uuid ∧ g.id ≠ .integer id.toNat ∧ g.name ≠ name

/-- The database with a new project. -/
def withProject (db : Database) (name : String) (parent : Option String) (revision : String)
    (sections : List StoredSection) : Database :=
  { db with
    projects := db.projects ++ [⟨some name, parent, revision⟩]
    sections := db.sections ++ sectionRows name sections }

/-- The database in which a project has got new sections. -/
def swap (db : Database) (s : SectionSwap) : Database :=
  { db with
    projects := db.projects.map fun p =>
      if p.name = some s.project then { p with revision := s.new } else p
    sections := db.sections.filter (·.project ≠ s.project) ++ sectionRows s.project s.sections
    history := db.history ++ [⟨s.project, s.new, s.message, s.account.scalar, s.now.column⟩] }

end Database

/-- What a statement can make of a database. -/
inductive Change (db : Database) : {β : Type} → Statement β → Database → Prop
  | same {β : Type} (q : Statement β) : Change db q db
  | account (fullName email username : Option String) (now : Instant) (id : Int)
      (fresh : ∀ a ∈ db.accounts, a.id ≠ id) :
      Change db (.insertAccount fullName email username now)
        { db with accounts := db.accounts ++ [⟨id, fullName, email, username, now.column⟩] }
  | group (uuid : GroupUuid) (name : String) (description : Option String) (owner : GroupUuid)
      (now : Instant) (id : UInt32) (fresh : db.IsFresh uuid id name) :
      Change db (.insertGroup uuid name description owner now)
        (db.withGroup uuid id name description owner now)
  | describe (d : GroupDescription) (rows : List ExternalRow) :
      Change db (.putDescription d) { db with externals := rows }
  | project (name : String) (parent : Option String) (revision : String)
      (sections : List StoredSection) (fresh : db.project? name = none) :
      Change db (.insertProject name parent revision sections)
        (db.withProject name parent revision sections)
  | grant (project sectionName : String) (group : GroupUuid) :
      Change db (.insertGrant project sectionName group)
        { db with grants := db.grants ++ [⟨project, sectionName, group⟩] }
  | join (group : GroupUuid) (account addedBy : AccountId) (now : Instant)
      (absent : db.isMember group account = false) :
      Change db (.beginMembership group account addedBy now) (db.join group account addedBy now)
  | leave (group : GroupUuid) (account removedBy : AccountId) (now : Instant)
      (present : db.isMember group account = true) :
      Change db (.endMembership group account removedBy now)
        (db.leave group account removedBy now)
  | attach (group included : GroupUuid) (addedBy : AccountId) (now : Instant)
      (absent : db.isIncluded group included = false) :
      Change db (.beginInclusion group included addedBy now)
        (db.attach group included addedBy now)
  | detach (group included : GroupUuid) (removedBy : AccountId) (now : Instant)
      (present : db.isIncluded group included = true) :
      Change db (.endInclusion group included removedBy now)
        (db.detach group included removedBy now)
  | swap (s : SectionSwap) (p : ProjectRow) (found : db.project? s.project = some p)
      (current : p.revision = s.old) : Change db (.swapSections s) (db.swap s)

namespace Database

/-! ## One statement at a time -/

/-- The next number is greater than all before. -/
theorem lt_nextNumber {numbers : List Int} {n : Int} (h : n ∈ numbers) :
    n < nextNumber numbers := by
  cases numbers with
  | nil => cases h
  | cons m r =>
    have hmax : (m :: r).max? = some (r.foldl max m) := List.max?_cons'
    have hle : n ≤ r.foldl max m := (List.max?_le_iff hmax).mp (Int.le_refl _) n h
    exact Int.lt_add_one_of_le hle

theorem insertAccount_cases (db : Database) (fullName email username : Option String)
    (now : Instant) : (db.insertAccount fullName email username now).2 = db ∨
      ∃ id, (∀ a ∈ db.accounts, a.id ≠ id) ∧
        (db.insertAccount fullName email username now).2 =
          { db with accounts := db.accounts ++ [⟨id, fullName, email, username, now.column⟩] } := by
  unfold insertAccount
  split
  · exact .inl rfl
  · refine .inr ⟨_, fun a ha => Int.ne_of_lt ?_, answer_snd _ _⟩
    exact lt_nextNumber (List.mem_map_of_mem ha)

theorem insertGroup_cases (db : Database) (uuid : GroupUuid) (name : String)
    (description : Option String) (owner : GroupUuid) (now : Instant) :
    db.insertGroup uuid name description owner now = db.refuse ∨
    ∃ id, db.IsFresh uuid id name ∧
      db.insertGroup uuid name description owner now =
        (.ok id, db.withGroup uuid id name description owner now) := by
  unfold insertGroup
  split
  · exact .inl rfl
  · next id _ =>
    dsimp only
    split
    · exact .inl rfl
    · next hfree =>
      refine .inr ⟨id, fun g hg => ?_, rfl⟩
      have hdiffers : (g.uuid = some uuid || g.id = .integer id.toNat || g.name = name) = false :=
        Bool.eq_false_iff.mpr fun hany => hfree (List.any_eq_true.mpr ⟨g, hg, hany⟩)
      simpa [and_assoc] using hdiffers

theorem insertProject_cases (db : Database) (name : String) (parent : Option String)
    (revision : String) (sections : List StoredSection) :
    db.insertProject name parent revision sections = db.refuse ∨
    db.project? name = none ∧ db.insertProject name parent revision sections =
      (.ok (), db.withProject name parent revision sections) := by
  unfold insertProject
  split
  · exact .inl rfl
  · next hfree =>
    refine .inr ⟨?_, rfl⟩
    cases hp : db.project? name with
    | none => rfl
    | some p => exact absurd (by rw [hp]; rfl) hfree

theorem insertGrant_cases (db : Database) (project sectionName : String) (group : GroupUuid) :
    (db.insertGrant project sectionName group).2 = db ∨
    (db.insertGrant project sectionName group).2 =
      { db with grants := db.grants ++ [⟨project, sectionName, group⟩] } := by
  unfold insertGrant
  dsimp only
  split
  · exact .inl rfl
  · split
    · exact .inl rfl
    · exact .inr rfl

theorem beginMembership_cases (db : Database) (group : GroupUuid) (account addedBy : AccountId)
    (now : Instant) :
    db.isMember group account = true ∧
      db.beginMembership group account addedBy now = (.ok false, db) ∨
    db.isMember group account = false ∧
      (db.beginMembership group account addedBy now = db.refuse ∨
        db.beginMembership group account addedBy now =
          (.ok true, db.join group account addedBy now)) := by
  unfold beginMembership
  split
  · next present => exact .inl ⟨present, rfl⟩
  · next absent =>
    refine .inr ⟨Bool.eq_false_iff.mpr absent, ?_⟩
    split
    · exact .inl rfl
    · exact .inr rfl

theorem endMembership_cases (db : Database) (group : GroupUuid) (account removedBy : AccountId)
    (now : Instant) :
    db.isMember group account = false ∧
      db.endMembership group account removedBy now = (.ok false, db) ∨
    db.isMember group account = true ∧
      db.endMembership group account removedBy now =
        (.ok true, db.leave group account removedBy now) := by
  unfold endMembership
  split
  · next present => exact .inr ⟨present, rfl⟩
  · next absent => exact .inl ⟨Bool.eq_false_iff.mpr absent, rfl⟩

theorem beginInclusion_cases (db : Database) (group included : GroupUuid) (addedBy : AccountId)
    (now : Instant) :
    db.isIncluded group included = true ∧
      db.beginInclusion group included addedBy now = (.ok false, db) ∨
    db.isIncluded group included = false ∧
      (db.beginInclusion group included addedBy now = db.refuse ∨
        db.beginInclusion group included addedBy now =
          (.ok true, db.attach group included addedBy now)) := by
  unfold beginInclusion
  split
  · next present => exact .inl ⟨present, rfl⟩
  · next absent =>
    refine .inr ⟨Bool.eq_false_iff.mpr absent, ?_⟩
    split
    · exact .inl rfl
    · exact .inr rfl

theorem endInclusion_cases (db : Database) (group included : GroupUuid) (removedBy : AccountId)
    (now : Instant) :
    db.isIncluded group included = false ∧
      db.endInclusion group included removedBy now = (.ok false, db) ∨
    db.isIncluded group included = true ∧
      db.endInclusion group included removedBy now =
        (.ok true, db.detach group included removedBy now) := by
  unfold endInclusion
  split
  · next present => exact .inr ⟨present, rfl⟩
  · next absent => exact .inl ⟨Bool.eq_false_iff.mpr absent, rfl⟩

theorem swapSections_cases (db : Database) (s : SectionSwap) :
    db.swapSections s = (.ok false, db) ∨
    ∃ p, db.project? s.project = some p ∧ p.revision = s.old ∧
      db.swapSections s = (.ok true, db.swap s) := by
  unfold swapSections
  split
  · next hcurrent =>
    obtain ⟨p, hp, hrevision⟩ := (Option.any_eq_true _ _).mp (Bool.and_eq_true_iff.mp hcurrent).2
    exact .inr ⟨p, hp, of_decide_eq_true hrevision, rfl⟩
  · exact .inl rfl

/-- A statement changes a database in one of the ways that `Change` lists. -/
theorem change_perform (db : Database) {β : Type} (q : Statement β) :
    Change db q (db.perform q).2 := by
  have hread (h : q.isRead = true) : Change db q (db.perform q).2 := by
    rw [perform_of_isRead h]
    exact .same q
  cases q with
  | insertAccount fullName email username now =>
    rcases db.insertAccount_cases fullName email username now with h | ⟨id, fresh, h⟩ <;>
      simp only [perform, h]
    · exact .same _
    · exact .account fullName email username now id fresh
  | insertGroup uuid name description owner now =>
    rcases db.insertGroup_cases uuid name description owner now with h | ⟨id, fresh, h⟩ <;>
      simp only [perform, h]
    · exact .same _
    · exact .group uuid name description owner now id fresh
  | putDescription d => exact .describe d _
  | insertProject name parent revision sections =>
    rcases db.insertProject_cases name parent revision sections with h | ⟨fresh, h⟩ <;>
      simp only [perform, h]
    · exact .same _
    · exact .project name parent revision sections fresh
  | insertGrant project sectionName group =>
    rcases db.insertGrant_cases project sectionName group with h | h <;> simp only [perform, h]
    · exact .same _
    · exact .grant project sectionName group
  | beginMembership group account addedBy now =>
    rcases db.beginMembership_cases group account addedBy now with ⟨-, h⟩ | ⟨absent, h | h⟩ <;>
      simp only [perform, h]
    · exact .same _
    · exact .same _
    · exact .join group account addedBy now absent
  | endMembership group account removedBy now =>
    rcases db.endMembership_cases group account removedBy now with ⟨-, h⟩ | ⟨present, h⟩ <;>
      simp only [perform, h]
    · exact .same _
    · exact .leave group account removedBy now present
  | beginInclusion group included addedBy now =>
    rcases db.beginInclusion_cases group included addedBy now with ⟨-, h⟩ | ⟨absent, h | h⟩ <;>
      simp only [perform, h]
    · exact .same _
    · exact .same _
    · exact .attach group included addedBy now absent
  | endInclusion group included removedBy now =>
    rcases db.endInclusion_cases group included removedBy now with ⟨-, h⟩ | ⟨present, h⟩ <;>
      simp only [perform, h]
    · exact .same _
    · exact .detach group included removedBy now present
  | swapSections s =>
    rcases db.swapSections_cases s with h | ⟨p, found, current, h⟩ <;> simp only [perform, h]
    · exact .same _
    · exact .swap s p found current
  | _ => exact hread rfl

/-! ## One group at a time -/

/-- Two databases that differ only in the members and included groups of one group. -/
structure SameBut (group : GroupUuid) (db db' : Database) : Prop where
  groups : db'.groups = db.groups
  projects : db'.projects = db.projects
  sections : db'.sections = db.sections
  grants : db'.grants = db.grants
  members : ∀ g, g ≠ group →
    db'.members.filter (·.group = g) = db.members.filter (·.group = g)
  memberAudits : ∀ g, g ≠ group →
    db'.memberAudits.filter (·.group = g) = db.memberAudits.filter (·.group = g)
  includes : ∀ g, g ≠ group →
    db'.includes.filter (·.group = g) = db.includes.filter (·.group = g)
  includeAudits : ∀ g, g ≠ group →
    db'.includeAudits.filter (·.group = g) = db.includeAudits.filter (·.group = g)

/-- Rows of another group are not added. -/
theorem filter_append_of_ne {ρ : Type} (rows : List ρ) (row : ρ) {p : ρ → Bool}
    (h : p row = false) : (rows ++ [row]).filter p = rows.filter p := by
  simp only [List.filter_append, List.filter_cons, h, Bool.false_eq_true, if_false,
    List.filter_nil, List.append_nil]

/-- Rows that are left alone stay. -/
theorem filter_filter_of_imp {ρ : Type} (rows : List ρ) {p q : ρ → Bool}
    (h : ∀ r, p r = true → q r = true) : (rows.filter q).filter p = rows.filter p := by
  rw [List.filter_filter]
  refine List.filter_congr fun r _ => ?_
  cases hp : p r with
  | false => rfl
  | true => rw [h r hp, Bool.and_self]

/-- Rows that are left alone are as they were. -/
theorem filter_map_of_fixed {ρ : Type} (rows : List ρ) {p : ρ → Bool} {f : ρ → ρ}
    (hp : ∀ r, p (f r) = p r) (h : ∀ r, p r = true → f r = r) :
    (rows.map f).filter p = rows.filter p := by
  induction rows with
  | nil => rfl
  | cons r rows ih =>
    rw [List.map_cons, List.filter_cons, List.filter_cons, hp, ih]
    split
    · next hr => rw [h r hr]
    · rfl

section

variable (db : Database) (group : GroupUuid) (now : Instant)

theorem SameBut.refl : db.SameBut group db :=
  ⟨rfl, rfl, rfl, rfl, fun _ _ => rfl, fun _ _ => rfl, fun _ _ => rfl, fun _ _ => rfl⟩

theorem sameBut_join (account addedBy : AccountId) :
    db.SameBut group (db.join group account addedBy now) :=
  { SameBut.refl db group with
    members := fun _ hg => filter_append_of_ne _ _ (decide_eq_false (Ne.symm hg))
    memberAudits := fun _ hg => filter_append_of_ne _ _ (decide_eq_false (Ne.symm hg)) }

theorem sameBut_attach (included : GroupUuid) (addedBy : AccountId) :
    db.SameBut group (db.attach group included addedBy now) :=
  { SameBut.refl db group with
    includes := fun _ hg => filter_append_of_ne _ _ (decide_eq_false (Ne.symm hg))
    includeAudits := fun _ hg => filter_append_of_ne _ _ (decide_eq_false (Ne.symm hg)) }

@[simp]
theorem group_close_member (account removedBy : AccountId) (r : MemberAuditRow) :
    (r.close group account removedBy now).group = r.group := by
  unfold MemberAuditRow.close
  split <;> rfl

@[simp]
theorem group_close_include (included : GroupUuid) (removedBy : AccountId)
    (r : IncludeAuditRow) : (r.close group included removedBy now).group = r.group := by
  unfold IncludeAuditRow.close
  split <;> rfl

theorem sameBut_leave (account removedBy : AccountId) :
    db.SameBut group (db.leave group account removedBy now) :=
  { SameBut.refl db group with
    members := fun g hg => by
      refine filter_filter_of_imp _ fun r hr => decide_eq_true ?_
      rintro rfl
      exact hg (of_decide_eq_true hr).symm
    memberAudits := fun g hg => by
      refine filter_map_of_fixed _ (fun r => ?_) fun r hr => ?_
      · rw [group_close_member]
      · refine if_neg fun hclose => hg ?_
        exact (of_decide_eq_true hr).symm.trans hclose.1 }

theorem sameBut_detach (included : GroupUuid) (removedBy : AccountId) :
    db.SameBut group (db.detach group included removedBy now) :=
  { SameBut.refl db group with
    includes := fun g hg => by
      refine filter_filter_of_imp _ fun r hr => decide_eq_true ?_
      rintro rfl
      exact hg (of_decide_eq_true hr).symm
    includeAudits := fun g hg => by
      refine filter_map_of_fixed _ (fun r => ?_) fun r hr => ?_
      · rw [group_close_include]
      · refine if_neg fun hclose => hg ?_
        exact (of_decide_eq_true hr).symm.trans hclose.1 }

theorem sameBut_beginMembership (account addedBy : AccountId) :
    db.SameBut group (db.beginMembership group account addedBy now).2 := by
  rcases db.beginMembership_cases group account addedBy now with ⟨-, h⟩ | ⟨-, h | h⟩ <;> rw [h]
  · exact .refl db group
  · exact .refl db group
  · exact db.sameBut_join group now account addedBy

theorem sameBut_endMembership (account removedBy : AccountId) :
    db.SameBut group (db.endMembership group account removedBy now).2 := by
  rcases db.endMembership_cases group account removedBy now with ⟨-, h⟩ | ⟨-, h⟩ <;> rw [h]
  · exact .refl db group
  · exact db.sameBut_leave group now account removedBy

theorem sameBut_beginInclusion (included : GroupUuid) (addedBy : AccountId) :
    db.SameBut group (db.beginInclusion group included addedBy now).2 := by
  rcases db.beginInclusion_cases group included addedBy now with ⟨-, h⟩ | ⟨-, h | h⟩ <;> rw [h]
  · exact .refl db group
  · exact .refl db group
  · exact db.sameBut_attach group now included addedBy

theorem sameBut_endInclusion (included : GroupUuid) (removedBy : AccountId) :
    db.SameBut group (db.endInclusion group included removedBy now).2 := by
  rcases db.endInclusion_cases group included removedBy now with ⟨-, h⟩ | ⟨-, h⟩ <;> rw [h]
  · exact .refl db group
  · exact db.sameBut_detach group now included removedBy

end

end Database

end AccessLedger
