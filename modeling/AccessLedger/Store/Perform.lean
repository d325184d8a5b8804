import AccessLedger.Store.Database
import AccessLedger.Store.Statement

/-!
# What statements do

`Database.perform` says what a statement answers and what it changes.  A
statement that the database refuses, because a key would occur twice, a
reference would lead nowhere or a column does not hold a number in range,
changes nothing; only a new account whose number is out of range stays.
-/

namespace AccessLedger

namespace Database

/-- The answer of a statement, or its refusal, and the database after it. -/
abbrev Outcome (β : Type) := Except Failure β × Database

/-- Refuse a statement. -/
def refuse {β : Type} (db : Database) : Outcome β := (.error (.store .database), db)

/-- Answer a statement that changes nothing; without an answer a column does not hold what is read. -/
def answer {β : Type} (db : Database) (b : Option β) : Outcome β :=
  match b with
  | some b => (.ok b, db)
  | none => db.refuse

/-- The account that a column holds; `none` if it holds anything else. -/
def storedId? (s : Scalar) : Option AccountId := s.word?.map AccountId.mk

/-- The account that a column holds, which may hold nothing. -/
def optionalId? : Option Scalar → Option (Option AccountId)
  | none => some none
  | some s => (storedId? s).map some

/-- Read the row of a group with this identifier. -/
def storedGroup? (uuid : GroupUuid) (g : GroupRow) : Option StoredGroup := do
  return ⟨uuid, ← g.id.word?, g.name, g.description, g.owner, ← g.visibleToAll.truth?, g.createdOn⟩

/-- Read the audit row of a member. -/
def storedMemberAudit? (r : MemberAuditRow) : Option StoredMemberAudit := do
  return ⟨r.group, ← storedId? r.account, ← storedId? r.addedBy, r.addedOn,
    ← optionalId? r.removedBy, r.removedOn⟩

/-- Read the audit row of an included group. -/
def storedIncludeAudit? (r : IncludeAuditRow) : Option StoredIncludeAudit := do
  return ⟨r.group, r.included, ← storedId? r.addedBy, r.addedOn, ← optionalId? r.removedBy,
    r.removedOn⟩

/-- Whether a section comes before another one or stands at its place. -/
def sectionNotAfter (a b : SectionRow) : Bool :=
  if a.position.isSame b.position then a.name ≤ b.name else a.position.isNotAfter b.position

/-- The stored sections of a project, in order of position. -/
def storedSections (db : Database) (project : String) : List StoredSection :=
  ((db.sections.filter (·.project = project)).mergeSort sectionNotAfter).map
    fun r => ⟨r.name, r.permissions⟩

/-- The rows of a list of sections, with positions from `0` on. -/
def sectionRows (project : String) (sections : List StoredSection) : List SectionRow :=
  sections.mapIdx fun i s => ⟨project, .integer i, s.name, s.permissions⟩

/-- The largest number of accounts that one statement can ask for. -/
def accountLimit : Nat := 32766

/-- A username that another account has. -/
def usernameTaken (db : Database) (username : Option String) : Bool :=
  username.isSome && db.accounts.any (·.username = username)

def insertAccount (db : Database) (fullName email username : Option String) (now : Instant) :
    Outcome AccountId :=
  if db.usernameTaken username then db.refuse
  else
    let id := nextNumber (db.accounts.map AccountRow.id)
    let row : AccountRow := ⟨id, fullName, email, username, now.column⟩
    -- the row stays even if its number is out of range
    { db with accounts := db.accounts ++ [row] }.answer (AccountId.ofInt? id)

def insertGroup (db : Database) (uuid : GroupUuid) (name : String) (description : Option String)
    (owner : GroupUuid) (now : Instant) : Outcome UInt32 :=
  match db.nextGroupId? with
  | none => db.refuse
  | some id =>
    let row : GroupRow :=
      ⟨some uuid, .integer id.toNat, name, description, owner, .integer 0, now.column⟩
    if db.groups.any fun g => g.uuid = row.uuid || g.id = row.id || g.name = name then db.refuse
    else (.ok id, { db with groups := db.groups ++ [row] })

def insertProject (db : Database) (name : String) (parent : Option String) (revision : String)
    (sections : List StoredSection) : Outcome Unit :=
  if (db.project? name).isSome ||
      db.sections.any fun r => r.project = name && sections.any (·.name = r.name) then db.refuse
  else
    (.ok (), { db with
      projects := db.projects ++ [⟨some name, parent, revision⟩]
      sections := db.sections ++ sectionRows name sections })

def insertGrant (db : Database) (project sectionName : String) (group : GroupUuid) :
    Outcome Unit :=
  let row : GrantRow := ⟨project, sectionName, group⟩
  if row ∈ db.grants then (.ok (), db)
  else if (db.project? project).isNone then db.refuse
  else (.ok (), { db with grants := db.grants ++ [row] })

def beginMembership (db : Database) (group : GroupUuid) (account addedBy : AccountId)
    (now : Instant) : Outcome Bool :=
  if db.isMember group account then (.ok false, db)
  else if db.memberAudits.any fun r =>
      r.group = group && r.account = account.scalar && r.addedOn = now.column then db.refuse
  else
    (.ok true, { db with
      members := db.members ++ [⟨group, account.scalar⟩]
      memberAudits := db.memberAudits ++
        [⟨group, account.scalar, addedBy.scalar, now.column, none, none⟩] })

def endMembership (db : Database) (group : GroupUuid) (account removedBy : AccountId)
    (now : Instant) : Outcome Bool :=
  if db.isMember group account then
    (.ok true, { db with
      members := db.members.filter (· ≠ ⟨group, account.scalar⟩)
      memberAudits := db.memberAudits.map (MemberAuditRow.close group account removedBy now) })
  else (.ok false, db)

def beginInclusion (db : Database) (group included : GroupUuid) (addedBy : AccountId)
    (now : Instant) : Outcome Bool :=
  if db.isIncluded group included then (.ok false, db)
  else if db.includeAudits.any fun r =>
      r.group = group && r.included = included && r.addedOn = now.column then db.refuse
  else
    (.ok true, { db with
      includes := db.includes ++ [⟨group, included⟩]
      includeAudits := db.includeAudits ++
        [⟨group, included, addedBy.scalar, now.column, none, none⟩] })

def endInclusion (db : Database) (group included : GroupUuid) (removedBy : AccountId)
    (now : Instant) : Outcome Bool :=
  if db.isIncluded group included then
    (.ok true, { db with
      includes := db.includes.filter (· ≠ ⟨group, included⟩)
      includeAudits := db.includeAudits.map (IncludeAuditRow.close group included removedBy now) })
  else (.ok false, db)

def swapSections (db : Database) (s : SectionSwap) : Outcome Bool :=
  if !db.contended && (db.project? s.project).any (·.revision = s.old) then
    (.ok true, { db with
      projects := db.projects.map fun p =>
        if p.name = some s.project then { p with revision := s.new } else p
      sections := db.sections.filter (·.project ≠ s.project) ++ sectionRows s.project s.sections
      history := db.history ++ [⟨s.project, s.new, s.message, s.account.scalar, s.now.column⟩] })
  else (.ok false, db)

/-- What a statement answers and what it changes. -/
def perform {β : Type} : Statement β → Database → Outcome β
  | .insertAccount fullName email username now, db => db.insertAccount fullName email username now
  | .insertGroup uuid name description owner now, db =>
    db.insertGroup uuid name description owner now
  | .putDescription d, db =>
    (.ok (), { db with
      externals := db.externals.filter (·.uuid ≠ some d.uuid) ++ [⟨some d.uuid, d.name, d.url⟩] })
  | .insertProject name parent revision sections, db =>
    db.insertProject name parent revision sections
  | .insertGrant project sectionName group, db => db.insertGrant project sectionName group
  | .group uuid, db =>
    match db.group? uuid with
    | none => (.ok none, db)
    | some g => db.answer ((storedGroup? uuid g).map some)
  | .description uuid, db => (.ok (db.description? uuid), db)
  | .isOwner uuid account, db => (.ok (db.isOwner uuid account), db)
  | .memberAudits group, db =>
    db.answer ((db.memberAudits.filter (·.group = group)).mapM storedMemberAudit?)
  | .includeAudits group, db =>
    db.answer ((db.includeAudits.filter (·.group = group)).mapM storedIncludeAudit?)
  | .accountExists id, db => (.ok (db.accounts.any (·.id = id.toNat)), db)
  | .accounts ids, db =>
    if ids.length ≤ accountLimit then
      (.ok ((db.accounts.filterMap AccountRow.info?).filter (·.id ∈ ids)), db)
    else db.refuse
  | .knownGroups uuids, db => (.ok (uuids.filter fun u => (db.description? u).isSome), db)
  | .project name, db =>
    (.ok ((db.project? name).map fun p => ⟨p.parent, p.revision, db.storedSections name⟩), db)
  | .ownedSections project account, db => (.ok (db.ownedSections project account), db)
  | .beginMembership group account addedBy now, db => db.beginMembership group account addedBy now
  | .endMembership group account removedBy now, db => db.endMembership group account removedBy now
  | .beginInclusion group included addedBy now, db => db.beginInclusion group included addedBy now
  | .endInclusion group included removedBy now, db => db.endInclusion group included removedBy now
  | .swapSections swap, db => db.swapSections swap

end Database

/-- Run an operation of the store. -/
def StoreProgram.run {α : Type} (p : StoreProgram α) (db : Database) :
    Except Failure α × Database :=
  Program.run Database.perform p db

end AccessLedger
