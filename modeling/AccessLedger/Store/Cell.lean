import AccessLedger.Store.Database

/-!
# Cells

Tables seen from outside, as rows of cells: `Database.dump` lists all rows of
a table in the order of their cells, and `Database.insertRow` adds a row that
need not make sense to the operations of the store.  Keys stay unique, and a
column that needs a value gets one.
-/

namespace AccessLedger

/-- One value of a row: a scalar or nothing. -/
abbrev Cell := Option Scalar

namespace Cell

/-- Whether a cell does not come after another: nothing comes first. -/
def isNotAfter : Cell → Cell → Bool
  | none, _ => true
  | some _, none => false
  | some a, some b => a.isNotAfter b

/-- Whether a row does not come after another, compared from the left. -/
def rowIsNotAfter : List Cell → List Cell → Bool
  | [], _ => true
  | _ :: _, [] => false
  | a :: r, b :: q => a.isNotAfter b && (!b.isNotAfter a || rowIsNotAfter r q)

/-- The cell of a text. -/
def text (s : String) : Cell := some (.text s)

/-- The cell of a text that may be missing. -/
def ofText (s : Option String) : Cell := s.map .text

end Cell

/-- The tables of the database. -/
inductive Table where
  | accounts
  | groups
  | externals
  | members
  | memberAudits
  | includes
  | includeAudits
  | projects
  | sections
  | grants
  | history
  deriving DecidableEq, Repr

namespace Table

/-- The tables with their names. -/
def names : List (String × Table) :=
  [("accounts", accounts), ("groups", groups), ("external_groups", externals),
   ("group_members", members), ("group_members_audit", memberAudits), ("group_includes", includes),
   ("group_includes_audit", includeAudits), ("projects", projects), ("access_sections", sections),
   ("section_owners", grants), ("access_history", history)]

/-- The columns of a table. -/
def columns : Table → List String
  | accounts => ["account_id", "full_name", "email", "username", "registered_on"]
  | groups =>
    ["group_uuid", "group_id", "name", "description", "owner_group_uuid", "visible_to_all",
     "created_on"]
  | externals => ["group_uuid", "name", "url"]
  | members => ["group_uuid", "account_id"]
  | memberAudits =>
    ["group_uuid", "account_id", "added_by", "added_on", "removed_by", "removed_on"]
  | includes => ["group_uuid", "include_uuid"]
  | includeAudits =>
    ["group_uuid", "include_uuid", "added_by", "added_on", "removed_by", "removed_on"]
  | projects => ["name", "parent", "revision"]
  | sections => ["project", "position", "name", "permissions_json"]
  | grants => ["project", "section_name", "group_uuid"]
  | history => ["project", "revision", "message", "account_id", "committed_on"]

end Table

namespace Database

open Cell (text ofText)

/-- The rows of a table, in the order in which they were added. -/
def cells (db : Database) : Table → List (List Cell)
  | .accounts => db.accounts.map fun r =>
    [some (.integer r.id), ofText r.fullName, ofText r.email, ofText r.username,
     text r.registeredOn]
  | .groups => db.groups.map fun r =>
    [ofText (r.uuid.map GroupUuid.text), some r.id, text r.name, ofText r.description,
     text r.owner.text, some r.visibleToAll, text r.createdOn]
  | .externals => db.externals.map fun r =>
    [ofText (r.uuid.map GroupUuid.text), text r.name, ofText r.url]
  | .members => db.members.map fun r => [text r.group.text, some r.account]
  | .memberAudits => db.memberAudits.map fun r =>
    [text r.group.text, some r.account, some r.addedBy, text r.addedOn, r.removedBy,
     ofText r.removedOn]
  | .includes => db.includes.map fun r => [text r.group.text, text r.included.text]
  | .includeAudits => db.includeAudits.map fun r =>
    [text r.group.text, text r.included.text, some r.addedBy, text r.addedOn, r.removedBy,
     ofText r.removedOn]
  | .projects => db.projects.map fun r => [ofText r.name, ofText r.parent, text r.revision]
  | .sections => db.sections.map fun r =>
    [text r.project, some r.position, text r.name, text r.permissions]
  | .grants => db.grants.map fun r => [text r.project, text r.sectionName, text r.group.text]
  | .history => db.history.map fun r =>
    [text r.project, text r.revision, ofText r.message, some r.account, text r.committedOn]

/-- All rows of a table, sorted by their cells. -/
def dump (db : Database) (t : Table) : List (List Cell) :=
  (db.cells t).mergeSort Cell.rowIsNotAfter

/-- Add a row unless one of the old ones has its key; `none` if one does. -/
def addUnless {ρ : Type} (rows : List ρ) (row : ρ) (clashes : ρ → Bool) : Option (List ρ) :=
  if rows.any clashes then none else some (rows ++ [row])

/-- The number of a new account: the integer that is given, or the next one; else there is none. -/
def accountNumber? (db : Database) : Cell → Option Int
  | none => some (nextNumber (db.accounts.map AccountRow.id))
  | some s => match s.asInteger with
    | .integer i => some i
    | _ => none

/-- Add a row in which these columns have cells; `none` if the table cannot hold it. -/
def insertRow (db : Database) (t : Table) (row : List (String × Cell)) : Option Database := do
  let given := row.map fun (name, cell) => (String.ofList (name.toList.map Char.toLower), cell)
  if given.any fun (name, _) => !t.columns.contains name then none
  let optionalText (c : String) : Option String := (given.lookup c).join.map Scalar.asText
  let optionalUuid (c : String) : Option GroupUuid := (optionalText c).map GroupUuid.mk
  let optionalInteger (c : String) : Option Scalar := (given.lookup c).join.map Scalar.asInteger
  match t with
  | .accounts =>
    let id ← db.accountNumber? (given.lookup "account_id").join
    let row : AccountRow :=
      ⟨id, optionalText "full_name", optionalText "email", optionalText "username",
       ← optionalText "registered_on"⟩
    let accounts ← addUnless db.accounts row fun r =>
      r.id = row.id || (row.username.isSome && r.username = row.username)
    return { db with accounts }
  | .groups =>
    let visible ← match given.lookup "visible_to_all" with
      | none => some (.integer 0)
      | some cell => cell.map Scalar.asInteger
    let row : GroupRow :=
      ⟨optionalUuid "group_uuid", ← optionalInteger "group_id", ← optionalText "name",
       optionalText "description", ← optionalUuid "owner_group_uuid", visible,
       ← optionalText "created_on"⟩
    let groups ← addUnless db.groups row fun r =>
      (row.uuid.isSome && r.uuid = row.uuid) || r.id.isSame row.id || r.name = row.name
    return { db with groups }
  | .externals =>
    let row : ExternalRow := ⟨optionalUuid "group_uuid", ← optionalText "name", optionalText "url"⟩
    let externals ← addUnless db.externals row fun r => row.uuid.isSome && r.uuid = row.uuid
    return { db with externals }
  | .members =>
    let row : MemberRow := ⟨← optionalUuid "group_uuid", ← optionalInteger "account_id"⟩
    let members ← addUnless db.members row fun r =>
      r.group = row.group && r.account.isSame row.account
    return { db with members }
  | .memberAudits =>
    let row : MemberAuditRow :=
      ⟨← optionalUuid "group_uuid", ← optionalInteger "account_id", ← optionalInteger "added_by",
       ← optionalText "added_on", optionalInteger "removed_by", optionalText "removed_on"⟩
    let memberAudits ← addUnless db.memberAudits row fun r =>
      r.group = row.group && r.account.isSame row.account && r.addedOn = row.addedOn
    return { db with memberAudits }
  | .includes =>
    let row : IncludeRow := ⟨← optionalUuid "group_uuid", ← optionalUuid "include_uuid"⟩
    let includes ← addUnless db.includes row fun r => r = row
    return { db with includes }
  | .includeAudits =>
    let row : IncludeAuditRow :=
      ⟨← optionalUuid "group_uuid", ← optionalUuid "include_uuid", ← optionalInteger "added_by",
       ← optionalText "added_on", optionalInteger "removed_by", optionalText "removed_on"⟩
    let includeAudits ← addUnless db.includeAudits row fun r =>
      r.group = row.group && r.included = row.included && r.addedOn = row.addedOn
    return { db with includeAudits }
  | .projects =>
    let row : ProjectRow :=
      ⟨optionalText "name", optionalText "parent", ← optionalText "revision"⟩
    let projects ← addUnless db.projects row fun r => row.name.isSome && r.name = row.name
    return { db with projects }
  | .sections =>
    let row : SectionRow :=
      ⟨← optionalText "project", ← optionalInteger "position", ← optionalText "name",
       ← optionalText "permissions_json"⟩
    let sections ← addUnless db.sections row fun r => r.project = row.project && r.name = row.name
    return { db with sections }
  | .grants =>
    let row : GrantRow :=
      ⟨← optionalText "project", ← optionalText "section_name", ← optionalUuid "group_uuid"⟩
    let grants ← addUnless db.grants row fun r => r = row
    return { db with grants }
  | .history =>
    let row : HistoryRow :=
      ⟨← optionalText "project", ← optionalText "revision", optionalText "message",
       ← optionalInteger "account_id", ← optionalText "committed_on"⟩
    return { db with history := db.history ++ [row] }

end Database

end AccessLedger
