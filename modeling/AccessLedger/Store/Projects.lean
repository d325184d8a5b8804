import AccessLedger.Access.Merge
import AccessLedger.Access.Validation
import AccessLedger.Store.Revision

/-!
# Projects in the store

The sections of a project are stored together with their revision.  A commit
names the revision that it was based on and is refused if another one is
stored, when it is read and again when the new sections are written.
-/

namespace AccessLedger

/-- What a commit asks to store. -/
structure AccessUpdate where
  /-- The revision that the sections were based on. -/
  revision : String
  message : Option String
  sections : List AccessSection
  deriving DecidableEq

/-- A project with its sections. -/
structure Project where
  parent : Option String
  revision : String
  sections : List AccessSection
  deriving DecidableEq

/-- The project that is stored so. -/
def StoredProject.decode (p : StoredProject) : Except Failure Project := do
  return ⟨p.parent, p.revision, ← p.sections.mapM AccessSection.ofStored⟩

/-- Valid sections; others are refused. -/
def requireValid (sections : List AccessSection) : Except Failure Unit :=
  match validateSections sections with
  | .ok () => .ok ()
  | .error fault => .error (.validation fault.message)

namespace Store

/-- Add a project with its first sections; the answer is its revision. -/
def createProject (name : String) (parent : Option String) (sections : List AccessSection) :
    StoreProgram String := do
  Program.ofExcept (requireValid sections)
  let revision := revisionOf sections
  let _ ← Program.query
    (Statement.insertProject name parent revision (sections.map AccessSection.toStored))
  return revision

/-- Let the members of a group change a section of a project. -/
def grantSection (project sectionName : String) (group : GroupUuid) : StoreProgram Unit :=
  Program.query (Statement.insertGrant project sectionName group)

/-- The project with this name. -/
def project (name : String) : StoreProgram (Option Project) := do
  match ← Program.query (Statement.project name) with
  | none => return none
  | some p => return some (← Program.ofExcept p.decode)

/-- The names of the sections of a project that an account owns. -/
def ownedSections (name : String) (account : AccountId) : StoreProgram NameSet :=
  Program.query (Statement.ownedSections name account)

/-- The access configuration of a project, as an account sees it. -/
def access (name : String) (account : AccountId) : StoreProgram (Option AccessConfig) := do
  match ← project name with
  | none => return none
  | some p =>
    let owned ← ownedSections name account
    return some ⟨name, p.revision, p.parent, p.sections, owned⟩

/-- The identifiers of the groups that some sections refer to, each once. -/
def referencedGroups (sections : List AccessSection) : List GroupUuid :=
  (NameSet.ofList (sections.flatMap fun s => s.referencedGroups.map GroupUuid.text)).names.map
    GroupUuid.mk

/--
Store sections on behalf of an account.  The answer has the sections that are
stored then, which may differ from the requested ones: see `mergeSections`.
Nothing is written if they are what is stored already.
-/
def applyAccess (name : String) (account : AccountId) (update : AccessUpdate) (now : Instant) :
    StoreProgram AccessConfig := do
  match ← project name with
  | none => .fail (.projectNotFound name)
  | some stored =>
    if stored.revision ≠ update.revision then
      .fail (.staleRevision stored.revision update.revision)
    else
      Program.ofExcept (requireValid update.sections)
      let owned ← ownedSections name account
      if owned.isEmpty then
        .fail .notOwner
      else
        let known ← Program.query (Statement.knownGroups (referencedGroups update.sections))
        let merged := mergeSections owned.coversSection (fun u => u ∈ known)
          stored.sections update.sections
        let revision := revisionOf merged
        let result : AccessConfig := ⟨name, revision, stored.parent, merged, owned⟩
        if revision = stored.revision then
          return result
        else if ← Program.query (Statement.swapSections
            ⟨name, stored.revision, revision, merged.map AccessSection.toStored, update.message,
             account, now⟩) then
          return result
        else
          -- another writer was first
          let current := match ← project name with
            | some p => p.revision
            | none => ""
          .fail (.staleRevision current update.revision)

end Store

end AccessLedger
