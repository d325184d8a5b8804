import AccessLedger.Access.Section

/-!
# Access configurations

The access configuration of a project as one user sees it: its sections, the
revision that names this state of them, and the sections that the user owns.
-/

namespace AccessLedger

/-- The access configuration of a project, as one user sees it. -/
structure AccessConfig where
  project : String
  revision : String
  inheritsFrom : Option String
  sections : List AccessSection
  /-- The names of the sections that the user owns. -/
  ownerOf : NameSet
  deriving DecidableEq

namespace AccessConfig

def fields : Fields (String × String × Option String × List AccessSection × NameSet × Unit) :=
  .cons (.required "project" .string) <|
  .cons (.required "revision" .string) <|
  .cons (.optional "inherits_from" .string) <|
  .cons (.required "sections" AccessSection.codec.list) <|
  .cons (.withDefault "owner_of" .nameSet .empty) .nil

def codec : Codec AccessConfig :=
  fields.record.imap
    (fun (project, revision, parent, sections, owned, _) =>
      ⟨project, revision, parent, sections, owned⟩)
    fun c => (c.project, c.revision, c.inheritsFrom, c.sections, c.ownerOf, ())

/-- The first section with this name. -/
def section? (c : AccessConfig) (name : String) : Option AccessSection :=
  c.sections.find? (·.name = name)

/-- Whether the user may change anything. -/
def ownsAny (c : AccessConfig) : Bool := !c.ownerOf.isEmpty

end AccessConfig

/-- Whether an owner of these sections may change the section `name`. -/
def NameSet.coversSection (owned : NameSet) (name : String) : Bool :=
  name ∈ owned || allRefs ∈ owned

/-- Whether the user may change the section `name`. -/
def AccessConfig.canChange (c : AccessConfig) (name : String) : Bool := c.ownerOf.coversSection name

end AccessLedger
