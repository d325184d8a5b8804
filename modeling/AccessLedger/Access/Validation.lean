import AccessLedger.Access.Section
import AccessLedger.Text.Blank
import AccessLedger.Text.Quoted

/-!
# Valid section lists

The name of a section is that of the global capabilities or starts with
`refs/`, has no blanks at its ends, and occurs once.  `validateSections` goes
through a list and reports the first section that breaks a rule.
-/

namespace AccessLedger

/-- The rule that the name of a section breaks. -/
inductive SectionFault where
  | emptyName
  | surroundingBlanks (name : String)
  | wrongStart (name : String)
  | duplicate (name : String)
  deriving DecidableEq, Repr

/-- The text of a fault. -/
def SectionFault.message : SectionFault → String
  | emptyName => "section name must not be empty"
  | surroundingBlanks name => "section " ++ Text.quote name ++ " has surrounding whitespace"
  | wrongStart name => "section " ++ Text.quote name ++ " must start with \"refs/\""
  | duplicate name => "duplicate section " ++ Text.quote name

/-- Whether a name, free of blanks at its ends, may stand for a section. -/
def isSectionName (name : String) : Bool :=
  name = globalCapabilities || "refs/".toList.isPrefixOf name.toList

/-- The rule that a name breaks when the names `seen` came before it. -/
def sectionFault? (seen : List String) (name : String) : Option SectionFault :=
  if Text.allBlank name.toList then some .emptyName
  else if Text.trim name.toList ≠ name.toList then some (.surroundingBlanks name)
  else if !isSectionName name then some (.wrongStart name)
  else if name ∈ seen then some (.duplicate name)
  else none

/-- The first fault of a list of sections that follows sections with the names `seen`. -/
def firstFault? (seen : List String) : List AccessSection → Option SectionFault
  | [] => none
  | s :: r => match sectionFault? seen s.name with
    | some fault => some fault
    | none => firstFault? (s.name :: seen) r

/-- Refuse a list of sections with a fault. -/
def validateSections (sections : List AccessSection) : Except SectionFault Unit :=
  match firstFault? [] sections with
  | some fault => .error fault
  | none => .ok ()

end AccessLedger
