import AccessLedger.Access.Section
import AccessLedger.Digest.Sha256
import AccessLedger.Store.Statement

/-!
# Revisions and section columns

The revision of a list of sections is the digest of its compact JSON text.  A
stored section has the compact JSON text of its permissions in a column.
-/

namespace AccessLedger

/-- The text that the revision of a list of sections is the digest of. -/
def sectionsText (sections : List AccessSection) : String := AccessSection.codec.list.write sections

/-- The digest of a text, in hexadecimal digits. -/
def textDigest (s : String) : String :=
  String.ofList (Sha256.hex (Sha256.digest (Text.bytes s)))

/-- The name of a state of a list of sections. -/
def revisionOf (sections : List AccessSection) : String := textDigest (sectionsText sections)

namespace AccessSection

/-- A section as it is stored. -/
def toStored (s : AccessSection) : StoredSection :=
  ⟨s.name, Permission.codec.list.write s.permissions⟩

/-- The section that is stored so. -/
def ofStored (s : StoredSection) : Except Failure AccessSection :=
  match Permission.codec.list.read s.permissions with
  | .ok permissions => .ok ⟨s.name, permissions⟩
  | .error _ => .error (.store .json)

end AccessSection

end AccessLedger
