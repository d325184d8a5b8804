import AccessLedger.Json.Reader
import AccessLedger.Json.Writer
import AccessLedger.NameSet

/-!
# Codecs

A `Codec` says how values of a type are written as JSON trees and which trees
are taken as such values.  A tree is refused for one of two reasons: the text
behind it is no JSON where the codec looks (`Fault.malformed`), or it is JSON
of another shape (`Fault.mismatch`).  Codecs look at a tree in the order of
its text, so the first fault in the text decides.
-/

namespace AccessLedger

/-- Why a JSON text is not taken as a value. -/
inductive Fault where
  /-- The text is not JSON. -/
  | malformed
  /-- The text is JSON, but not of the right shape. -/
  | mismatch
  deriving DecidableEq, Repr

/-- How the values of a type are written as JSON and read from it. -/
structure Codec (α : Type) where
  encode : α → Json
  decode : Json → Except Fault α

/-- The integers of at most 32 bits without sign. -/
def uint32? (i : Int) : Option UInt32 :=
  if 0 ≤ i ∧ i < 4294967296 then some (UInt32.ofNat i.toNat) else none

/-- The integers of at most 32 bits with sign. -/
def int32? (i : Int) : Option Int32 :=
  if -2147483648 ≤ i ∧ i < 2147483648 then some (Int32.ofInt i) else none

@[simp]
theorem uint32?_toNat (n : UInt32) : uint32? n.toNat = some n := by
  have h := n.toNat_lt
  rw [uint32?, if_pos ⟨by omega, by omega⟩]
  simp

@[simp]
theorem int32?_toInt (n : Int32) : int32? n.toInt = some n := by
  have h := n.le_toInt
  have h' := n.toInt_lt
  rw [int32?, if_pos ⟨h, h'⟩]
  simp

namespace Codec

/-- Why a tree of the wrong kind is refused. -/
def refusal (j : Json) : Fault :=
  match j with
  | .broken => .malformed
  | .misnamed _ => .malformed
  | .string none => .malformed
  | j => if j.isHuge then .malformed else .mismatch

variable {α β : Type}

/-- A text. -/
def string : Codec String where
  encode := .text
  decode
    | .text s => .ok s
    | j => .error (refusal j)

/-- A truth value. -/
def bool : Codec Bool where
  encode := .bool
  decode
    | .bool b => .ok b
    | j => .error (refusal j)

/-- An integer of at most 32 bits without sign. -/
def uint32 : Codec UInt32 where
  encode n := .integer n.toNat
  decode
    | .integer i => match uint32? i with
      | some n => .ok n
      | none => .error (refusal (.integer i))
    | j => .error (refusal j)

/-- An integer of at most 32 bits with sign. -/
def int32 : Codec Int32 where
  encode n := .integer n.toInt
  decode
    | .integer i => match int32? i with
      | some n => .ok n
      | none => .error (refusal (.integer i))
    | j => .error (refusal j)

/-- A value that may be missing, written as `null`. -/
def option (c : Codec α) : Codec (Option α) where
  encode
    | none => .null
    | some a => c.encode a
  decode
    | .null => .ok none
    | j => (c.decode j).map some

/-- A list, written as an array. -/
def list (c : Codec α) : Codec (List α) where
  encode as := .array (as.map c.encode)
  decode
    | .array items => items.mapM c.decode
    | j => .error (refusal j)

/-- The same values seen as another type. -/
def imap (c : Codec α) (into : α → β) (out : β → α) : Codec β where
  encode b := c.encode (out b)
  decode j := (c.decode j).map into

/-- A set of names, written as the array of its names in order. -/
def nameSet : Codec NameSet := (list string).imap NameSet.ofList NameSet.names

/-- A value written as a text in a form of its own. -/
def spelled (write : α → String) (read : String → Option α) : Codec α where
  encode a := .text (write a)
  decode
    | .text s => match read s with
      | some a => .ok a
      | none => .error .mismatch
    | j => .error (refusal j)

/--
One of finitely many words.  A word may also be written as an object whose
only member has that name and the value `null`.
-/
def word [DecidableEq α] (words : List (α × String)) : Codec α where
  encode a := match words.find? (·.1 = a) with
    | some (_, w) => .text w
    | none => .null
  decode
    | .text s => named s
    | .object ((some k, v) :: more) => do
      let a ← named k
      match v, more with
      | .null, [] => .ok a
      | .null, _ => .error .malformed
      | v, _ => .error (refusal v)
    | .object ((none, .misnamed name) :: _) => .error (refusal name)
    | _ => .error .malformed
where
  /-- The value with this word. -/
  named (s : String) : Except Fault α :=
    match words.find? (·.2 = s) with
    | some (a, _) => .ok a
    | none => .error .mismatch

/--
A value of the first type if it can be read as one, else of the second.  All
of the tree is taken in first, nested at most `depth` deep.
-/
def either (depth : Nat) (c : Codec α) (d : Codec β) : Codec (α ⊕ β) where
  encode
    | .inl a => c.encode a
    | .inr b => d.encode b
  decode j :=
    if j.isSound depth then
      match c.decode j with
      | .ok a => .ok (.inl a)
      | .error _ => match d.decode j with
        | .ok b => .ok (.inr b)
        | .error _ => .error .mismatch
    else .error .malformed

/-- The compact text of a value. -/
def write (c : Codec α) (a : α) : String := (c.encode a).compact

/-- The value that a whole text says. -/
def read (c : Codec α) (s : String) : Except Fault α := do
  let (j, rest) := Json.readFront s.toList
  let a ← c.decode j
  if Json.endsText rest then .ok a else .error .malformed

end Codec

end AccessLedger
