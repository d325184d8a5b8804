import AccessLedger.Json.Number

/-!
# JSON trees

A tree holds what a JSON text says, as far as the text can be read.  Numbers
are kept as integers where they are written as integers; a string or member
name whose escapes leave half of a surrogate pair alone is no text and is kept
as `none`; where the text stops being JSON at all there is a `broken` leaf,
and nothing of the text after it is in the tree.  Where it stops because a
member has another value for a name, the leaf holds that value (`misnamed`).

A reader of values asks two things of a tree it is not going to look into:
`skippable` when it passes over it, `isSound` when it wants all of it.
-/

namespace AccessLedger

/-- What a JSON text says, as far as it can be read. -/
inductive Json where
  | null
  | bool (b : Bool)
  /-- A number written without fraction and exponent. -/
  | integer (i : Int)
  /-- Any other number, as written; the minus zero is one of them. -/
  | fraction (text : List Char)
  | string (s : Option String)
  | array (items : List Json)
  | object (members : List (Option String × Json))
  /-- Here the text stops being JSON. -/
  | broken
  /-- Here it stops being JSON, since a value that is no string stands for the name of a member. -/
  | misnamed (name : Json)

namespace Json

/-- A string that is a text. -/
@[match_pattern] def text (s : String) : Json := .string (some s)

/-- An object with these members, in this order. -/
def ofMembers (ms : List (String × Json)) : Json := .object (ms.map fun (k, v) => (some k, v))

/-- The double that a number is read as; `none` if it is too large, and for other leaves. -/
def double? : Json → Option Double
  | .integer i =>
    (Numeral.double? ⟨Text.digits i.natAbs, [], 0⟩).map (.finite (i < 0))
  | .fraction t => (Numeral.ofText t).double?.map (.finite (t.head? = some '-'))
  | _ => none

/-- Whether a leaf is a number that is too large for a double. -/
def isHuge : Json → Bool
  | .integer i => wordBound ≤ i.natAbs && (double? (.integer i)).isNone
  | .fraction t => (double? (.fraction t)).isNone
  | _ => false

mutual

/-- Whether the text of a tree is well formed, so that it can be passed over. -/
def skippable : Json → Bool
  | .array items => skippableItems items
  | .object members => skippableMembers members
  | .broken => false
  | .misnamed _ => false
  | _ => true

/-- `skippable` of each item. -/
def skippableItems : List Json → Bool
  | [] => true
  | j :: r => j.skippable && skippableItems r

/-- `skippable` of each member. -/
def skippableMembers : List (Option String × Json) → Bool
  | [] => true
  | (_, j) :: r => j.skippable && skippableMembers r

end

mutual

/--
Whether every string, name and number of a tree can be taken as a value, with
arrays and objects nested at most `depth` deep.
-/
def isSound (depth : Nat) : Json → Bool
  | .array items => match depth with
    | 0 => false
    | d + 1 => soundItems d items
  | .object members => match depth with
    | 0 => false
    | d + 1 => soundMembers d members
  | .string s => s.isSome
  | .integer i => !isHuge (.integer i)
  | .fraction t => !isHuge (.fraction t)
  | .broken => false
  | .misnamed _ => false
  | .null => true
  | .bool _ => true

/-- `isSound` of each item. -/
def soundItems (depth : Nat) : List Json → Bool
  | [] => true
  | j :: r => j.isSound depth && soundItems depth r

/-- `isSound` of each member and its name. -/
def soundMembers (depth : Nat) : List (Option String × Json) → Bool
  | [] => true
  | (k, j) :: r => k.isSome && j.isSound depth && soundMembers depth r

end

end Json

end AccessLedger
