import AccessLedger.Settings.TomlReader

/-!
# Settings

A setting is a value, a list of settings or a table of them.  `Setting.ofToml?`
takes the settings out of a document, where a date is a text.  `Setting.setAt?`
puts a setting at a path and makes what is missing on the way; the names of
tables that are set this way are in small letters.
-/

namespace AccessLedger.Settings

/-- A setting, or a place in a list where none has been set. -/
inductive Setting where
  | missing
  | text (s : String)
  | integer (i : Int)
  | float (f : TomlFloat)
  | boolean (b : Bool)
  | list (items : List Setting)
  | table (entries : List (String × Setting))

/-- The name that marks a table as the moment which its value names. -/
def momentMark : String := "$__toml_private_datetime"

namespace Setting

/-- The settings of a table by their names. -/
abbrev Entries := List (String × Setting)

/-- The entries of a table; nothing for other settings. -/
def entries : Setting → Entries
  | table entries => entries
  | _ => []

/-- The items of a list; nothing for other settings. -/
def items : Setting → List Setting
  | list items => items
  | _ => []

/-! ## Settings of a document -/

mutual

/-- The setting that a value of a document stands for. -/
def ofToml? : Toml → Option Setting
  | .text s => some (text s)
  | .moment m => some (text (String.ofList m.text))
  | .integer i => some (integer i)
  | .float f => some (float f)
  | .boolean b => some (boolean b)
  | .array items => (ofItems? items).map list
  | .tables items => (ofItems? items).map list
  | .table _ entries => ofEntries? entries

/-- `ofToml?` of each item. -/
def ofItems? : List Toml → Option (List Setting)
  | [] => some []
  | v :: r => do return (← ofToml? v) :: (← ofItems? r)

/-- The setting that a table stands for: a moment if its first name marks one. -/
def ofEntries? : List (String × Toml) → Option Setting
  | [] => some (table [])
  | (key, v) :: r =>
    if key = momentMark then
      match v with
      | .text s => (Toml.moment? s.toList).map fun m => text (String.ofList m.text)
      | _ => none
    else do return table ((key, ← ofToml? v) :: (← ofMembers? r))

/-- `ofToml?` of each named value. -/
def ofMembers? : List (String × Toml) → Option Entries
  | [] => some []
  | (key, v) :: r => do return (key, ← ofToml? v) :: (← ofMembers? r)

end

/-! ## Setting something -/

/-- An ASCII letter as a small letter; the Kelvin sign is a `k` too. -/
def smallLetter (c : Char) : Char := if c = '\u212a' then 'k' else c.toLower

/-- A name in small letters. -/
def smallName (name : String) : String := String.ofList (name.toList.map smallLetter)

mutual

/-- What a new setting makes of an old one: tables are merged, others take the old one's place. -/
def mergeInto : Setting → Option Setting → Setting
  | table new, old => addEntries new (old.getD (table []))
  | new, _ => new

/-- Set each entry in a table; what is no table becomes one. -/
def addEntries : Entries → Setting → Setting
  | [], s => s
  | (key, new) :: r, s =>
    let name := smallName key
    addEntries r (table (Toml.replace name (mergeInto new (s.entries.lookup name)) s.entries))

end

/-- One step on the way to a setting. -/
inductive Step where
  /-- To an entry of a table. -/
  | key (name : String)
  /-- To an item of a list; negative numbers count from its end. -/
  | index (i : Int)
  deriving DecidableEq, Repr

/-- The position in a list of some length that an index means. -/
def position? (index : Int) (length : Nat) : Option Nat :=
  if 0 ≤ index then some index.toNat
  else if index.natAbs ≤ length then some (length - index.natAbs)
  else none

/--
Put a setting at the end of a path.  On the way, what is no table or list is
replaced by one, and a list is filled up; there is no way to before the start
of a list.
-/
def setAt? (new : Setting) : List Step → Setting → Option Setting
  | [], _ => some new
  | .key key :: steps, s => do
    let name := smallName key
    let old := s.entries.lookup name
    let value ←
      if steps.isEmpty then some (new.mergeInto old) else setAt? new steps (old.getD missing)
    return table (Toml.replace name value s.entries)
  | .index index :: steps, s => do
    let i ← position? index s.items.length
    let items := s.items ++ List.replicate (i + 1 - s.items.length) missing
    return list (items.set i (← setAt? new steps (items.getD i missing)))

/-! ## Paths -/

/-- The characters of the names in a path. -/
def isNameChar (c : Char) : Bool := c.isAlphanum || c == '_' || c == '-' || c == ' '

/-- The integers of 64 bits. -/
def isWord (i : Int) : Bool := -9223372036854775808 ≤ i && i < 9223372036854775808

/-- An index without its brackets, with blanks around it. -/
def readIndex? (cs : List Char) : Option (Int × List Char) := do
  let r := Toml.skipBlanks cs
  let (negative, r) := match r with
    | '-' :: r => (true, r)
    | r => (false, r)
  match r.takeWhile Char.isDigit with
  | [] => none
  | ds =>
    let n := Text.ofDigits ds
    let i : Int := if negative then -n else n
    if isWord i then some (i, Toml.skipBlanks (r.dropWhile Char.isDigit)) else none

/-- A name and the text after it. -/
def readName? (cs : List Char) : Option (String × List Char) :=
  match cs.takeWhile isNameChar with
  | [] => none
  | name => some (String.ofList name, cs.dropWhile isNameChar)

/-- The steps that are written in a text: names after points, indices in brackets. -/
def readSteps? : Nat → List Char → Option (List Step)
  | _, [] => some []
  | 0, _ => none
  | n + 1, '.' :: r => do
    let (name, r) ← readName? r
    return Step.key name :: (← readSteps? n r)
  | n + 1, '[' :: r => do
    let (i, r) ← readIndex? r
    match r with
    | ']' :: r => return Step.index i :: (← readSteps? n r)
    | _ => none
  | _, _ => none

/-- The steps to the setting that a name stands for; a name that is no path stands for itself. -/
def stepsOf (name : String) : List Step :=
  let path : Option (List Step) := do
    let (root, r) ← readName? name.toList
    return Step.key root :: (← readSteps? r.length r)
  path.getD [.key name]

/-- Set each entry, whose name may be a path, in a table. -/
def setAll? (new : Entries) (s : Setting) : Option Setting :=
  new.foldlM (fun s (name, value) => value.setAt? (stepsOf name) s) s

end Setting

end AccessLedger.Settings
