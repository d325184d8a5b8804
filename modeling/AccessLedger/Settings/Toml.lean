import AccessLedger.Number.Decimal
import AccessLedger.Settings.Moment

/-!
# TOML documents

The values of TOML 1.0 and the rules by which the statements of a document,
read from top to bottom, make up its tables (`Toml.apply`).  A table is
remembered together with how it came to be, since a table may be opened by a
header only once, and may not be extended in two ways.
-/

namespace AccessLedger

/-- A number with a point, an exponent or no finite value. -/
inductive TomlFloat where
  | number (d : Double)
  | nan
  deriving DecidableEq, Repr

/-- The text of a number. -/
def TomlFloat.text : TomlFloat → List Char
  | number d => d.text
  | nan => "NaN".toList

/-- How a table came to be. -/
inductive TableForm where
  /-- Under a header of its own; also the document itself. -/
  | header
  /-- On the way to another table that has a header. -/
  | implied
  /-- On the way to a dotted key. -/
  | dotted
  /-- Written as a value. -/
  | inline
  deriving DecidableEq, Repr

/-- A value of a TOML document. -/
inductive Toml where
  | text (s : String)
  | moment (m : Toml.Moment)
  | integer (i : Int)
  | float (f : TomlFloat)
  | boolean (b : Bool)
  | array (items : List Toml)
  | table (form : TableForm) (entries : List (String × Toml))
  /-- The tables of a header in double brackets. -/
  | tables (items : List Toml)

namespace Toml

/-- The named values of a table. -/
abbrev Entries := List (String × Toml)

/-- The first value with a name. -/
def find? (entries : Entries) (key : String) : Option Toml := entries.lookup key

/-- Put a value in the place of the one with its name, or at the end. -/
def replace {α : Type} (key : String) (value : α) : List (String × α) → List (String × α)
  | [] => [(key, value)]
  | (k, v) :: r => if k = key then (k, value) :: r else (k, v) :: replace key value r

/-- Change the last element of a list. -/
def changeLast {α : Type} (f : α → Option α) : List α → Option (List α)
  | [] => none
  | [a] => (f a).map ([·])
  | a :: b :: r => (changeLast f (b :: r)).map (a :: ·)

/-- Whether a step may be taken into a table, by a dotted key or by a header. -/
def mayEnter (byKey : Bool) (form : TableForm) : Bool :=
  match form with
  | .header => !byKey
  | .implied | .dotted => true
  | .inline => false

/--
Change the table at a path.  Tables that are missing on the way are made; of
several tables under one header the last is taken.
-/
def changeAt (byKey : Bool) (change : TableForm → Entries → Option Toml) :
    List String → Toml → Option Toml
  | [], .table form entries => change form entries
  | key :: path, .table form entries => do
    let inner ← match find? entries key with
      | none => changeAt byKey change path (.table (if byKey then .dotted else .implied) [])
      | some (.table innerForm innerEntries) =>
        if mayEnter byKey innerForm then
          changeAt byKey change path (.table innerForm innerEntries)
        else none
      | some (.tables items) => (changeLast (changeAt byKey change path) items).map .tables
      | some _ => none
    return .table form (replace key inner entries)
  | _, _ => none

/-- Add a value to a table that does not have its name. -/
def addEntry (key : String) (value : Toml) (viaDots : Bool) (form : TableForm)
    (entries : Entries) : Option Toml :=
  if viaDots == decide (form = .dotted) && (find? entries key).isNone then
    some (.table form (replace key value entries))
  else none

/-- Add the value of a key, dotted or not, to a table. -/
def addAt (path : List String) (key : String) (value : Toml) (form : TableForm)
    (entries : Entries) : Option Toml :=
  changeAt true (addEntry key value !path.isEmpty) path (.table form entries)

/-- Open a table by its header; its name comes last then, also if the table was implied before. -/
def openTable (key : String) (form : TableForm) (entries : Entries) : Option Toml :=
  match find? entries key with
  | none => some (.table form (replace key (.table .header []) entries))
  | some (.table .implied inner) =>
    some (.table form (entries.filter (·.1 ≠ key) ++ [(key, .table .header inner)]))
  | some _ => none

/-- Open one more table under a header in double brackets. -/
def openTables (key : String) (form : TableForm) (entries : Entries) : Option Toml :=
  match find? entries key with
  | none => some (.table form (replace key (.tables [.table .header []]) entries))
  | some (.tables items) =>
    some (.table form (replace key (.tables (items ++ [.table .header []])) entries))
  | some _ => none

end Toml

/-- A statement of a document; a path is the part of a name before its last key. -/
inductive TomlStatement where
  | header (path : List String) (key : String)
  | arrayHeader (path : List String) (key : String)
  | entry (path : List String) (key : String) (value : Toml)

namespace Toml

/-- A document so far: its tables, and the path of the one that entries go to. -/
structure Document where
  root : Toml
  current : List String

/-- The document without statements. -/
def Document.empty : Document := ⟨.table .header [], []⟩

/-- A document with one more statement. -/
def Document.apply (d : Document) : TomlStatement → Option Document
  | .header path key => do
    return ⟨← changeAt false (openTable key) path d.root, path ++ [key]⟩
  | .arrayHeader path key => do
    return ⟨← changeAt false (openTables key) path d.root, path ++ [key]⟩
  | .entry path key value => do
    return { d with root := ← changeAt false (addAt path key value) d.current d.root }

/-- The values of a table; nothing for another value. -/
def entries : Toml → Entries
  | .table _ entries => entries
  | _ => []

end Toml

end AccessLedger
