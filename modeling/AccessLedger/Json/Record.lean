import AccessLedger.Json.Codec

/-!
# Records

`Fields` lists the fields of a record in order; `Fields.record` is the codec
of the tuple of their values.  A record is written as an object.  It is read
from an object, where members of other names are passed over and no field may
be given twice, or from an array of its fields in order.  What holds for a
field that is not given is part of the field.
-/

namespace AccessLedger

/-- What holds for a field that is not given. -/
inductive Absent (α : Type) where
  /-- The record is refused. -/
  | refused
  /-- An object without it has this value; an array must have it. -/
  | fromObject (a : α)
  /-- It has this value. -/
  | anywhere (a : α)

/-- One field of a record. -/
structure Field (α : Type) where
  name : String
  codec : Codec α
  absent : Absent α := .refused
  /-- The values for which the field is left out when the record is written. -/
  hidden : α → Bool := fun _ => false

namespace Field

/-- A field that may be missing and is left out where it is. -/
def optional {α : Type} (name : String) (c : Codec α) : Field (Option α) where
  name
  codec := c.option
  absent := .anywhere none
  hidden := Option.isNone

/-- A field that must be given. -/
def required {α : Type} (name : String) (c : Codec α) : Field α where
  name
  codec := c

/-- A field that an array must give but an object may leave out, and that is always written. -/
def nullable {α : Type} (name : String) (c : Codec α) : Field (Option α) where
  name
  codec := c.option
  absent := .fromObject none

/-- A field with a default value, always written. -/
def withDefault {α : Type} (name : String) (c : Codec α) (value : α) : Field α where
  name
  codec := c
  absent := .anywhere value

end Field

/-- The fields of a record whose values make up the tuple type. -/
inductive Fields : Type → Type 1 where
  | nil : Fields Unit
  | cons {α β : Type} (field : Field α) (rest : Fields β) : Fields (α × β)

namespace Fields

/-- For each field its value, if it has been given so far. -/
@[reducible] def Given : {τ : Type} → Fields τ → Type
  | _, .nil => Unit
  | _, @cons α _ _ rest => Option α × rest.Given

/-- No field has been given. -/
def noneGiven : {τ : Type} → (fs : Fields τ) → fs.Given
  | _, .nil => ()
  | _, .cons _ rest => (none, rest.noneGiven)

/-- Take in one member of an object; `none` if no field has its name. -/
def place : {τ : Type} → (fs : Fields τ) → fs.Given → String → Json →
    Except Fault (Option fs.Given)
  | _, .nil, _, _, _ => .ok none
  | _, .cons field rest, given, name, j =>
    if field.name = name then
      match given.1 with
      | some _ => .error .mismatch
      | none => (field.codec.decode j).map fun a => some (some a, given.2)
    else (rest.place given.2 name j).map (·.map fun values => (given.1, values))

/-- Take in the members of an object, in order. -/
def placeAll {τ : Type} (fs : Fields τ) : fs.Given → List (Option String × Json) →
    Except Fault fs.Given
  | given, [] => .ok given
  | _, (none, _) :: _ => .error .malformed
  | given, (some name, j) :: r =>
    match fs.place given name j with
    | .ok (some given) => fs.placeAll given r
    | .ok none => if j.skippable then fs.placeAll given r else .error .malformed
    | .error e => .error e

/-- The record, once all of an object has been taken in. -/
def complete : {τ : Type} → (fs : Fields τ) → fs.Given → Except Fault τ
  | _, .nil, _ => .ok ()
  | _, .cons field rest, given =>
    match given.1, field.absent with
    | some a, _ => (rest.complete given.2).map (a, ·)
    | none, .fromObject a => (rest.complete given.2).map (a, ·)
    | none, .anywhere a => (rest.complete given.2).map (a, ·)
    | none, .refused => .error .mismatch

/-- The record whose fields are the items of an array. -/
def ofItems : {τ : Type} → Fields τ → List Json → Except Fault τ
  | _, .nil, [] => .ok ()
  | _, .nil, _ :: _ => .error .malformed
  | _, .cons field rest, [] =>
    match field.absent with
    | .anywhere a => (rest.ofItems []).map (a, ·)
    | _ => .error .mismatch
  | _, .cons field rest, j :: js =>
    match field.codec.decode j with
    | .ok a => (rest.ofItems js).map (a, ·)
    | .error e => .error e

/-- The members that a record is written with. -/
def members : {τ : Type} → Fields τ → τ → List (String × Json)
  | _, .nil, _ => []
  | _, .cons field rest, (a, r) =>
    if field.hidden a then rest.members r
    else (field.name, field.codec.encode a) :: rest.members r

/-- The codec of a record. -/
def record {τ : Type} (fs : Fields τ) : Codec τ where
  encode r := Json.ofMembers (fs.members r)
  decode
    | .object ms => match fs.placeAll fs.noneGiven ms with
      | .ok given => fs.complete given
      | .error e => .error e
    | .array items => fs.ofItems items
    | j => .error (Codec.refusal j)

end Fields

end AccessLedger
