import AccessLedger.Calendar.Timestamp

/-!
# Moments in TOML

A moment is a date, a time of day or both, and with a time of a date there may
be an offset from universal time.  `Moment.text` writes a moment in its usual
form, and `moment?` reads one.
-/

namespace AccessLedger.Toml

/-- How far clocks are ahead of universal time. -/
inductive Offset where
  /-- Written `Z`. -/
  | universal
  | minutes (m : Int)
  deriving DecidableEq, Repr

structure TimeOfDay where
  hour : Nat
  minute : Nat
  second : Nat
  /-- The digits after the point, without zeros at the end. -/
  fraction : List Char
  deriving DecidableEq, Repr

structure Moment where
  date : Option Date
  time : Option TimeOfDay
  offset : Option Offset
  deriving DecidableEq, Repr

/-! ## Writing -/

/-- The text of an offset; one of no minutes has a plus sign. -/
def Offset.text : Offset → List Char
  | universal => ['Z']
  | minutes m =>
    (if m < 0 then '-' else '+') ::
      (Text.padded 2 (m.natAbs / 60) ++ ':' :: Text.padded 2 (m.natAbs % 60))

/-- The text of a time of day. -/
def TimeOfDay.text (t : TimeOfDay) : List Char :=
  Text.padded 2 t.hour ++ ':' :: Text.padded 2 t.minute ++ ':' :: Text.padded 2 t.second ++
    if t.fraction.isEmpty then [] else '.' :: t.fraction

/-- The text of a date. -/
def dateText (d : Date) : List Char :=
  Text.padded 4 d.year.toNat ++ '-' :: Text.padded 2 d.month ++ '-' :: Text.padded 2 d.day

/-- The text of a moment. -/
def Moment.text (m : Moment) : List Char :=
  let date := (m.date.map dateText).getD []
  let time := (m.time.map TimeOfDay.text).getD []
  let between := if m.date.isSome && m.time.isSome then ['T'] else []
  date ++ between ++ time ++ (m.offset.map Offset.text).getD []

/-! ## Reading -/

/-- A date and the text after it. -/
def datePart? (cs : List Char) : Option (Date × List Char) := do
  let (year, r) ← Timestamp.exactly 4 cs
  let (month, r) ← Timestamp.exactly 2 (← Timestamp.after '-' r)
  let (day, r) ← Timestamp.exactly 2 (← Timestamp.after '-' r)
  let date : Date := ⟨year, month, day⟩
  if date.isValid then some (date, r) else none

/-- The digits of a fraction without zeros at the end, nine at most. -/
def fractionDigits (ds : List Char) : List Char :=
  ((ds.take 9).reverse.dropWhile (· == '0')).reverse

/-- A time of day and the text after it. -/
def timePart? (cs : List Char) : Option (TimeOfDay × List Char) := do
  let (hour, r) ← Timestamp.exactly 2 cs
  let (minute, r) ← Timestamp.exactly 2 (← Timestamp.after ':' r)
  let (second, r) ← Timestamp.exactly 2 (← Timestamp.after ':' r)
  if hour ≤ 23 ∧ minute ≤ 59 ∧ second ≤ 60 then
    match r with
    | '.' :: r =>
      match r.takeWhile Char.isDigit with
      | [] => none
      | ds => some (⟨hour, minute, second, fractionDigits ds⟩, r.dropWhile Char.isDigit)
    | r => some (⟨hour, minute, second, []⟩, r)
  else none

/-- An offset, if there is one, and the text after it. -/
def offsetPart? (cs : List Char) : Option (Option Offset × List Char) :=
  match cs with
  | 'Z' :: r => some (some .universal, r)
  | 'z' :: r => some (some .universal, r)
  | c :: r =>
    if c = '+' ∨ c = '-' then do
      let (hours, r) ← Timestamp.exactly 2 r
      let (minutes, r) ← Timestamp.exactly 2 (← Timestamp.after ':' r)
      let all := hours * 60 + minutes
      if hours ≤ 23 ∧ minutes ≤ 59 then
        some (some (.minutes (if c = '-' then -(all : Int) else all)), r)
      else none
    else some (none, cs)
  | [] => some (none, [])

/-- The moment that a whole text names. -/
def moment? (cs : List Char) : Option Moment := do
  match datePart? cs with
  | none =>
    let (time, r) ← timePart? cs
    if r.isEmpty then some ⟨none, some time, none⟩ else none
  | some (date, []) => some ⟨some date, none, none⟩
  | some (date, c :: r) =>
    if c = 'T' ∨ c = 't' ∨ c = ' ' then
      let (time, r) ← timePart? r
      let (offset, r) ← offsetPart? r
      if r.isEmpty then some ⟨some date, some time, offset⟩ else none
    else none

end AccessLedger.Toml
