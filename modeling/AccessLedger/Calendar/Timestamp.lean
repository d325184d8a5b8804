import AccessLedger.Calendar.Instant
import AccessLedger.Text.Blank

/-!
# Reading timestamps

Two forms are read.  The strict form is that of RFC 3339: fields of fixed
width, an offset with a colon, and nothing else; a space or a small letter may
stand for `T` and `Z`.  The relaxed form also allows blanks around fields,
shorter fields, signed years and offsets without a colon.  Both need seconds
and an offset, and both drop digits of the fraction after the ninth.
-/

namespace AccessLedger.Timestamp

/-- What a part of a timestamp says, and the text after it. -/
abbrev Reading (α : Type) := Option (α × List Char)

/-- A number of at least one and at most `width` digits. -/
def upTo (width : Nat) (cs : List Char) : Reading Nat :=
  match (cs.take width).takeWhile Char.isDigit with
  | [] => none
  | ds => some (Text.ofDigits ds, cs.drop ds.length)

/-- A number of exactly `width` digits. -/
def exactly (width : Nat) (cs : List Char) : Reading Nat :=
  let ds := (cs.take width).takeWhile Char.isDigit
  if ds.length = width then some (Text.ofDigits ds, cs.drop width) else none

/-- The text after the character `c`. -/
def after (c : Char) : List Char → Option (List Char)
  | d :: r => if d = c then some r else none
  | [] => none

/-- The text after the sign between date and time. -/
def afterDate : List Char → Option (List Char)
  | c :: r => if c = 'T' ∨ c = 't' ∨ c = ' ' then some r else none
  | [] => none

/-- The nanoseconds that the digits after a point stand for. -/
def nanosOf (ds : List Char) : Nat :=
  let kept := ds.take 9
  Text.ofDigits kept * Nat.pow 10 (9 - kept.length)

/-- The fraction of a second, if a point starts one. -/
def fraction : List Char → Reading Nat
  | '.' :: r =>
    match r.takeWhile Char.isDigit with
    | [] => none
    | ds => some (nanosOf ds, r.dropWhile Char.isDigit)
  | r => some (0, r)

/-- The sign of an offset. -/
def offsetSign : List Char → Reading Int
  | '+' :: r => some (1, r)
  | '-' :: r => some (-1, r)
  | '\u2212' :: r => some (-1, r)
  | _ => none

/--
An offset from universal time in minutes.  `between` skips what may stand
between its hours and its minutes.
-/
def offset (between : List Char → Option (List Char)) (cs : List Char) :
    Option (Int × List Char) :=
  match cs with
  | 'Z' :: r => some (0, r)
  | 'z' :: r => some (0, r)
  | _ => do
    let (sign, r) ← offsetSign cs
    let (hours, r) ← exactly 2 r
    let r ← between r
    let (minutes, r) ← exactly 2 r
    if hours ≤ 23 ∧ minutes ≤ 59 then some (sign * (hours * 60 + minutes), r) else none

/-- The instant that a text in the strict form names. -/
def strict? (s : String) : Option Instant := do
  let (year, r) ← exactly 4 s.toList
  let (month, r) ← exactly 2 (← after '-' r)
  let (day, r) ← exactly 2 (← after '-' r)
  let (hour, r) ← exactly 2 (← afterDate r)
  let (minute, r) ← exactly 2 (← after ':' r)
  let (second, r) ← exactly 2 (← after ':' r)
  let (nanos, r) ← fraction r
  let (offset, r) ← offset (after ':') r
  if r.isEmpty then Instant.ofLocal? ⟨year, month, day⟩ hour minute second nanos offset else none

/-- A year, with up to four digits or with a sign and any number of digits. -/
def year (cs : List Char) : Reading Int :=
  match cs with
  | '-' :: r => (upTo r.length r).map fun (n, r) => (-(n : Int), r)
  | '+' :: r => (upTo r.length r).map fun (n, r) => ((n : Int), r)
  | r => (upTo 4 r).map fun (n, r) => ((n : Int), r)

/-- A field of one or two digits, blanks before it allowed. -/
def field (cs : List Char) : Reading Nat := upTo 2 (Text.trimStart cs)

/-- The offset of the relaxed form. -/
def relaxedOffset (cs : List Char) : Reading Int :=
  if (cs.take 3).map Char.toUpper = ['U', 'T', 'C'] then some (0, cs.drop 3)
  else offset (fun r => some (r.dropWhile fun c => c == ':' || Text.isBlank c)) cs

/-- The instant that a text in the relaxed form names. -/
def relaxed? (s : String) : Option Instant := do
  let (year, r) ← year (Text.trimStart s.toList)
  let (month, r) ← field (← after '-' (Text.trimStart r))
  let (day, r) ← field (← after '-' (Text.trimStart r))
  let (hour, r) ← field (← afterDate r)
  let (minute, r) ← field (← after ':' (Text.trimStart r))
  let (second, r) ← field (← after ':' (Text.trimStart r))
  let (nanos, r) ← fraction r
  let (offset, r) ← relaxedOffset (Text.trimStart r)
  if Text.allBlank r then Instant.ofLocal? ⟨year, month, day⟩ hour minute second nanos offset
  else none

end AccessLedger.Timestamp
