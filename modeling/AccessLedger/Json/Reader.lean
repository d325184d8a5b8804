import AccessLedger.Json.Basic

/-!
# Reading JSON text

`Json.readValue` reads one value off the front of a text and gives the tree
together with the rest of the text; there is no rest once the text has stopped
being JSON.  Blanks are the four of the JSON grammar, control characters may
not stand in strings, and a number has no leading zeros.

The reader is bounded by a number of steps; `Json.stepsFor` is always enough.
-/

namespace AccessLedger.Json

/-- The blanks that may stand between tokens. -/
def isBlank (c : Char) : Bool := c == ' ' || c == '\t' || c == '\n' || c == '\r'

/-- The text from its first character that is no blank. -/
def skipBlanks (cs : List Char) : List Char := cs.dropWhile isBlank

/-! ## Strings -/

/-- One element of a string as it is written: a character or a `\u` escape. -/
inductive Piece where
  | char (c : Char)
  | unit (u : Nat)
  deriving DecidableEq, Repr

/-- The value of a hexadecimal digit. -/
def hexValue? (c : Char) : Option Nat :=
  if '0' ≤ c ∧ c ≤ '9' then some (c.toNat - 0x30)
  else if 'a' ≤ c ∧ c ≤ 'f' then some (c.toNat - 0x57)
  else if 'A' ≤ c ∧ c ≤ 'F' then some (c.toNat - 0x37)
  else none

/-- The value of four hexadecimal digits. -/
def hexUnit? (a b c d : Char) : Option Nat := do
  return (((← hexValue? a) * 16 + (← hexValue? b)) * 16 + (← hexValue? c)) * 16 + (← hexValue? d)

/-- The character of a short escape. -/
def shortEscape? : Char → Option Char
  | '"' => some '"'
  | '\\' => some '\\'
  | '/' => some '/'
  | 'b' => some '\x08'
  | 'f' => some '\x0c'
  | 'n' => some '\n'
  | 'r' => some '\r'
  | 't' => some '\t'
  | _ => none

/-- The elements of a string up to its closing quote, and the text after that. -/
def readPieces : List Char → Option (List Piece × List Char)
  | [] => none
  | '"' :: r => some ([], r)
  | '\\' :: 'u' :: a :: b :: c :: d :: r => do
    let u ← hexUnit? a b c d
    let (ps, rest) ← readPieces r
    return (.unit u :: ps, rest)
  | '\\' :: e :: r => do
    let c ← shortEscape? e
    let (ps, rest) ← readPieces r
    return (.char c :: ps, rest)
  | c :: r =>
    if c.toNat < 0x20 || c = '\\' then none
    else do
      let (ps, rest) ← readPieces r
      return (.char c :: ps, rest)

/-- Whether a UTF-16 unit is the first half of a surrogate pair. -/
def isHighHalf (u : Nat) : Bool := 0xD800 ≤ u && u < 0xDC00

/-- Whether a UTF-16 unit is the second half of a surrogate pair. -/
def isLowHalf (u : Nat) : Bool := 0xDC00 ≤ u && u < 0xE000

/-- The characters that the elements stand for; `none` if half of a surrogate pair stands alone. -/
def assemble : List Piece → Option (List Char)
  | [] => some []
  | .char c :: r => (assemble r).map (c :: ·)
  | .unit u :: .unit v :: r =>
    if isHighHalf u && isLowHalf v then
      (assemble r).map (Char.ofNat (0x10000 + (u - 0xD800) * 0x400 + (v - 0xDC00)) :: ·)
    else if isHighHalf u || isLowHalf u then none
    else (assemble (.unit v :: r)).map (Char.ofNat u :: ·)
  | .unit u :: r =>
    if isHighHalf u || isLowHalf u then none else (assemble r).map (Char.ofNat u :: ·)

/-- The string whose opening quote has been read. -/
def readString (cs : List Char) : Option (Option String × List Char) :=
  (readPieces cs).map fun (ps, rest) => ((assemble ps).map String.ofList, rest)

/-! ## Numbers -/

/-- Digits, at least one, and the text after them. -/
def readDigits (cs : List Char) : Option (List Char × List Char) :=
  match cs.takeWhile Char.isDigit with
  | [] => none
  | ds => some (ds, cs.dropWhile Char.isDigit)

/-- The digits before the point, without leading zeros, and the text after them. -/
def readWhole (cs : List Char) : Option (List Char × List Char) := do
  let (ds, r) ← readDigits cs
  if ds.head? = some '0' && ds.length != 1 then none else some (ds, r)

/-- A point with digits after it, if there is a point. -/
def readPlaces : List Char → Option (List Char × List Char)
  | '.' :: r => (readDigits r).map fun (ds, r) => ('.' :: ds, r)
  | r => some ([], r)

/-- An exponent mark with digits after it, if there is a mark. -/
def readPower : List Char → Option (List Char × List Char)
  | c :: r =>
    if c = 'e' || c = 'E' then
      match r with
      | '+' :: r => (readDigits r).map fun (ds, r) => (c :: '+' :: ds, r)
      | '-' :: r => (readDigits r).map fun (ds, r) => (c :: '-' :: ds, r)
      | r => (readDigits r).map fun (ds, r) => (c :: ds, r)
    else some ([], c :: r)
  | [] => some ([], [])

/-- A number without its sign: digits before the point, all that follows them, rest of the text. -/
def readUnsigned (cs : List Char) : Option (List Char × List Char × List Char) := do
  let (whole, r) ← readWhole cs
  let (places, r) ← readPlaces r
  let (power, r) ← readPower r
  return (whole, places ++ power, r)

/-- A number and the text after it. -/
def readNumber : List Char → Option (Json × List Char)
  | '-' :: r => do
    let (whole, tail, rest) ← readUnsigned r
    let n := Nat.ofDigitChars 10 whole 0
    if tail.isEmpty && n != 0 then return (.integer (-(n : Int)), rest)
    else return (.fraction ('-' :: (whole ++ tail)), rest)
  | r => do
    let (whole, tail, rest) ← readUnsigned r
    if tail.isEmpty then return (.integer (Nat.ofDigitChars 10 whole 0), rest)
    else return (.fraction (whole ++ tail), rest)

/-! ## Values -/

mutual

/-- One value, blanks before it allowed, and the text after it. -/
def readValue : Nat → List Char → Json × Option (List Char)
  | 0, _ => (.broken, none)
  | n + 1, cs =>
    match skipBlanks cs with
    | '[' :: r =>
      match skipBlanks r with
      | ']' :: r => (.array [], some r)
      | r =>
        let (items, rest) := readItems n r
        (.array items, rest)
    | '\x7b' :: r =>
      match skipBlanks r with
      | '\x7d' :: r => (.object [], some r)
      | r =>
        let (members, rest) := readMembers n r
        (.object members, rest)
    | '"' :: r =>
      match readString r with
      | some (s, r) => (.string s, some r)
      | none => (.broken, none)
    | 'n' :: 'u' :: 'l' :: 'l' :: r => (.null, some r)
    | 't' :: 'r' :: 'u' :: 'e' :: r => (.bool true, some r)
    | 'f' :: 'a' :: 'l' :: 's' :: 'e' :: r => (.bool false, some r)
    | r =>
      match readNumber r with
      | some (j, r) => (j, some r)
      | none => (.broken, none)

/-- The items of an array up to its closing bracket. -/
def readItems : Nat → List Char → List Json × Option (List Char)
  | 0, _ => ([.broken], none)
  | n + 1, cs =>
    match readValue n cs with
    | (j, none) => ([j], none)
    | (j, some r) =>
      match skipBlanks r with
      | ',' :: r =>
        let (items, rest) := readItems n r
        (j :: items, rest)
      | ']' :: r => ([j], some r)
      | _ => ([j, .broken], none)

/-- The members of an object up to its closing brace. -/
def readMembers : Nat → List Char → List (Option String × Json) × Option (List Char)
  | 0, _ => ([(none, .broken)], none)
  | n + 1, cs =>
    match skipBlanks cs with
    | '"' :: r =>
      match readString r with
      | none => ([(none, .broken)], none)
      | some (k, r) =>
        match skipBlanks r with
        | ':' :: r =>
          match readValue n r with
          | (j, none) => ([(k, j)], none)
          | (j, some r) =>
            match skipBlanks r with
            | ',' :: r =>
              let (members, rest) := readMembers n r
              ((k, j) :: members, rest)
            | '\x7d' :: r => ([(k, j)], some r)
            | _ => ([(k, j), (none, .broken)], none)
        | _ => ([(k, .broken)], none)
    | r => ([(none, .misnamed (readValue n r).1)], none)

end

/-- A number of steps that suffices for a text: each character starts at most two of them. -/
def stepsFor (cs : List Char) : Nat := 2 * cs.length + 2

/-- The value that a text starts with, and what follows it. -/
def readFront (cs : List Char) : Json × Option (List Char) := readValue (stepsFor cs) cs

/-- Whether nothing but blanks follows a value. -/
def endsText : Option (List Char) → Bool
  | some r => r.all isBlank
  | none => false

/-- The value that a whole text says, if it is sound. -/
def read? (s : String) : Option Json :=
  let (j, rest) := readFront s.toList
  if j.skippable && endsText rest then some j else none

end AccessLedger.Json
