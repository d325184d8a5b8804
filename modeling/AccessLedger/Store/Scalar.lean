import AccessLedger.Account
import AccessLedger.Number.Extended

/-!
# Scalars

A column of the database is a column of texts or of integers, but takes other
values too.  A column of texts makes a text of any number
(`Scalar.asText`).  A column of integers makes an integer of what is one
(`Scalar.asInteger`): of the integers that 64 bits hold, of doubles without a
fraction, and of texts that spell one of these; texts that spell another
number become doubles, and other texts stay as they are.  Neither conversion
between doubles and decimals is exact: both are done in extended precision.

So what a column of integers holds need not be an integer; reading it as a
number without sign (`Scalar.word?`) or as a truth value (`Scalar.truth?`)
fails then.
-/

namespace AccessLedger

/-- A value that a column can hold. -/
inductive Scalar where
  | integer (i : Int)
  | real (x : Double)
  | text (s : String)
  deriving DecidableEq, Repr

namespace Scalar

/-! ## Order -/

/-- A number as numerator and denominator; that of an infinity is zero. -/
def ratio? : Scalar → Option (Int × Nat)
  | integer i => some (i, 1)
  | real (.finite negative p) =>
    some (if negative then -(p.fraction.1 : Int) else p.fraction.1, p.fraction.2)
  | real (.infinite negative) => some (if negative then -1 else 1, 0)
  | text _ => none

/-- Whether a scalar does not come after another: numbers by size, then texts. -/
def isNotAfter (a b : Scalar) : Bool :=
  match a.ratio?, b.ratio? with
  | some (n, d), some (m, e) => n * e < m * d || (n * e == m * d && n ≤ m)
  | some _, none => true
  | none, some _ => false
  | none, none => match a, b with
    | text s, text t => s ≤ t
    | _, _ => true

/-- Whether two scalars are one key: an integer and the double of its value are. -/
def isSame (a b : Scalar) : Bool := a.isNotAfter b && b.isNotAfter a

/-! ## Numbers in texts -/

/-- Blanks that may stand around a number. -/
def isBlank (c : Char) : Bool := c == ' ' || ('\t' ≤ c && c ≤ '\r')

/-- The number that a text begins with, as it is written. -/
structure Numeral where
  negative : Bool
  whole : List Char
  /-- The digits after the point, if there is a point. -/
  places : Option (List Char)
  /-- The exponent, if there is one, cut off when it is large. -/
  power : Option Int
  /-- The text after the number. -/
  rest : List Char
  deriving DecidableEq, Repr

namespace Numeral

/-- The sign of a number and the text after it. -/
def splitSign : List Char → Bool × List Char
  | '-' :: r => (true, r)
  | '+' :: r => (false, r)
  | r => (false, r)

/-- The digits of an exponent as a number that is not continued beyond ten thousand. -/
def exponentOf (ds : List Char) : Nat :=
  ds.foldl (fun n c => if n < 10000 then n * 10 + (c.toNat - 0x30) else 10000) 0

/-- An exponent with its mark, if there is one, and the text after it. -/
def splitPower (cs : List Char) : Option Int × List Char :=
  match cs with
  | c :: r =>
    let (negative, ds) := splitSign r
    let digits := ds.takeWhile Char.isDigit
    if (c = 'e' ∨ c = 'E') ∧ digits ≠ [] then
      let n := exponentOf digits
      (some (if negative then -(n : Int) else n), ds.dropWhile Char.isDigit)
    else (none, cs)
  | [] => (none, [])

/-- Read the number that a text begins with, blanks before it allowed. -/
def ofText (cs : List Char) : Numeral :=
  let (negative, r) := splitSign (cs.dropWhile isBlank)
  let whole := r.takeWhile Char.isDigit
  let (places, r) := match r.dropWhile Char.isDigit with
    | '.' :: r => (some (r.takeWhile Char.isDigit), r.dropWhile Char.isDigit)
    | r => (none, r)
  let (power, rest) := splitPower r
  ⟨negative, whole, places, power, rest⟩

/-- All digits of a number without its exponent. -/
def digits (n : Numeral) : List Char := n.whole ++ n.places.getD []

/-- Whether there is a number, and nothing but blanks after it. -/
def isComplete (n : Numeral) : Bool := !n.digits.isEmpty && n.rest.all isBlank

/-- Whether a number has neither a point nor an exponent. -/
def isWhole (n : Numeral) : Bool := n.places.isNone && n.power.isNone

/-- The integer that the digits before the point spell. -/
def integer (n : Numeral) : Int :=
  if n.negative then -(Text.ofDigits n.whole : Int) else Text.ofDigits n.whole

/-- The bound of the words to which one more digit can be appended in any case. -/
def openBound : Nat := 1844674407370955160

/-- The leading digits of a number as a word, and the power of ten that it is multiplied by. -/
def word (n : Numeral) : Nat × Int :=
  let takeUp := Text.takeDigits fun word _ => word < openBound
  let places := n.places.getD []
  let (upToPoint, wholeLeft) := takeUp 0 n.whole
  let (word, placesLeft) := takeUp upToPoint places
  (word, n.power.getD 0 + wholeLeft.length - (places.length - placesLeft.length : Nat))

/-- The double that a number is read as. -/
def double (n : Numeral) : Double := .ofWord n.negative n.word.1 n.word.2

end Numeral

/-! ## Columns of integers -/

/-- The integers of 64 bits. -/
def isWord (i : Int) : Bool := -9223372036854775808 ≤ i && i < 9223372036854775808

/-- The integer that a double is, if that lies strictly between the bounds of 64 bits. -/
def wholeOf? : Double → Option Int
  | .finite negative p =>
    let (n, d) := p.fraction
    let i : Int := if negative then -(n / d : Nat) else (n / d : Nat)
    if n % d = 0 ∧ i.natAbs < 9223372036854775808 then some i else none
  | .infinite _ => none

/-- A double in a column of integers. -/
def ofDouble (x : Double) : Scalar :=
  match wholeOf? x with
  | some i => integer i
  | none => real x

/-- What a column of integers makes of a scalar. -/
def asInteger : Scalar → Scalar
  | integer i => integer i
  | real x => ofDouble x
  | text s =>
    let n := Numeral.ofText s.toList
    if !n.isComplete then text s
    else if n.isWhole && isWord n.integer then integer n.integer
    else ofDouble n.double

/-- The number without sign, of 32 bits, that a scalar is. -/
def word? : Scalar → Option UInt32
  | integer i => uint32? i
  | _ => none

/-- The truth value that a scalar is: any integer but zero is true. -/
def truth? : Scalar → Option Bool
  | integer i => some (i ≠ 0)
  | _ => none

/-- The number after the greatest scalar, where a text counts as the integer that it begins with. -/
def nextWord? (greatest : Scalar) : Option UInt32 :=
  match greatest with
  | integer i => uint32? (i + 1)
  | real _ => none
  | text s =>
    let n := Numeral.ofText s.toList
    if n.isWhole || n.digits.isEmpty then uint32? (n.integer + 1) else none

/-! ## Columns of texts -/

/-- The significant digits of a double in a column of texts. -/
def textDigits : Nat := 15

/-- The text of a positive double: fifteen digits, with an exponent where these do not do. -/
def realText (p : Binary64.Parts) : List Char :=
  let (digits, unit) := Extended.significant textDigits p
  let exponent := unit + (textDigits - 1 : Nat)
  let dropZeros (ds : List Char) : List Char := (ds.reverse.dropWhile (· == '0')).reverse
  let fraction (ds : List Char) : List Char :=
    '.' :: if (dropZeros ds).isEmpty then ['0'] else dropZeros ds
  let ds := Text.digits digits
  if exponent < -4 ∨ (textDigits : Int) ≤ exponent then
    let mark := if exponent < 0 then ['e', '-'] else ['e', '+']
    ds.take 1 ++ fraction (ds.drop 1) ++ mark ++ Text.padded 2 exponent.natAbs
  else if exponent < 0 then
    '0' :: fraction (List.replicate (exponent.natAbs - 1) '0' ++ ds)
  else ds.take (exponent.toNat + 1) ++ fraction (ds.drop (exponent.toNat + 1))

/-- What a column of texts makes of a scalar. -/
def asText : Scalar → String
  | integer i => String.ofList (Text.signedDigits i)
  | real (.finite negative p) =>
    if p.significand = 0 then "0.0"
    else String.ofList (if negative then '-' :: realText p else realText p)
  | real (.infinite negative) => if negative then "-Inf" else "Inf"
  | text s => s

end Scalar

/-- An account in a column. -/
def AccountId.scalar (a : AccountId) : Scalar := .integer a.toNat

end AccessLedger
