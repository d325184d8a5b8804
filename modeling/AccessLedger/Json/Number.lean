import AccessLedger.Number.Binary64

/-!
# The doubles of JSON numbers

A number that is no whole number of 64 bits is read as a double, though not
always as the nearest one.  Its digits are taken up as long as a word holds
them, digits after that only count (`Numeral.word`); then the word is
multiplied or divided by a power of ten, and each of word, power and result is
rounded to a double (`Numeral.double?`).  A number has no double if this leads
beyond the finite ones.
-/

namespace AccessLedger.Json

open Binary64 (Parts nearest)

/-- The parts of a number without its sign: digits before and after the point, exponent. -/
structure Numeral where
  whole : List Char
  places : List Char
  power : Int
  deriving DecidableEq, Repr

/-- The bound of all words of 64 bits. -/
def wordBound : Nat := 18446744073709551616

/-- Append digits to a word as long as it stays one. -/
def takeUp : Nat → List Char → Nat × List Char :=
  Text.takeDigits fun _ next => next < wordBound

/-- Ten to a power, as a double. -/
def powerOfTen (e : Nat) : Option Parts := nearest (Nat.pow 10 e) 1

/-- The largest power of ten that is a finite double. -/
def maxPower : Nat := 308

/-- A word times ten to a power. -/
def multiplied? (word : Parts) (e : Nat) : Option Parts :=
  if word.significand = 0 then some word
  else if e ≤ maxPower then do word.times (← powerOfTen e)
  else none

/-- A word divided by ten to a power, in steps of `maxPower`; nothing is left of it after two. -/
def divided? (word : Parts) (e : Nat) : Option Parts :=
  if e ≤ maxPower then do word.dividedBy (← powerOfTen e)
  else if e ≤ 2 * maxPower then do
    (← word.dividedBy (← powerOfTen maxPower)).dividedBy (← powerOfTen (e - maxPower))
  else some ⟨0, 0⟩

namespace Numeral

/-- The parts of a number's text; its sign is passed over. -/
def ofText (text : List Char) : Numeral :=
  let unsigned := text.dropWhile (· == '-')
  let afterWhole := unsigned.dropWhile Char.isDigit
  let places := match afterWhole with
    | '.' :: r => r.takeWhile Char.isDigit
    | _ => []
  let power : Int := match (afterWhole.dropWhile fun c => c != 'e' && c != 'E').drop 1 with
    | '-' :: ds => -(Text.ofDigits ds : Int)
    | '+' :: ds => Text.ofDigits ds
    | ds => Text.ofDigits ds
  ⟨unsigned.takeWhile Char.isDigit, places, power⟩

/-- The leading digits of a number as a word, and the power of ten that it is multiplied by. -/
def word (n : Numeral) : Nat × Int :=
  let (upToPoint, wholeLeft) := takeUp 0 n.whole
  let (word, placesLeft) := takeUp upToPoint n.places
  (word, n.power + wholeLeft.length - (n.places.length - placesLeft.length : Nat))

/-- The double that a number is read as; `none` if it is too large. -/
def double? (n : Numeral) : Option Parts := do
  let (word, power) := n.word
  let p ← nearest word 1
  match power with
  | .ofNat e => multiplied? p e
  | .negSucc e => divided? p (e + 1)

end Numeral

end AccessLedger.Json
