import AccessLedger.Text.Decimal

/-!
# Double-precision numbers

A finite double, its sign aside, is `m * 2 ^ q`.  `nearest` gives the double that is
nearest to a fraction, of two equally near ones the even one, and `shortest`
the fewest decimal digits that only this double is nearest to, of two equally
near ones the greater.  All of it is exact arithmetic on natural numbers.  A
`Double` has a sign and may be infinite.
-/

namespace AccessLedger

namespace Binary64

/-- The whole number nearest to a fraction; halves go to the even neighbour. -/
def roundHalfEven (num den : Nat) : Nat :=
  let q := num / den
  let r := num % den
  if 2 * r < den then q
  else if den < 2 * r then q + 1
  else if q % 2 = 0 then q else q + 1

/-- Numerator and denominator of a fraction times a power of a base. -/
def scaled (base : Nat) (num den : Nat) : Int → Nat × Nat
  | .ofNat k => (num * Nat.pow base k, den)
  | .negSucc k => (num, den * Nat.pow base (k + 1))

/-- The exponent of the largest power of the base that is not above a positive fraction. -/
def floorLog (base num den : Nat) : Int :=
  let guess : Int := log base num - log base den
  let (n, d) := scaled base num den (-guess)
  if n < d then guess - 1 else guess
where
  /-- The floor of a logarithm of a positive number. -/
  log (b n : Nat) : Nat := go b n n
  go (b : Nat) : Nat → Nat → Nat
    | 0, _ => 0
    | fuel + 1, n => if n < b ∨ b < 2 then 0 else go b fuel (n / b) + 1

/-- A finite double without its sign, `significand * 2 ^ exponent`, with 53 bits at most. -/
structure Parts where
  significand : Nat
  exponent : Int
  deriving DecidableEq, Repr

/-- The bound of all significands: two to the power 53. -/
def significandBound : Nat := 9007199254740992

/-- The double nearest to a fraction; `none` if that is beyond all finite ones. -/
def nearest (num den : Nat) : Option Parts :=
  let q := max (floorLog 2 num den - 52) (-1074)
  let (n, d) := scaled 2 num den (-q)
  let m := roundHalfEven n d
  let p : Parts := if m = significandBound then ⟨m / 2, q + 1⟩ else ⟨m, q⟩
  if p.exponent ≤ 971 then some p else none

/-- A double as a fraction. -/
def Parts.fraction (p : Parts) : Nat × Nat := scaled 2 p.significand 1 p.exponent

/-- The double nearest to a product; `none` if that is beyond all finite ones. -/
def Parts.times (p r : Parts) : Option Parts :=
  nearest (p.fraction.1 * r.fraction.1) (p.fraction.2 * r.fraction.2)

/-- The double nearest to a quotient by a double that is not zero. -/
def Parts.dividedBy (p r : Parts) : Option Parts :=
  nearest (p.fraction.1 * r.fraction.2) (p.fraction.2 * r.fraction.1)

/-- The digits, `count` of them, that are nearest to a double and that it is nearest to. -/
def digitsOf? (p : Parts) (point : Int) (count : Nat) : Option (Nat × Int) :=
  let unit := point - count
  let (num, den) := p.fraction
  let (n, d) := scaled 10 num den (-unit)
  let low := n / d
  let fits (c : Nat) : Bool :=
    let (cn, cd) := scaled 10 c 1 unit
    c != 0 && nearest cn cd == some p
  let lowIsNearer := 2 * (n % d) < d
  if fits low && (lowIsNearer || !fits (low + 1)) then some (low, unit)
  else if fits (low + 1) then some (low + 1, unit)
  else none

/--
The fewest digits that stand for a double: a number that does not end in zero
and the power of ten it is multiplied by.
-/
def shortest (p : Parts) : Nat × Int :=
  let (num, den) := p.fraction
  let point := floorLog 10 num den + 1
  let (digits, unit) :=
    ((List.range 18).drop 1).findSome? (digitsOf? p point) |>.getD (num / den, 0)
  -- one digit may have been rounded up to ten
  if digits = 10 then (1, unit + 1) else (digits, unit)

/-- A number times a power of ten, written without an exponent. -/
def positional (digits : Nat) : Int → List Char
  | .ofNat k => Text.digits (digits * Nat.pow 10 k)
  | .negSucc k =>
    let places := k + 1
    let fraction := (Text.padded places (digits % Nat.pow 10 places)).reverse.dropWhile (· == '0')
    let whole := Text.digits (digits / Nat.pow 10 places)
    if fraction.isEmpty then whole else whole ++ '.' :: fraction.reverse

/-- The text of a double. -/
def Parts.text (p : Parts) : List Char :=
  if p.significand = 0 then ['0']
  else
    let (digits, unit) := shortest p
    positional digits unit

/-- The nearest whole number; halves go up. -/
def Parts.round (p : Parts) : Nat :=
  let (num, den) := p.fraction
  (2 * num + den) / (2 * den)

end Binary64

/-- A double with its sign, or an infinity. -/
inductive Double where
  | finite (negative : Bool) (magnitude : Binary64.Parts)
  | infinite (negative : Bool)
  deriving DecidableEq, Repr

namespace Double

/-- The double nearest to a fraction; what is beyond all finite ones is infinite. -/
def nearest (negative : Bool) (num den : Nat) : Double :=
  match Binary64.nearest num den with
  | some p => finite negative p
  | none => infinite negative

/-- The text of a double, without an exponent. -/
def text : Double → List Char
  | finite negative magnitude => if negative then '-' :: magnitude.text else magnitude.text
  | infinite negative => if negative then "-inf".toList else "inf".toList

end Double

end AccessLedger
