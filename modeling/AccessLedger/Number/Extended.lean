import AccessLedger.Number.Binary64

/-!
# Extended precision

An `Extended` number has 64 significant bits.  Its exponent is not bounded, and
it has no sign.  Products are rounded, and so are the powers of ten, so a number
that is multiplied by ten step by step (`Extended.timesTenTo`) need not be the
nearest one in the end.

`Double.ofWord` makes a double of a decimal this way, and
`Extended.significant` the leading decimal digits of a double.
-/

namespace AccessLedger

/-- A number without a sign, `significand * 2 ^ exponent`, with 64 bits at most. -/
structure Extended where
  significand : Nat
  exponent : Int
  deriving DecidableEq, Repr

namespace Extended

open Binary64 (Parts roundHalfEven scaled floorLog)

/-- The bound of all significands: two to the power 64. -/
def significandBound : Nat := 18446744073709551616

/-- The bits of a significand. -/
def precision : Nat := 64

/-- Keep the leading bits of a significand; halves go to the even neighbour. -/
def round (significand : Nat) (exponent : Int) : Extended :=
  let extra := Nat.log2 significand + 1 - precision
  let m := roundHalfEven significand (Nat.pow 2 extra)
  if m = significandBound then ⟨m / 2, exponent + extra + 1⟩ else ⟨m, exponent + extra⟩

/-- The rounded product. -/
def times (x y : Extended) : Extended :=
  round (x.significand * y.significand) (x.exponent + y.exponent)

/-- The number nearest to ten to a power. -/
def tenTo (power : Int) : Extended :=
  let (num, den) := scaled 10 1 1 power
  let q := floorLog 2 num den + 1 - precision
  let (n, d) := scaled 2 num den (-q)
  round (roundHalfEven n d) q

/-- Multiply by ten to a power: by hundreds of tens first, then by tens of them, then one by one. -/
def timesTenTo (x : Extended) (power : Int) : Extended :=
  let step (unit count : Nat) (x : Extended) : Extended :=
    let factor := tenTo (if power < 0 then -(unit : Int) else unit)
    Nat.repeat (times factor) count x
  let n := power.natAbs
  step 1 (n % 10) (step 10 (n % 100 / 10) (step 100 (n / 100) x))

/-- A number as a fraction. -/
def fraction (x : Extended) : Nat × Nat := scaled 2 x.significand 1 x.exponent

/-- Whether a number is less than another one. -/
def isLess (x y : Extended) : Bool :=
  x.fraction.1 * y.fraction.2 < y.fraction.1 * x.fraction.2

/-- The greatest finite double. -/
def maxDouble : Extended := ⟨9007199254740991, 971⟩

/-- The nearest double, given a sign; above all finite doubles it is infinite. -/
def toDouble (x : Extended) (negative : Bool) : Double :=
  -- the first tests keep the power of two small
  if x.significand = 0 ∨ x.exponent < -1200 then .finite negative ⟨0, 0⟩
  else if 1100 < x.exponent ∨ maxDouble.isLess x then .infinite negative
  else .nearest negative x.fraction.1 x.fraction.2

/-! ## Leading digits -/

/--
Multiply by ten to the power `unit` as long as `again` holds, `n` times at
most; the number and the power of ten that it has to be multiplied by.
-/
def scaleWhile (again : Extended → Bool) (unit : Int) : Nat → Extended × Int → Extended × Int
  | 0, s => s
  | n + 1, (x, power) =>
    if again x then scaleWhile again unit n (x.times (tenTo unit), power - unit) else (x, power)

/-- A positive double as a whole number of 18 or 19 digits, cut off, times ten to a power. -/
def leadingDigits (p : Parts) : Nat × Int :=
  let x : Extended := ⟨p.significand, p.exponent⟩
  -- as many times as any double takes
  let down (limit unit : Int) := scaleWhile (fun y => !y.isLess (tenTo limit)) (-unit) 20
  let up (limit unit : Int) := scaleWhile (·.isLess (tenTo limit)) unit 20
  let (y, power) :=
    if x.isLess (tenTo 19) then up 17 1 (up 7 10 (up (-97) 100 (x, 0)))
    else down 19 1 (down 29 10 (down 119 100 (x, 0)))
  (y.fraction.1 / y.fraction.2, power)

/--
`count` decimal digits of a positive double and the power of ten that they are
multiplied by.  They are rounded by the one digit that follows them; five goes
up.
-/
def significant (count : Nat) (p : Parts) : Nat × Int :=
  let (digits, power) := leadingDigits p
  let dropped := floorLog 10 digits 1 + 1 - count
  let (n, d) := scaled 10 digits 1 (-dropped)
  let rounded := (2 * n + d) / (2 * d)
  if rounded = Nat.pow 10 count then (rounded / 10, power + dropped + 1)
  else (rounded, power + dropped)

/-! ## Decimals -/

/--
Move a power of ten into a significand, one ten at a time, as long as it stays
one; `n` times at most.
-/
def moveIn : Nat → Nat → Int → Nat × Int
  | 0, m, power => (m, power)
  | n + 1, m, power =>
    if 0 < power ∧ m < significandBound / 10 then moveIn n (m * 10) (power - 1)
    else if power < 0 ∧ m % 10 = 0 then moveIn n (m / 10) (power + 1)
    else (m, power)

end Extended

/-- A double near to a significand of 64 bits times ten to a power. -/
def Double.ofWord (negative : Bool) (word : Nat) (power : Int) : Double :=
  if word = 0 then .finite negative ⟨0, 0⟩
  else
    -- there are no more than 20 digits to move
    let (m, power) := Extended.moveIn 20 word power
    (Extended.timesTenTo ⟨m, 0⟩ power).toDouble negative

end AccessLedger
