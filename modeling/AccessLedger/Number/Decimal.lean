import AccessLedger.Number.Binary64

/-!
# Decimals

`Double.ofDecimal` is the double nearest to digits with a power of ten.
-/

namespace AccessLedger

/-- The double nearest to these digits times ten to a power. -/
def Double.ofDecimal (negative : Bool) (digits : List Char) (power : Int) : Double :=
  let n := Text.ofDigits digits
  -- the first tests keep the power of ten small
  if n = 0 ∨ power < -(digits.length + 400 : Int) then finite negative ⟨0, 0⟩
  else if 400 < power then infinite negative
  else nearest negative (Binary64.scaled 10 n 1 power).1 (Binary64.scaled 10 n 1 power).2

end AccessLedger
