/-!
# Decimal numerals

`digits` writes a natural number without leading zeros, `padded` fills it up
to a width, `ofDigits` reads digits back (`ofDigits_digits`,
`ofDigits_padded`).  `unsigned?` reads the numeral of a bounded natural
number: an optional plus sign, then digits, leading zeros allowed.
`takeDigits` reads as many digits as there is room for.
-/

namespace AccessLedger.Text

/-- The decimal digits of `n`, without leading zeros. -/
def digits (n : Nat) : List Char := Nat.toDigits 10 n

/-- The decimal digits of `n`, filled up on the left with zeros to width `w`. -/
def padded (w n : Nat) : List Char :=
  List.replicate (w - (digits n).length) '0' ++ digits n

/-- A minus sign if needed, then the digits. -/
def signedDigits : Int → List Char
  | .ofNat n => digits n
  | .negSucc n => '-' :: digits (n + 1)

/-- The number that a row of digits stands for. -/
def ofDigits (ds : List Char) : Nat := Nat.ofDigitChars 10 ds 0

/--
Append digits to a number as long as there is room for the number so far and
the one that it becomes; the number and the digits left over.
-/
def takeDigits (fits : Nat → Nat → Bool) : Nat → List Char → Nat × List Char
  | n, [] => (n, [])
  | n, c :: r =>
    let next := n * 10 + (c.toNat - 0x30)
    if fits n next then takeDigits fits next r else (n, c :: r)

/-- Read a natural number up to `limit`, written in digits after an optional plus sign. -/
def unsigned? (limit : Nat) (s : List Char) : Option Nat :=
  let ds := match s with
    | '+' :: r => r
    | _ => s
  if !ds.isEmpty && ds.all Char.isDigit && ofDigits ds ≤ limit then some (ofDigits ds) else none

theorem isDigit_of_mem_digits {n : Nat} {c : Char} (h : c ∈ digits n) : c.isDigit = true :=
  Nat.isDigit_of_mem_toDigits (by decide) (by decide) h

@[simp]
theorem digits_ne_nil (n : Nat) : digits n ≠ [] := Nat.toDigits_ne_nil

@[simp]
theorem ofDigits_digits (n : Nat) : ofDigits (digits n) = n :=
  Nat.ofDigitChars_toDigits (by decide) (by decide)

theorem isDigit_of_mem_padded {w n : Nat} {c : Char} (h : c ∈ padded w n) :
    c.isDigit = true := by
  rcases List.mem_append.mp h with h | h
  · rw [List.eq_of_mem_replicate h]; rfl
  · exact isDigit_of_mem_digits h

@[simp]
theorem ofDigits_zeros_append (k : Nat) (ds : List Char) :
    ofDigits (List.replicate k '0' ++ ds) = ofDigits ds := by
  induction k with
  | zero => rfl
  | succ k ih => rw [List.replicate_succ, List.cons_append]; exact ih

@[simp]
theorem ofDigits_padded (w n : Nat) : ofDigits (padded w n) = n := by
  simp [padded]

theorem unsigned?_digits {limit n : Nat} (h : n ≤ limit) :
    unsigned? limit (digits n) = some n := by
  have hdigits : (digits n).all Char.isDigit = true :=
    List.all_eq_true.mpr fun c hc => isDigit_of_mem_digits hc
  have hnumber := ofDigits_digits n
  unfold unsigned?
  split
  · next r hplus =>
    rw [hplus] at hdigits
    cases hdigits
  · next hplus =>
    have hempty : (digits n).isEmpty = false :=
      List.isEmpty_eq_false_iff.mpr (digits_ne_nil n)
    simp [hempty, hdigits, hnumber, h]

end AccessLedger.Text
