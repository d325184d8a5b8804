/-!
# Base64

The standard alphabet with padding.  `decode` accepts exactly what `encode`
produces (`decode_eq_some_iff`): padding is required and the bits it leaves
over must be zero.
-/

namespace AccessLedger.Text.Base64

/-- The digit of a value below 64. -/
def digit (n : Nat) : Char :=
  if n < 26 then Char.ofNat (0x41 + n)
  else if n < 52 then Char.ofNat (0x61 + (n - 26))
  else if n < 62 then Char.ofNat (0x30 + (n - 52))
  else if n = 62 then '+' else '/'

/-- The value of a digit. -/
def value? (c : Char) : Option Nat :=
  if 'A' ≤ c ∧ c ≤ 'Z' then some (c.toNat - 0x41)
  else if 'a' ≤ c ∧ c ≤ 'z' then some (c.toNat - 0x61 + 26)
  else if '0' ≤ c ∧ c ≤ '9' then some (c.toNat - 0x30 + 52)
  else if c = '+' then some 62
  else if c = '/' then some 63
  else none

/-- Four digits for every three bytes, the last group filled up with `=`. -/
def encode : List UInt8 → List Char
  | [] => []
  | [a] => [digit (a.toNat / 4), digit (a.toNat % 4 * 16), '=', '=']
  | [a, b] =>
    [digit (a.toNat / 4), digit (a.toNat % 4 * 16 + b.toNat / 16), digit (b.toNat % 16 * 4), '=']
  | a :: b :: c :: r =>
    digit (a.toNat / 4) :: digit (a.toNat % 4 * 16 + b.toNat / 16) ::
      digit (b.toNat % 16 * 4 + c.toNat / 64) :: digit (c.toNat % 64) :: encode r

/-- The byte of a last group with two digits. -/
def decodeOne (w x : Nat) : Option (List UInt8) :=
  if x % 16 = 0 then some [UInt8.ofNat (w * 4 + x / 16)] else none

/-- The bytes of a last group with three digits. -/
def decodeTwo (w x y : Nat) : Option (List UInt8) :=
  if y % 4 = 0 then some [UInt8.ofNat (w * 4 + x / 16), UInt8.ofNat (x % 16 * 16 + y / 4)]
  else none

/-- The bytes of a full group. -/
def decodeThree (w x y z : Nat) : List UInt8 :=
  [UInt8.ofNat (w * 4 + x / 16), UInt8.ofNat (x % 16 * 16 + y / 4), UInt8.ofNat (y % 4 * 64 + z)]

/-- The bytes that a text stands for; `none` unless it is their encoding. -/
def decode : List Char → Option (List UInt8)
  | [] => some []
  | [a, b, '=', '='] => do decodeOne (← value? a) (← value? b)
  | [a, b, c, '='] => do decodeTwo (← value? a) (← value? b) (← value? c)
  | a :: b :: c :: d :: r => do
    let group := decodeThree (← value? a) (← value? b) (← value? c) (← value? d)
    return group ++ (← decode r)
  | _ => none

theorem value?_digit : ∀ {n : Nat}, n < 64 → value? (digit n) = some n := by
  decide +kernel

theorem ofNat_add_sub {c : Char} {low : Nat} (h : low ≤ c.toNat) :
    Char.ofNat (low + (c.toNat - low)) = c := by
  rw [Nat.add_sub_cancel' h, Char.ofNat_toNat]

/-- What has a value is the digit of that value. -/
theorem digit_of_value? {c : Char} {n : Nat} (h : value? c = some n) : n < 64 ∧ digit n = c := by
  unfold value? at h
  split at h
  · next hc =>
    have hlow : 0x41 ≤ c.toNat := hc.1
    have hhigh : c.toNat ≤ 0x5A := hc.2
    cases h
    rw [digit, if_pos (by omega), ofNat_add_sub hlow]
    exact ⟨by omega, rfl⟩
  split at h
  · next hc =>
    have hlow : 0x61 ≤ c.toNat := hc.1
    have hhigh : c.toNat ≤ 0x7A := hc.2
    cases h
    rw [digit, if_neg (by omega), if_pos (by omega), Nat.add_sub_cancel, ofNat_add_sub hlow]
    exact ⟨by omega, rfl⟩
  split at h
  · next hc =>
    have hlow : 0x30 ≤ c.toNat := hc.1
    have hhigh : c.toNat ≤ 0x39 := hc.2
    cases h
    rw [digit, if_neg (by omega), if_neg (by omega), if_pos (by omega), Nat.add_sub_cancel,
      ofNat_add_sub hlow]
    exact ⟨by omega, rfl⟩
  split at h
  · next hc =>
    cases h
    exact ⟨by decide, hc.symm⟩
  split at h
  · next hc =>
    cases h
    exact ⟨by decide, hc.symm⟩
  · cases h

theorem digit_ne_pad {n : Nat} (h : n < 64) : digit n ≠ '=' := by
  intro hpad
  have hvalue := value?_digit h
  rw [hpad] at hvalue
  cases hvalue

/-! The bytes of a group are those that its digits were made of, and the other way round. -/

theorem ofNat_eq (a : UInt8) {n : Nat} (h : n = a.toNat) : UInt8.ofNat n = a := by
  rw [h, UInt8.ofNat_toNat]

theorem toNat_ofNat {n : Nat} (h : n < 256) : (UInt8.ofNat n).toNat = n :=
  UInt8.toNat_ofNat_of_lt' h

@[simp]
theorem decodeOne_sextets (a : UInt8) : decodeOne (a.toNat / 4) (a.toNat % 4 * 16) = some [a] := by
  rw [decodeOne, if_pos (by omega), ofNat_eq a (by omega)]

@[simp]
theorem decodeTwo_sextets (a b : UInt8) :
    decodeTwo (a.toNat / 4) (a.toNat % 4 * 16 + b.toNat / 16) (b.toNat % 16 * 4) =
      some [a, b] := by
  have hb := b.toNat_lt
  rw [decodeTwo, if_pos (by omega), ofNat_eq a (by omega), ofNat_eq b (by omega)]

@[simp]
theorem decodeThree_sextets (a b c : UInt8) :
    decodeThree (a.toNat / 4) (a.toNat % 4 * 16 + b.toNat / 16) (b.toNat % 16 * 4 + c.toNat / 64)
      (c.toNat % 64) = [a, b, c] := by
  have hb := b.toNat_lt
  have hc := c.toNat_lt
  rw [decodeThree, ofNat_eq a (by omega), ofNat_eq b (by omega), ofNat_eq c (by omega)]

section

variable {w x y z : Nat} {bs : List UInt8}

theorem encode_of_decodeOne (hw : w < 64) (hx : x < 64) (h : decodeOne w x = some bs) :
    encode bs = [digit w, digit x, '=', '='] := by
  unfold decodeOne at h
  split at h
  · next hspare =>
    cases h
    have hfirst : (w * 4 + x / 16) / 4 = w := by omega
    have hsecond : (w * 4 + x / 16) % 4 * 16 = x := by omega
    rw [encode, toNat_ofNat (by omega), hfirst, hsecond]
  · cases h

theorem encode_of_decodeTwo (hw : w < 64) (hx : x < 64) (hy : y < 64)
    (h : decodeTwo w x y = some bs) : encode bs = [digit w, digit x, digit y, '='] := by
  unfold decodeTwo at h
  split at h
  · next hspare =>
    cases h
    have hfirst : (w * 4 + x / 16) / 4 = w := by omega
    have hsecond : (w * 4 + x / 16) % 4 * 16 + (x % 16 * 16 + y / 4) / 16 = x := by omega
    have hthird : (x % 16 * 16 + y / 4) % 16 * 4 = y := by omega
    rw [encode, toNat_ofNat (by omega), toNat_ofNat (by omega), hfirst, hsecond, hthird]
  · cases h

theorem encode_decodeThree_append (hw : w < 64) (hx : x < 64) (hy : y < 64) (hz : z < 64) :
    encode (decodeThree w x y z ++ bs) =
      digit w :: digit x :: digit y :: digit z :: encode bs := by
  have hfirst : (w * 4 + x / 16) / 4 = w := by omega
  have hsecond : (w * 4 + x / 16) % 4 * 16 + (x % 16 * 16 + y / 4) / 16 = x := by omega
  have hthird : (x % 16 * 16 + y / 4) % 16 * 4 + (y % 4 * 64 + z) / 64 = y := by omega
  have hfourth : (y % 4 * 64 + z) % 64 = z := by omega
  rw [decodeThree, List.cons_append, List.cons_append, List.cons_append, List.nil_append, encode,
    toNat_ofNat (by omega), toNat_ofNat (by omega), toNat_ofNat (by omega), hfirst, hsecond,
    hthird, hfourth]

end

/-- An encoding has no other characters than digits and padding. -/
theorem all_encode {p : Char → Bool} (hdigit : ∀ n < 64, p (digit n) = true) (hpad : p '=' = true)
    (bs : List UInt8) : (encode bs).all p = true := by
  fun_induction encode bs with
  | case1 => rfl
  | case2 a =>
    have ha := a.toNat_lt
    simp [hpad, hdigit (a.toNat / 4) (by omega), hdigit (a.toNat % 4 * 16) (by omega)]
  | case3 a b =>
    have ha := a.toNat_lt
    have hb := b.toNat_lt
    simp [hpad, hdigit (a.toNat / 4) (by omega),
      hdigit (a.toNat % 4 * 16 + b.toNat / 16) (by omega), hdigit (b.toNat % 16 * 4) (by omega)]
  | case4 a b c r ih =>
    have ha := a.toNat_lt
    have hb := b.toNat_lt
    have hc := c.toNat_lt
    simp only [List.all_cons, ih, hdigit (a.toNat / 4) (by omega),
      hdigit (a.toNat % 4 * 16 + b.toNat / 16) (by omega),
      hdigit (b.toNat % 16 * 4 + c.toNat / 64) (by omega), hdigit (c.toNat % 64) (by omega),
      Bool.and_self]

/-- What is encoded is decoded to what it was. -/
@[simp]
theorem decode_encode (bs : List UInt8) : decode (encode bs) = some bs := by
  fun_induction encode bs with
  | case1 => rfl
  | case2 a =>
    have ha := a.toNat_lt
    rw [decode, value?_digit (by omega), value?_digit (by omega)]
    exact decodeOne_sextets a
  | case3 a b =>
    have ha := a.toNat_lt
    have hb := b.toNat_lt
    rw [decode, value?_digit (by omega), value?_digit (by omega), value?_digit (by omega)]
    · exact decodeTwo_sextets a b
    · exact digit_ne_pad (by omega)
  | case4 a b c r ih =>
    have ha := a.toNat_lt
    have hb := b.toNat_lt
    have hc := c.toNat_lt
    rw [decode, value?_digit (by omega), value?_digit (by omega), value?_digit (by omega),
      value?_digit (by omega), ih]
    · simp only [Option.bind_eq_bind, Option.bind_some, decodeThree_sextets]
      rfl
    · exact fun hpad => absurd hpad (digit_ne_pad (by omega))
    · exact fun hpad => absurd hpad (digit_ne_pad (by omega))

/-- A text that can be decoded is the encoding of what it is decoded to. -/
theorem eq_encode_of_decode {cs : List Char} {bs : List UInt8} (h : decode cs = some bs) :
    cs = encode bs := by
  fun_induction decode cs generalizing bs with
  | case1 =>
    cases h
    rfl
  | case2 a b =>
    simp only [Option.bind_eq_bind, Option.bind_eq_some_iff] at h
    obtain ⟨w, hvw, x, hvx, h⟩ := h
    obtain ⟨hw, rfl⟩ := digit_of_value? hvw
    obtain ⟨hx, rfl⟩ := digit_of_value? hvx
    exact (encode_of_decodeOne hw hx h).symm
  | case3 a b c =>
    simp only [Option.bind_eq_bind, Option.bind_eq_some_iff] at h
    obtain ⟨w, hvw, x, hvx, y, hvy, h⟩ := h
    obtain ⟨hw, rfl⟩ := digit_of_value? hvw
    obtain ⟨hx, rfl⟩ := digit_of_value? hvx
    obtain ⟨hy, rfl⟩ := digit_of_value? hvy
    exact (encode_of_decodeTwo hw hx hy h).symm
  | case4 a b c d r _ _ ih =>
    simp only [Option.bind_eq_bind, Option.bind_eq_some_iff] at h
    obtain ⟨w, hvw, x, hvx, y, hvy, z, hvz, rest, hrest, h⟩ := h
    obtain ⟨hw, rfl⟩ := digit_of_value? hvw
    obtain ⟨hx, rfl⟩ := digit_of_value? hvx
    obtain ⟨hy, rfl⟩ := digit_of_value? hvy
    obtain ⟨hz, rfl⟩ := digit_of_value? hvz
    cases h
    rw [encode_decodeThree_append hw hx hy hz, ih hrest]
  | case5 => cases h

theorem decode_eq_some_iff {cs : List Char} {bs : List UInt8} :
    decode cs = some bs ↔ cs = encode bs := by
  constructor
  · exact eq_encode_of_decode
  · rintro rfl
    exact decode_encode bs

example : encode [102, 111, 111, 98] = "Zm9vYg==".toList := by decide +kernel

end AccessLedger.Text.Base64
