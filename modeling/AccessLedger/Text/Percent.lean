import AccessLedger.Text.Utf8

/-!
# Percent escapes

`encode` keeps ASCII letters, digits and `-`, `.`, `_`, `*` and writes every
other byte of a text as `%XX`.  `decode` undoes escapes one by one and leaves
a `%` alone that no two hexadecimal digits follow; what it yields has to be
UTF-8.  Decoding an encoded text gives that text (`decode_encode`), and an
encoded text consists of kept characters and escapes (`escaped_encode`).
-/

namespace AccessLedger.Text.Percent

/-- The byte of the sign that starts an escape. -/
def percentSign : UInt8 := 0x25

/-- The bytes that are written as themselves. -/
def isPlain (b : UInt8) : Bool :=
  (0x30 ≤ b && b ≤ 0x39) || (0x41 ≤ b && b ≤ 0x5A) || (0x61 ≤ b && b ≤ 0x7A) ||
    b == 0x2D || b == 0x2E || b == 0x5F || b == 0x2A

/-- The upper-case hexadecimal digit of a value below 16. -/
def hexDigit (n : UInt8) : UInt8 := if n < 10 then 0x30 + n else 0x37 + n

/-- The value of a hexadecimal digit of either case. -/
def hexValue? (b : UInt8) : Option UInt8 :=
  if 0x30 ≤ b && b ≤ 0x39 then some (b - 0x30)
  else if 0x41 ≤ b && b ≤ 0x46 then some (b - 0x37)
  else if 0x61 ≤ b && b ≤ 0x66 then some (b - 0x57)
  else none

/-- How a byte is written. -/
def encodeByte (b : UInt8) : List UInt8 :=
  if isPlain b then [b] else [percentSign, hexDigit (b / 16), hexDigit (b % 16)]

/-- The byte that three bytes are the escape of. -/
def escaped? (sign high low : UInt8) : Option UInt8 :=
  if sign = percentSign then
    match hexValue? high, hexValue? low with
    | some h, some l => some (h * 16 + l)
    | _, _ => none
  else none

/-- Undo the escapes in a row of bytes. -/
def decodeBytes : List UInt8 → List UInt8
  | sign :: high :: low :: rest =>
    match escaped? sign high low with
    | some b => b :: decodeBytes rest
    | none => sign :: decodeBytes (high :: low :: rest)
  | short => short

/-- The character of an ASCII byte. -/
def asciiChar (b : UInt8) : Char := Char.ofNat b.toNat

/-- A text with everything but unreserved characters escaped. -/
def encode (s : String) : String :=
  String.ofList (((Text.bytes s).flatMap encodeByte).map asciiChar)

/-- The text that an escaped text stands for, if it is UTF-8. -/
def decode (s : List Char) : Option String :=
  Text.ofBytes? (decodeBytes (Text.bytes (String.ofList s)))

@[simp]
theorem escaped?_encodeByte (b : UInt8) :
    escaped? percentSign (hexDigit (b / 16)) (hexDigit (b % 16)) = some b := by
  have h : ∀ n : Fin 256, escaped? percentSign (hexDigit (UInt8.ofNat n / 16))
      (hexDigit (UInt8.ofNat n % 16)) = some (UInt8.ofNat n) := by decide +kernel
  simpa using h ⟨b.toNat, b.toNat_lt⟩

theorem encodeByte_lt (b : UInt8) : ∀ c ∈ encodeByte b, c < 0x80 := by
  have h : ∀ n < 256, (encodeByte (UInt8.ofNat n)).all (· < 0x80) = true := by decide +kernel
  have hb := h b.toNat b.toNat_lt
  rw [UInt8.ofNat_toNat] at hb
  exact fun c hc => of_decide_eq_true (List.all_eq_true.mp hb c hc)

@[simp]
theorem decodeBytes_encodeByte_append (b : UInt8) (r : List UInt8) :
    decodeBytes (encodeByte b ++ r) = b :: decodeBytes r := by
  unfold encodeByte
  split
  · next h =>
    have hb : b ≠ percentSign := by rintro rfl; simp [isPlain, percentSign] at h
    match r with
    | [] => simp [decodeBytes]
    | [x] => simp [decodeBytes]
    | x :: y :: r => simp [decodeBytes, escaped?, hb]
  · simp [decodeBytes]

/-- Decoding undoes encoding, byte by byte. -/
@[simp]
theorem decodeBytes_flatMap_encodeByte (bs : List UInt8) :
    decodeBytes (bs.flatMap encodeByte) = bs := by
  induction bs with
  | nil => rfl
  | cons b r ih => simp [ih]

theorem toNat_asciiChar {b : UInt8} (h : b < 0x80) : (asciiChar b).toNat = b.toNat := by
  have hb : b.toNat < 128 := h
  have hv : b.toNat.isValidChar := Or.inl (by omega)
  rw [asciiChar, Char.ofNat, dif_pos hv]
  rfl

/-- The bytes of an encoded text are the escapes of the bytes of the text. -/
@[simp]
theorem bytes_encode (s : String) : bytes (encode s) = (bytes s).flatMap encodeByte := by
  have h : ∀ b ∈ (bytes s).flatMap encodeByte, b < 0x80 := fun b hb => by
    obtain ⟨a, _, hba⟩ := List.mem_flatMap.mp hb
    exact encodeByte_lt a b hba
  rw [encode, bytes_ofList_ascii, List.map_map]
  · refine (List.map_congr_left fun b hb => ?_).trans (List.map_id _)
    rw [Function.comp_apply, toNat_asciiChar (h b hb)]
    simp
  · intro c hc
    obtain ⟨b, hb, rfl⟩ := List.mem_map.mp hc
    rw [toNat_asciiChar (h b hb)]
    exact h b hb

/-- Decoding an encoded text gives that text. -/
@[simp]
theorem decode_encode (s : String) : decode (encode s).toList = some s := by
  simp [decode]

theorem decodeBytes_of_not_mem {bs : List UInt8} (h : percentSign ∉ bs) :
    decodeBytes bs = bs := by
  fun_induction decodeBytes bs with
  | case1 sign high low rest b hescaped ih =>
    have hsign : sign ≠ percentSign := fun hsign => h (hsign ▸ List.mem_cons_self)
    rw [escaped?, if_neg hsign] at hescaped
    cases hescaped
  | case2 sign high low rest hescaped ih =>
    rw [ih fun hin => h (List.mem_cons_of_mem sign hin)]
  | case3 bs hshort => rfl

theorem toNat_of_isDigit {c : Char} (h : c.isDigit = true) :
    0x30 ≤ c.toNat ∧ c.toNat ≤ 0x39 := by
  simp only [Char.isDigit, Bool.and_eq_true, decide_eq_true_eq] at h
  exact h

/-- Digits stand for themselves. -/
theorem decode_digits {cs : List Char} (h : ∀ c ∈ cs, c.isDigit = true) :
    decode cs = some (String.ofList cs) := by
  have hascii : ∀ c ∈ cs, c.toNat < 0x80 := by
    intro c hc
    have hle := (toNat_of_isDigit (h c hc)).2
    omega
  have hplain : percentSign ∉ bytes (String.ofList cs) := by
    rw [bytes_ofList_ascii hascii]
    intro hin
    obtain ⟨c, hc, hsign⟩ := List.mem_map.mp hin
    obtain ⟨hlow, hhigh⟩ := toNat_of_isDigit (h c hc)
    have hcode : c.toNat = 0x25 := by
      rw [← UInt8.toNat_ofNat_of_lt' (show c.toNat < 256 by omega), hsign]
      rfl
    omega
  simp [decode, decodeBytes_of_not_mem hplain]

/-! ## Which texts are encodings -/

/-- A text of ASCII letters, digits, the signs `-`, `.`, `_`, `*` and escapes `%XX`. -/
inductive Escaped : List Char → Prop
  | nil : Escaped []
  | plain {c : Char} {cs : List Char} (kept : c.isAlphanum = true ∨ c ∈ "-._*".toList)
      (rest : Escaped cs) : Escaped (c :: cs)
  | escape {high low : Char} {cs : List Char} (high_digit : high ∈ "0123456789ABCDEF".toList)
      (low_digit : low ∈ "0123456789ABCDEF".toList) (rest : Escaped cs) :
      Escaped ('%' :: high :: low :: cs)

theorem kept_of_isPlain {b : UInt8} (h : isPlain b = true) :
    (asciiChar b).isAlphanum = true ∨ asciiChar b ∈ "-._*".toList := by
  have hall : ∀ n < 256, isPlain (UInt8.ofNat n) = true →
      (asciiChar (UInt8.ofNat n)).isAlphanum = true ∨
        asciiChar (UInt8.ofNat n) ∈ "-._*".toList := by
    decide +kernel
  have hb := hall b.toNat b.toNat_lt
  rw [UInt8.ofNat_toNat] at hb
  exact hb h

theorem asciiChar_hexDigit_mem (b : UInt8) :
    asciiChar (hexDigit (b / 16)) ∈ "0123456789ABCDEF".toList ∧
      asciiChar (hexDigit (b % 16)) ∈ "0123456789ABCDEF".toList := by
  have hall : ∀ n < 256,
      asciiChar (hexDigit (UInt8.ofNat n / 16)) ∈ "0123456789ABCDEF".toList ∧
        asciiChar (hexDigit (UInt8.ofNat n % 16)) ∈ "0123456789ABCDEF".toList := by
    decide +kernel
  have hb := hall b.toNat b.toNat_lt
  rwa [UInt8.ofNat_toNat] at hb

theorem escaped_encode (s : String) : Escaped (encode s).toList := by
  rw [encode, String.toList_ofList]
  induction bytes s with
  | nil => exact .nil
  | cons b bs ih =>
    rw [List.flatMap_cons, List.map_append, encodeByte]
    split
    · next hplain => exact .plain (kept_of_isPlain hplain) ih
    · obtain ⟨hhigh, hlow⟩ := asciiChar_hexDigit_mem b
      exact .escape hhigh hlow ih

/-- An escaped text can stand between separators. -/
theorem Escaped.ne_separator {cs : List Char} (h : Escaped cs) :
    ∀ c ∈ cs, c ≠ '/' ∧ c ≠ '?' ∧ c ≠ '#' := by
  have hdigit : ∀ c ∈ "0123456789ABCDEF".toList, c ≠ '/' ∧ c ≠ '?' ∧ c ≠ '#' := by
    simp
  induction h with
  | nil => nofun
  | @plain c cs kept _ ih =>
    have hc : c ≠ '/' ∧ c ≠ '?' ∧ c ≠ '#' := by
      rcases kept with hc | hc
      · refine ⟨?_, ?_, ?_⟩ <;> rintro rfl <;> cases hc
      · revert c
        simp
    exact List.forall_mem_cons.mpr ⟨hc, ih⟩
  | escape high_digit low_digit _ ih =>
    simp only [List.forall_mem_cons]
    exact ⟨by decide, hdigit _ high_digit, hdigit _ low_digit, ih⟩

end AccessLedger.Text.Percent
