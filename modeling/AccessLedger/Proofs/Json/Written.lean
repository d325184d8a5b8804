import AccessLedger.Json.Reader
import AccessLedger.Json.Writer

/-!
# Reading what was written

A tree is plain if it holds only what codecs write: texts, truth values,
integers, and arrays and objects of these.  The reader takes the text of a
plain tree off the front of a longer text and gives the tree back
(`readValue_write`), provided that what follows cannot extend a number;
`readFront_write` is the case of a whole text.
-/

namespace AccessLedger.Json

/-! ## Numbers -/

/-- The text does not go on with a digit, a point or an exponent. -/
def EndsNumber (rest : List Char) : Prop :=
  ∀ c r, rest = c :: r → c.isDigit = false ∧ c ≠ '.' ∧ c ≠ 'e' ∧ c ≠ 'E'

theorem endsNumber_nil : EndsNumber [] := by
  intro c r h
  cases h

theorem endsNumber_cons {c : Char} {r : List Char}
    (h : c.isDigit = false ∧ c ≠ '.' ∧ c ≠ 'e' ∧ c ≠ 'E') : EndsNumber (c :: r) := by
  intro d s hds
  cases hds
  exact h

theorem takeWhile_isDigit_append {ds rest : List Char} (hd : ∀ c ∈ ds, c.isDigit = true)
    (hr : EndsNumber rest) : (ds ++ rest).takeWhile Char.isDigit = ds := by
  rw [List.takeWhile_append_of_pos hd]
  cases rest with
  | nil => simp
  | cons c r => simp [(hr c r rfl).1]

theorem dropWhile_isDigit_append {ds rest : List Char} (hd : ∀ c ∈ ds, c.isDigit = true)
    (hr : EndsNumber rest) : (ds ++ rest).dropWhile Char.isDigit = rest := by
  rw [List.dropWhile_append_of_pos hd]
  cases rest with
  | nil => simp
  | cons c r => simp [(hr c r rfl).1]

theorem digitChar_ne_zero {n : Nat} (h : 0 < n) (hn : n < 10) : n.digitChar ≠ '0' := by
  have hall : ∀ m < 10, 0 < m → m.digitChar ≠ '0' := by decide
  exact hall n hn h

/-- Only the number zero is written with a zero in front. -/
theorem head?_digits_of_pos {n : Nat} (h : 0 < n) : (Text.digits n).head? ≠ some '0' := by
  induction n using Nat.strongRecOn with
  | ind n ih =>
    unfold Text.digits
    by_cases hn : n < 10
    · rw [Nat.toDigits_of_lt_base hn]
      simpa using digitChar_ne_zero h hn
    · rw [Nat.toDigits_of_base_le (by decide) (by omega)]
      have hq := ih (n / 10) (by omega) (by omega)
      unfold Text.digits at hq
      cases hd : Nat.toDigits 10 (n / 10) with
      | nil => exact absurd hd Nat.toDigits_ne_nil
      | cons c ds => simpa [hd] using hq

theorem readDigits_digits (n : Nat) {rest : List Char} (hr : EndsNumber rest) :
    readDigits (Text.digits n ++ rest) = some (Text.digits n, rest) := by
  have hd : ∀ c ∈ Text.digits n, c.isDigit = true := fun c hc => Text.isDigit_of_mem_digits hc
  unfold readDigits
  rw [takeWhile_isDigit_append hd hr, dropWhile_isDigit_append hd hr]
  split
  · next h => exact absurd h (Text.digits_ne_nil n)
  · rfl

theorem readWhole_digits (n : Nat) {rest : List Char} (hr : EndsNumber rest) :
    readWhole (Text.digits n ++ rest) = some (Text.digits n, rest) := by
  simp only [readWhole, readDigits_digits n hr, bind, Option.bind]
  by_cases hn : n = 0
  · subst hn
    rfl
  · simp [head?_digits_of_pos (Nat.pos_of_ne_zero hn)]

theorem readPlaces_of_endsNumber {rest : List Char} (hr : EndsNumber rest) :
    readPlaces rest = some ([], rest) := by
  unfold readPlaces
  split
  · next r => exact absurd rfl (hr '.' r rfl).2.1
  · rfl

theorem readPower_of_endsNumber {rest : List Char} (hr : EndsNumber rest) :
    readPower rest = some ([], rest) := by
  cases rest with
  | nil => rfl
  | cons c r =>
    obtain ⟨_, _, he, hE⟩ := hr c r rfl
    simp [readPower, he, hE]

theorem readUnsigned_digits (n : Nat) {rest : List Char} (hr : EndsNumber rest) :
    readUnsigned (Text.digits n ++ rest) = some (Text.digits n, [], rest) := by
  simp [readUnsigned, readWhole_digits n hr, readPlaces_of_endsNumber hr,
    readPower_of_endsNumber hr]

theorem head?_digits_ne_minus (n : Nat) : (Text.digits n).head? ≠ some '-' := by
  intro h
  have hd := Text.isDigit_of_mem_digits (List.mem_of_mem_head? h)
  exact absurd hd (by decide)

theorem readNumber_signedDigits (i : Int) {rest : List Char} (hr : EndsNumber rest) :
    readNumber (Text.signedDigits i ++ rest) = some (.integer i, rest) := by
  cases i with
  | ofNat n =>
    have hn : Nat.ofDigitChars 10 (Text.digits n) 0 = n := Text.ofDigits_digits n
    simp only [Text.signedDigits]
    unfold readNumber
    split
    · next r h =>
      have hne := head?_digits_ne_minus n
      cases hd : Text.digits n with
      | nil => exact absurd hd (Text.digits_ne_nil n)
      | cons c ds =>
        rw [hd, List.cons_append, List.cons.injEq] at h
        rw [hd, List.head?_cons, h.1] at hne
        exact absurd rfl hne
    · simp [readUnsigned_digits n hr, hn]
  | negSucc n =>
    have hn : Nat.ofDigitChars 10 (Text.digits (n + 1)) 0 = n + 1 := Text.ofDigits_digits (n + 1)
    simp only [Text.signedDigits, List.cons_append, readNumber, readUnsigned_digits (n + 1) hr,
      bind, Option.bind, hn]
    rfl

/-! ## Strings -/

theorem hexValue?_hexDigit : ∀ n < 16, hexValue? (hexDigit n) = some n := by
  decide

/-- The element that a character is written as in a string. -/
def pieceOf (c : Char) : Piece :=
  if c.toNat < 0x20 ∧ c ≠ '\x08' ∧ c ≠ '\x0c' ∧ c ≠ '\n' ∧ c ≠ '\r' ∧ c ≠ '\t' then .unit c.toNat
  else .char c

theorem pieceOf_of_le {c : Char} (h : ¬c.toNat < 0x20) : pieceOf c = .char c := by
  simp [pieceOf, h]

theorem readPieces_shortEscape {e c : Char} (he : shortEscape? e = some c) (hu : e ≠ 'u')
    (cs : List Char) :
    readPieces ('\\' :: e :: cs) = (readPieces cs).map fun (ps, rest) => (.char c :: ps, rest) := by
  rw [readPieces.eq_def]
  split
  · contradiction
  · next h => cases h
  · next h =>
    rw [List.cons.injEq, List.cons.injEq] at h
    exact absurd h.2.1 hu
  · next h =>
    rw [List.cons.injEq, List.cons.injEq] at h
    obtain ⟨_, rfl, rfl⟩ := h
    rw [he]
    cases readPieces cs <;> rfl
  · next h hs =>
    rw [List.cons.injEq] at hs
    exact (h e cs hs.1.symm hs.2.symm).elim

theorem readPieces_char {c : Char} (hq : c ≠ '"') (hb : c ≠ '\\') (hc : ¬c.toNat < 0x20)
    (cs : List Char) :
    readPieces (c :: cs) = (readPieces cs).map fun (ps, rest) => (.char c :: ps, rest) := by
  rw [readPieces.eq_def]
  split
  · contradiction
  · next h => exact absurd (List.cons.inj h).1 hq
  · next h => exact absurd (List.cons.inj h).1 hb
  · next h => exact absurd (List.cons.inj h).1 hb
  · next hs =>
    obtain ⟨rfl, rfl⟩ := List.cons.inj hs
    simp only [hc, hb, decide_false, Bool.or_self, Bool.false_eq_true, if_false]
    cases readPieces cs <;> rfl

theorem readPieces_hexEscape {a b c d : Char} {u : Nat} (h : hexUnit? a b c d = some u)
    (cs : List Char) :
    readPieces ('\\' :: 'u' :: a :: b :: c :: d :: cs) =
      (readPieces cs).map fun (ps, rest) => (.unit u :: ps, rest) := by
  change (do
    let u ← hexUnit? a b c d
    let (ps, rest) ← readPieces cs
    return (Piece.unit u :: ps, rest)) = _
  rw [h]
  cases readPieces cs <;> rfl

@[simp]
theorem readPieces_quote (cs : List Char) : readPieces ('"' :: cs) = some ([], cs) := rfl

@[simp]
theorem readPieces_escapeChar (c : Char) (cs : List Char) :
    readPieces (escapeChar c ++ cs) =
      (readPieces cs).map fun (ps, rest) => (pieceOf c :: ps, rest) := by
  unfold escapeChar
  split
  · subst_vars; exact readPieces_shortEscape rfl (by decide) cs
  split
  · subst_vars; exact readPieces_shortEscape rfl (by decide) cs
  split
  · subst_vars; exact readPieces_shortEscape rfl (by decide) cs
  split
  · subst_vars; exact readPieces_shortEscape rfl (by decide) cs
  split
  · subst_vars; exact readPieces_shortEscape rfl (by decide) cs
  split
  · subst_vars; exact readPieces_shortEscape rfl (by decide) cs
  split
  · subst_vars; exact readPieces_shortEscape rfl (by decide) cs
  split
  · next hb hf hn hr ht hc =>
    have h1 := hexValue?_hexDigit (c.toNat / 16) (by omega)
    have h2 := hexValue?_hexDigit (c.toNat % 16) (by omega)
    have hu : hexUnit? '0' '0' (hexDigit (c.toNat / 16)) (hexDigit (c.toNat % 16)) =
        some c.toNat := by
      simp only [hexUnit?, h1, h2, show hexValue? '0' = some 0 from rfl]
      exact congrArg some (by omega)
    have hp : pieceOf c = .unit c.toNat := by simp [pieceOf, hb, hf, hn, hr, ht, hc]
    simp only [List.cons_append, List.nil_append, readPieces_hexEscape hu, hp]
  · next hq hs _ _ _ _ _ hc =>
    rw [pieceOf_of_le hc]
    exact readPieces_char hq hs hc cs

@[simp]
theorem readPieces_escaped (cs rest : List Char) :
    readPieces (cs.flatMap escapeChar ++ '"' :: rest) = some (cs.map pieceOf, rest) := by
  induction cs with
  | nil => simp
  | cons c cs ih => simp [ih]

/-- What a control character is written as is no half of a surrogate pair. -/
theorem not_half_of_lt {u : Nat} (h : u < 0x20) : (isHighHalf u || isLowHalf u) = false := by
  simp [isHighHalf, isLowHalf]
  omega

theorem assemble_unit_cons {u : Nat} (h : u < 0x20) (ps : List Piece) :
    assemble (.unit u :: ps) = (assemble ps).map (Char.ofNat u :: ·) := by
  have hh := not_half_of_lt h
  obtain ⟨hhigh, hlow⟩ := Bool.or_eq_false_iff.mp hh
  cases ps with
  | nil => simp [assemble, hh]
  | cons p ps =>
    cases p with
    | char c => simp [assemble, hh]
    | unit v => simp [assemble, hhigh, hlow]

theorem assemble_char (c : Char) (ps : List Piece) :
    assemble (.char c :: ps) = (assemble ps).map (c :: ·) := rfl

@[simp]
theorem assemble_pieceOf (cs : List Char) : assemble (cs.map pieceOf) = some cs := by
  induction cs with
  | nil => rfl
  | cons c cs ih =>
    rw [List.map_cons]
    by_cases hc : c.toNat < 0x20 ∧ c ≠ '\x08' ∧ c ≠ '\x0c' ∧ c ≠ '\n' ∧ c ≠ '\r' ∧ c ≠ '\t'
    · rw [pieceOf, if_pos hc, assemble_unit_cons hc.1, ih, Option.map_some, Char.ofNat_toNat]
    · rw [pieceOf, if_neg hc, assemble_char, ih, Option.map_some]

@[simp]
theorem readString_escaped (s : String) (rest : List Char) :
    readString (s.toList.flatMap escapeChar ++ '"' :: rest) = some (some s, rest) := by
  simp [readString]

/-! ## Values -/

mutual

/-- Whether a tree holds only what codecs write. -/
def isPlain : Json → Bool
  | .null => true
  | .bool _ => true
  | .integer _ => true
  | .fraction _ => false
  | .string s => s.isSome
  | .array items => plainItems items
  | .object members => plainMembers members
  | .broken => false
  | .misnamed _ => false

/-- `isPlain` of each item. -/
def plainItems : List Json → Bool
  | [] => true
  | j :: r => j.isPlain && plainItems r

/-- `isPlain` of each member, which has a name. -/
def plainMembers : List (Option String × Json) → Bool
  | [] => true
  | (k, j) :: r => k.isSome && j.isPlain && plainMembers r

end

/-- The first character of a text, which is no blank, opens a value that is no number. -/
def Opens (c : Char) : Prop := c = '[' ∨ c = '\x7b' ∨ c = '"' ∨ c = 'n' ∨ c = 't' ∨ c = 'f'

theorem digit_ne {c : Char} (h : c.isDigit = true ∨ c = '-') : isBlank c = false ∧ ¬Opens c := by
  constructor
  · cases hb : isBlank c with
    | false => rfl
    | true =>
      simp only [isBlank, Bool.or_eq_true, beq_iff_eq] at hb
      rcases hb with ((rfl | rfl) | rfl) | rfl <;> revert h <;> decide
  · rintro (rfl | rfl | rfl | rfl | rfl | rfl) <;> revert h <;> decide

theorem skipBlanks_cons {c : Char} (h : isBlank c = false) (cs : List Char) :
    skipBlanks (c :: cs) = c :: cs := by
  simp [skipBlanks, h]

theorem signedDigits_cons (i : Int) :
    ∃ c cs, Text.signedDigits i = c :: cs ∧ (c.isDigit = true ∨ c = '-') := by
  cases i with
  | ofNat n =>
    cases hd : Text.digits n with
    | nil => exact absurd hd (Text.digits_ne_nil n)
    | cons c cs =>
      refine ⟨c, cs, hd, .inl (Text.isDigit_of_mem_digits (n := n) ?_)⟩
      rw [hd]
      exact List.mem_cons_self
  | negSucc n => exact ⟨'-', _, rfl, .inr rfl⟩

theorem readValue_bracket (n : Nat) {c : Char} {cs : List Char} (hb : isBlank c = false)
    (hclose : c ≠ ']') : readValue (n + 1) ('[' :: c :: cs) =
      (.array (readItems n (c :: cs)).1, (readItems n (c :: cs)).2) := by
  rw [readValue, skipBlanks_cons rfl]
  simp only [skipBlanks_cons hb]
  split
  · next e => exact absurd (List.cons.inj e).1 hclose
  · rfl

theorem readValue_brace (n : Nat) (cs : List Char) :
    readValue (n + 1) ('\x7b' :: '"' :: cs) =
      (.object (readMembers n ('"' :: cs)).1, (readMembers n ('"' :: cs)).2) := rfl

theorem readValue_quote (n : Nat) (cs : List Char) :
    readValue (n + 1) ('"' :: cs) = match readString cs with
      | some (s, r) => (.string s, some r)
      | none => (.broken, none) := rfl

theorem readValue_number {n : Nat} {c : Char} {cs : List Char}
    (h : c.isDigit = true ∨ c = '-') :
    readValue (n + 1) (c :: cs) = match readNumber (c :: cs) with
      | some (j, r) => (j, some r)
      | none => (.broken, none) := by
  obtain ⟨hb, ho⟩ := digit_ne h
  rw [readValue, skipBlanks_cons hb]
  split
  · next e => exact absurd (.inl (List.cons.inj e).1) ho
  · next e => exact absurd (.inr (.inl (List.cons.inj e).1)) ho
  · next e => exact absurd (.inr (.inr (.inl (List.cons.inj e).1))) ho
  · next e => exact absurd (.inr (.inr (.inr (.inl (List.cons.inj e).1)))) ho
  · next e => exact absurd (.inr (.inr (.inr (.inr (.inl (List.cons.inj e).1))))) ho
  · next e => exact absurd (.inr (.inr (.inr (.inr (.inr (List.cons.inj e).1))))) ho
  · rfl

theorem readValue_signedDigits (n : Nat) (i : Int) {rest : List Char} (hr : EndsNumber rest) :
    readValue (n + 1) (Text.signedDigits i ++ rest) = (.integer i, some rest) := by
  obtain ⟨c, cs, hc, h⟩ := signedDigits_cons i
  have hn := readNumber_signedDigits i hr
  rw [hc, List.cons_append] at hn ⊢
  rw [readValue_number h, hn]

-- By computation: the equation lemmas of `write` would compare the literals of its other cases.

@[simp]
theorem write_integer (i : Int) : write (.integer i) = Text.signedDigits i := rfl

@[simp]
theorem write_string (s : Option String) : write (.string s) = writeLabel s := rfl

@[simp]
theorem write_array (items : List Json) :
    write (.array items) = '[' :: (writeItems items ++ [']']) := rfl

@[simp]
theorem write_object (members : List (Option String × Json)) :
    write (.object members) = '\x7b' :: (writeMembers members ++ ['\x7d']) := rfl

@[simp]
theorem writeItems_singleton (j : Json) : writeItems [j] = write j := rfl

@[simp]
theorem writeItems_cons_cons (j k : Json) (r : List Json) :
    writeItems (j :: k :: r) = write j ++ ',' :: writeItems (k :: r) := rfl

@[simp]
theorem writeMembers_singleton (k : Option String) (j : Json) :
    writeMembers [(k, j)] = writeLabel k ++ ':' :: write j := rfl

@[simp]
theorem writeMembers_cons_cons (k : Option String) (j : Json) (m : Option String × Json)
    (r : List (Option String × Json)) : writeMembers ((k, j) :: m :: r) =
      writeLabel k ++ ':' :: (write j ++ ',' :: writeMembers (m :: r)) := rfl

/-- The text of a plain tree starts with a character that is no blank and closes nothing. -/
theorem write_cons {j : Json} (hj : j.isPlain = true) :
    ∃ c cs, write j = c :: cs ∧ isBlank c = false ∧ c ≠ ']' := by
  cases j with
  | null => exact ⟨'n', _, rfl, by decide, by decide⟩
  | bool b => cases b <;> exact ⟨_, _, rfl, by decide, by decide⟩
  | integer i =>
    obtain ⟨c, cs, hc, h⟩ := signedDigits_cons i
    refine ⟨c, cs, by rw [write_integer, hc], (digit_ne h).1, ?_⟩
    rintro rfl
    revert h
    decide
  | string s =>
    cases s with
    | none => cases hj
    | some s => exact ⟨'"', _, rfl, by decide, by decide⟩
  | array items => exact ⟨'[', _, rfl, by decide, by decide⟩
  | object members => exact ⟨'\x7b', _, rfl, by decide, by decide⟩
  | fraction t => cases hj
  | broken => cases hj
  | misnamed k => cases hj

theorem endsNumber_close {c : Char} (h : c = ',' ∨ c = ']' ∨ c = '\x7d') (r : List Char) :
    EndsNumber (c :: r) := by
  apply endsNumber_cons
  rcases h with rfl | rfl | rfl <;> decide

@[simp]
theorem writeLabel_some (s : String) :
    writeLabel (some s) = '"' :: (s.toList.flatMap escapeChar ++ ['"']) := rfl

/-- `n` steps suffice for the text of a plain tree of at most half as many characters. -/
def ReadsValues (n : Nat) : Prop :=
  ∀ (j : Json) (rest : List Char), j.isPlain = true → EndsNumber rest →
    2 * (write j).length ≤ n → readValue n (write j ++ rest) = (j, some rest)

/-- `n` steps suffice for the texts of plain items up to the closing bracket. -/
def ReadsItems (n : Nat) : Prop :=
  ∀ (j : Json) (items : List Json) (rest : List Char), plainItems (j :: items) = true →
    2 * (writeItems (j :: items)).length + 2 ≤ n →
    readItems n (writeItems (j :: items) ++ ']' :: rest) = (j :: items, some rest)

/-- `n` steps suffice for the texts of plain members up to the closing brace. -/
def ReadsMembers (n : Nat) : Prop :=
  ∀ (m : Option String × Json) (members : List (Option String × Json)) (rest : List Char),
    plainMembers (m :: members) = true → 2 * (writeMembers (m :: members)).length + 2 ≤ n →
    readMembers n (writeMembers (m :: members) ++ '\x7d' :: rest) = (m :: members, some rest)

theorem writeItems_cons (j : Json) (items : List Json) :
    ∃ tail, writeItems (j :: items) = write j ++ tail := by
  cases items with
  | nil => exact ⟨[], (List.append_nil _).symm⟩
  | cons k r => exact ⟨_, rfl⟩

theorem readValue_array {n : Nat} (h : ReadsItems n) (items : List Json) (rest : List Char)
    (hi : plainItems items = true) (hn : 2 * (writeItems items).length + 2 ≤ n) :
    readValue (n + 1) (write (.array items) ++ rest) = (.array items, some rest) := by
  cases items with
  | nil => rfl
  | cons j items =>
    have ih := h j items rest hi hn
    obtain ⟨c, cs, hc, hb, hclose⟩ := write_cons (Bool.and_eq_true_iff.mp hi).1
    obtain ⟨tail, ht⟩ := writeItems_cons j items
    rw [ht, hc, List.cons_append, List.cons_append] at ih
    have htext : write (.array (j :: items)) ++ rest = '[' :: c :: (cs ++ tail ++ ']' :: rest) := by
      simp [ht, hc]
    rw [htext, readValue_bracket n hb hclose, ih]

theorem writeMembers_cons (k : String) (j : Json) (members : List (Option String × Json)) :
    ∃ cs, writeMembers ((some k, j) :: members) = '"' :: cs := by
  cases members with
  | nil => exact ⟨_, rfl⟩
  | cons m r => exact ⟨_, rfl⟩

theorem readValue_object {n : Nat} (h : ReadsMembers n) (members : List (Option String × Json))
    (rest : List Char) (hm : plainMembers members = true)
    (hn : 2 * (writeMembers members).length + 2 ≤ n) :
    readValue (n + 1) (write (.object members) ++ rest) = (.object members, some rest) := by
  cases members with
  | nil => rfl
  | cons m members =>
    have ih := h m members rest hm hn
    obtain ⟨k, j⟩ := m
    cases k with
    | none => cases hm
    | some k =>
      obtain ⟨cs, hc⟩ := writeMembers_cons k j members
      have htext : write (.object ((some k, j) :: members)) ++ rest =
          '\x7b' :: '"' :: (cs ++ '\x7d' :: rest) := by
        simp [hc]
      rw [hc, List.cons_append] at ih
      rw [htext, readValue_brace, ih]

theorem readsValues_succ {n : Nat} (hi : ReadsItems n) (hm : ReadsMembers n) :
    ReadsValues (n + 1) := by
  intro j rest hj hr hn
  cases j with
  | null => rfl
  | bool b => cases b <;> rfl
  | integer i =>
    rw [write_integer]
    exact readValue_signedDigits n i hr
  | string s =>
    cases s with
    | none => cases hj
    | some s =>
      simp only [write_string, writeLabel_some, List.cons_append, List.append_assoc,
        List.nil_append, readValue_quote, readString_escaped]
  | array items =>
    have hlen : (write (.array items)).length = (writeItems items).length + 2 := by
      simp
    exact readValue_array hi items rest hj (by omega)
  | object members =>
    have hlen : (write (.object members)).length = (writeMembers members).length + 2 := by
      simp
    exact readValue_object hm members rest hj (by omega)
  | fraction t => cases hj
  | broken => cases hj
  | misnamed k => cases hj

theorem readsItems_succ {n : Nat} (hv : ReadsValues n) (hi : ReadsItems n) :
    ReadsItems (n + 1) := by
  intro j items rest hp hn
  obtain ⟨hj, hitems⟩ := Bool.and_eq_true_iff.mp hp
  cases items with
  | nil =>
    rw [writeItems_singleton] at hn ⊢
    rw [readItems, hv j _ hj (endsNumber_close (.inr (.inl rfl)) rest) (by omega)]
    simp only [skipBlanks_cons (c := ']') rfl]
  | cons k r =>
    have hlen : (writeItems (j :: k :: r)).length =
        (write j).length + (writeItems (k :: r)).length + 1 := by
      simp [Nat.add_assoc]
    rw [writeItems_cons_cons, List.append_assoc, List.cons_append, readItems,
      hv j _ hj (endsNumber_close (.inl rfl) _) (by omega)]
    simp only [skipBlanks_cons (c := ',') rfl, hi k r rest hitems (by omega)]

theorem readsMembers_succ {n : Nat} (hv : ReadsValues n) (hm : ReadsMembers n) :
    ReadsMembers (n + 1) := by
  intro m members rest hp hn
  obtain ⟨k, j⟩ := m
  obtain ⟨hmember, hmembers⟩ := Bool.and_eq_true_iff.mp hp
  obtain ⟨hk, hj⟩ := Bool.and_eq_true_iff.mp hmember
  cases k with
  | none => cases hk
  | some k =>
    cases members with
    | nil =>
      have hlen : (write j).length ≤ (writeMembers [(some k, j)]).length := by
        simp only [writeMembers_singleton, List.length_append, List.length_cons]
        omega
      rw [writeMembers_singleton, writeLabel_some]
      simp only [List.cons_append, List.append_assoc, List.nil_append, readMembers,
        skipBlanks_cons (c := '"') rfl, readString_escaped, skipBlanks_cons (c := ':') rfl,
        hv j _ hj (endsNumber_close (.inr (.inr rfl)) rest) (by omega),
        skipBlanks_cons (c := '\x7d') rfl]
    | cons m r =>
      have hlen : (write j).length + (writeMembers (m :: r)).length + 1 ≤
          (writeMembers ((some k, j) :: m :: r)).length := by
        simp only [writeMembers_cons_cons, List.length_append, List.length_cons]
        omega
      rw [writeMembers_cons_cons, writeLabel_some]
      simp only [List.cons_append, List.append_assoc, List.nil_append, readMembers,
        skipBlanks_cons (c := '"') rfl, readString_escaped, skipBlanks_cons (c := ':') rfl,
        hv j _ hj (endsNumber_close (.inl rfl) _) (by omega), skipBlanks_cons (c := ',') rfl,
        hm m r rest hmembers (by omega)]

/-- The induction is on the steps of the reader, which values, items and members share. -/
theorem reads_all (n : Nat) : ReadsValues n ∧ ReadsItems n ∧ ReadsMembers n := by
  induction n with
  | zero =>
    refine ⟨fun j rest hj _ hn => ?_, fun _ _ _ _ hn => by omega, fun _ _ _ _ hn => by omega⟩
    obtain ⟨c, cs, hc, _⟩ := write_cons hj
    rw [hc, List.length_cons] at hn
    omega
  | succ n ih =>
    obtain ⟨hv, hi, hm⟩ := ih
    exact ⟨readsValues_succ hi hm, readsItems_succ hv hi, readsMembers_succ hv hm⟩

/-- The reader takes the text of a plain tree off the front of a longer text. -/
theorem readValue_write {j : Json} (hj : j.isPlain = true) {n : Nat} {rest : List Char}
    (hr : EndsNumber rest) (hn : 2 * (write j).length ≤ n) :
    readValue n (write j ++ rest) = (j, some rest) :=
  (reads_all n).1 j rest hj hr hn

theorem readFront_write {j : Json} (hj : j.isPlain = true) :
    readFront (write j) = (j, some []) := by
  have h := readValue_write hj (n := stepsFor (write j)) endsNumber_nil (by unfold stepsFor; omega)
  rw [List.append_nil] at h
  exact h

end AccessLedger.Json
