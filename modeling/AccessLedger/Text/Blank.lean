/-!
# Blank characters and trimming

`isBlank` holds exactly of the characters with the Unicode property
`White_Space`.  `trim` cuts them off both ends of a text; it leaves a text
alone exactly when the text neither starts nor ends with a blank
(`trim_eq_self_iff`).
-/

namespace AccessLedger.Text

/-- The characters with the Unicode property `White_Space`. -/
def isBlank (c : Char) : Bool :=
  let n := c.toNat
  (9 ≤ n && n ≤ 13) || n == 0x20 || n == 0x85 || n == 0xA0 || n == 0x1680 ||
    (0x2000 ≤ n && n ≤ 0x200A) || n == 0x2028 || n == 0x2029 || n == 0x202F ||
    n == 0x205F || n == 0x3000

/-- Cut the blanks off the front. -/
def trimStart (s : List Char) : List Char := s.dropWhile isBlank

/-- Cut the blanks off the back. -/
def trimEnd (s : List Char) : List Char := (s.reverse.dropWhile isBlank).reverse

/-- Cut the blanks off both ends. -/
def trim (s : List Char) : List Char := trimEnd (trimStart s)

theorem trimStart_eq_self_iff (s : List Char) :
    trimStart s = s ↔ ∀ c, s.head? = some c → isBlank c = false := by
  cases s with
  | nil => simp [trimStart]
  | cons c r =>
    cases h : isBlank c
    · simp [trimStart, h]
    · simp only [trimStart, List.dropWhile_cons, h, ↓reduceIte, List.head?_cons, Option.some.injEq,
        forall_eq', Bool.true_eq_false, iff_false]
      intro e
      have := (List.dropWhile_suffix (l := r) isBlank).length_le
      rw [e, List.length_cons] at this
      omega

theorem trimEnd_eq_self_iff (s : List Char) :
    trimEnd s = s ↔ ∀ c, s.getLast? = some c → isBlank c = false := by
  have h := trimStart_eq_self_iff s.reverse
  rw [List.head?_reverse] at h
  rw [← h, trimEnd, trimStart]
  exact ⟨fun e => by simpa using congrArg List.reverse e, fun e => by rw [e, List.reverse_reverse]⟩

theorem length_trim_le (s : List Char) : (trimEnd s).length ≤ s.length := by
  have := (List.dropWhile_suffix (l := s.reverse) isBlank).length_le
  simpa [trimEnd] using this

/-- Trimming changes nothing exactly when no blank stands at either end. -/
theorem trim_eq_self_iff (s : List Char) :
    trim s = s ↔ (∀ c, s.head? = some c → isBlank c = false) ∧
      ∀ c, s.getLast? = some c → isBlank c = false := by
  rw [← trimStart_eq_self_iff, ← trimEnd_eq_self_iff]
  constructor
  · intro h
    have hs : trimStart s = s := by
      have hsuf : trimStart s <:+ s := List.dropWhile_suffix isBlank
      have h1 := length_trim_le (trimStart s)
      have h2 : s.length = (trimEnd (trimStart s)).length := by rw [← trim, h]
      exact hsuf.eq_of_length (Nat.le_antisymm hsuf.length_le (by omega))
    refine ⟨hs, ?_⟩
    rw [trim, hs] at h
    exact h
  · rintro ⟨h1, h2⟩
    rw [trim, h1, h2]

/-- `s` holds nothing but blanks. -/
def allBlank (s : List Char) : Bool := s.all isBlank

end AccessLedger.Text
