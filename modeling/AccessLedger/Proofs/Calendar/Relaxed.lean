import AccessLedger.Proofs.Calendar.Columns

/-!
# Instants in JSON are read back

In JSON the year of an instant has four digits or a sign and any number of
digits, and the fields after it are those of a column.  So every instant there
is is read back from its text as it was (`Timestamp.relaxed?_json`), those of
the first and the last year, leap seconds and all digits of the fraction
included.  What follows the fields is the same for all instants, so no two are
written alike in any form (`Instant.write_injective`).
-/

namespace AccessLedger.Timestamp

open Text

/-! ## Fields -/

theorem isBlank_of_isDigit {c : Char} (h : c.isDigit = true) : isBlank c = false := by
  simp only [Char.isDigit, Bool.and_eq_true, decide_eq_true_eq, UInt32.le_iff_toNat_le] at h
  obtain ⟨hlow, hhigh⟩ := h
  have hlow : 48 ≤ c.toNat := hlow
  have hhigh : c.toNat ≤ 57 := hhigh
  simp only [isBlank, Bool.or_eq_false_iff, Bool.and_eq_false_iff, decide_eq_false_iff_not,
    beq_eq_false_iff_ne]
  omega

theorem trimStart_of_head {c : Char} {r : List Char} (h : isBlank c = false) :
    trimStart (c :: r) = c :: r := by
  simp [trimStart, h]

/-- A number in digits starts with a digit. -/
theorem padded_cons (w n : Nat) : ∃ c ds, padded w n = c :: ds ∧ c.isDigit = true := by
  cases hdigits : padded w n with
  | nil => exact absurd (List.append_eq_nil_iff.mp hdigits).2 (digits_ne_nil n)
  | cons c ds =>
    refine ⟨c, ds, rfl, isDigit_of_mem_padded (w := w) (n := n) ?_⟩
    rw [hdigits]
    exact List.mem_cons_self

@[simp]
theorem trimStart_padded (w n : Nat) (rest : List Char) :
    trimStart (padded w n ++ rest) = padded w n ++ rest := by
  obtain ⟨c, ds, hdigits, hc⟩ := padded_cons w n
  rw [hdigits, List.cons_append, trimStart_of_head (isBlank_of_isDigit hc)]

/-- A number is read as far as its digits go, if there is room for them. -/
theorem upTo_padded {width w n : Nat} {c : Char} (hc : c.isDigit = false) (rest : List Char)
    (hwidth : (padded w n).length ≤ width) :
    upTo width (padded w n ++ c :: rest) = some (n, c :: rest) := by
  have htake : ((padded w n ++ c :: rest).take width).takeWhile Char.isDigit = padded w n := by
    rw [List.take_append, List.take_of_length_le hwidth,
      List.takeWhile_append_of_pos fun _ => isDigit_of_mem_padded]
    cases width - (padded w n).length with
    | zero => simp
    | succ k => simp [hc]
  obtain ⟨d, ds, hdigits, -⟩ := padded_cons w n
  rw [upTo, htake, hdigits]
  simp only
  rw [← hdigits, ofDigits_padded, List.drop_left]

/-- A field of two digits. -/
theorem field_padded {n : Nat} (h : n < 100) {c : Char} (hc : c.isDigit = false)
    (rest : List Char) : field (padded 2 n ++ c :: rest) = some (n, c :: rest) := by
  have hlength : (padded 2 n).length = 2 := length_padded (by decide) h
  rw [field, trimStart_padded]
  exact upTo_padded hc rest (Nat.le_of_eq hlength)

/-! ## Years -/

theorem year_cons_of_isDigit {c : Char} (hc : c.isDigit = true) (r : List Char) :
    year (c :: r) = (upTo 4 (c :: r)).map fun (n, r) => ((n : Int), r) := by
  unfold year
  split
  · next h =>
    obtain ⟨rfl, -⟩ := List.cons.inj h
    exact absurd hc (by decide)
  · next h =>
    obtain ⟨rfl, -⟩ := List.cons.inj h
    exact absurd hc (by decide)
  · rfl

/-- A year in either form is read back. -/
theorem year_writeYear (y : Int) (rest : List Char) :
    year (trimStart (Instant.writeYear y ++ '-' :: rest)) = some (y, '-' :: rest) := by
  have hminus : ('-' : Char).isDigit = false := rfl
  have hsigned := @upTo_padded (padded 4 y.natAbs ++ '-' :: rest).length 4 y.natAbs '-' hminus rest
    (by simp)
  unfold Instant.writeYear
  split
  · next hfour =>
    have hlength : (padded 4 y.toNat).length = 4 := length_padded (by decide) (by
      change y.toNat < 10000
      omega)
    have hread := upTo_padded hminus rest (Nat.le_of_eq hlength)
    obtain ⟨c, ds, hdigits, hc⟩ := padded_cons 4 y.toNat
    rw [trimStart_padded]
    rw [hdigits, List.cons_append] at hread ⊢
    rw [year_cons_of_isDigit hc, hread]
    simp [Int.toNat_of_nonneg hfour.1]
  · split
    · next hnegative =>
      have hvalue : -(y.natAbs : Int) = y := by omega
      rw [List.cons_append, trimStart_of_head rfl, year, hsigned]
      simp only [Option.map_some, hvalue]
    · next hpositive =>
      have hvalue : (y.natAbs : Int) = y := by omega
      rw [List.cons_append, trimStart_of_head rfl, year, hsigned]
      simp only [Option.map_some, hvalue]

/-! ## Instants -/

section

variable {α : Type} {rest : List Char}

theorem bind_field {n : Nat} (h : n < 100) {c : Char} (hc : c.isDigit = false)
    (f : Nat × List Char → Option α) :
    bind (m := Option) (field (padded 2 n ++ c :: rest)) f = f (n, c :: rest) := by
  rw [field_padded h hc]
  rfl

theorem bind_after_trimStart {c : Char} (hc : isBlank c = false) (f : List Char → Option α) :
    (after c (trimStart (c :: rest)) >>= f) = f rest := by
  simp [trimStart_of_head hc]

end

/-- The fraction and the mark for universal time start with something that is no digit. -/
theorem fractionText_cons (nanos : Nat) : ∃ c rest,
    Instant.writeFraction nanos ++ ['Z'] = c :: rest ∧ c.isDigit = false := by
  unfold Instant.writeFraction
  split
  · exact ⟨'Z', [], rfl, rfl⟩
  split
  · exact ⟨'.', _, rfl, rfl⟩
  split
  · exact ⟨'.', _, rfl, rfl⟩
  · exact ⟨'.', _, rfl, rfl⟩

theorem relaxedOffset_utc : relaxedOffset (trimStart ['Z']) = some (0, []) := by decide

/-- An instant is read back from JSON. -/
@[simp]
theorem relaxed?_json (t : Instant) : relaxed? t.json = some t := by
  obtain ⟨hmonth, hday⟩ := month_day_lt t
  obtain ⟨hhour, hminute, hshown⟩ := clock_lt t
  have hnanos : t.nanos % 1000000000 < 1000000000 := Nat.mod_lt _ (by decide)
  have hfraction := fraction_writeFraction hnanos (c := 'Z') rfl (by decide) []
  obtain ⟨c, rest, htail, hc⟩ := fractionText_cons (t.nanos % 1000000000)
  unfold relaxed?
  rw [Instant.json, String.toList_ofList, Instant.write]
  simp only [List.append_assoc, List.cons_append]
  -- one field after the other, since a read is only seen once the one before has been made
  rw [year_writeYear, Option.bind_eq_bind, Option.bind_some]
  dsimp only
  rw [bind_after_trimStart rfl, bind_field hmonth rfl]
  dsimp only
  rw [bind_after_trimStart rfl, bind_field hday rfl]
  dsimp only
  rw [bind_afterDate, bind_field hhour rfl]
  dsimp only
  rw [bind_after_trimStart rfl, bind_field hminute rfl]
  dsimp only
  rw [htail, bind_after_trimStart rfl, bind_field hshown hc]
  dsimp only
  rw [← htail, hfraction, Option.bind_eq_bind, Option.bind_some]
  dsimp only
  rw [relaxedOffset_utc, Option.bind_some]
  exact ofLocal?_fields t

end AccessLedger.Timestamp

namespace AccessLedger.Instant

theorem write_eq_append (zone : List Char) (t : Instant) : t.write zone = t.write [] ++ zone := by
  simp only [write, List.append_assoc, List.cons_append, List.append_nil]

/-- Different instants are written differently, in the columns of tables as in JSON. -/
theorem write_injective (zone : List Char) {t u : Instant} (h : t.write zone = u.write zone) :
    t = u := by
  rw [write_eq_append zone t, write_eq_append zone u] at h
  have hjson : t.json = u.json := by
    rw [json, json, write_eq_append ['Z'] t, write_eq_append ['Z'] u, List.append_cancel_right h]
  have hread := Timestamp.relaxed?_json t
  rw [hjson, Timestamp.relaxed?_json u] at hread
  exact (Option.some.inj hread).symm

end AccessLedger.Instant
