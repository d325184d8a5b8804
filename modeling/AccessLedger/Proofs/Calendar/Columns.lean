import AccessLedger.Calendar.Timestamp
import AccessLedger.Proofs.Calendar.Days

/-!
# Instants in columns are read back

An instant of the years 0 to 9999 has fields of fixed width in a column, so it
is read back from there as it was (`Timestamp.strict?_column`), leap seconds
and all digits of the fraction included.  Other years are written with a sign,
and no instant is read (`Timestamp.strict?_column_of_signed`).
-/

namespace AccessLedger

/-- Whether the year of an instant has four digits. -/
def Instant.InFourDigits (t : Instant) : Prop := 0 ≤ t.date.year ∧ t.date.year ≤ 9999

instance (t : Instant) : Decidable t.InFourDigits :=
  inferInstanceAs (Decidable (0 ≤ t.date.year ∧ t.date.year ≤ 9999))

namespace Timestamp

open Text

theorem length_padded {w n : Nat} (hw : 0 < w) (h : n < Nat.pow 10 w) : (padded w n).length = w := by
  have hdigits : (digits n).length ≤ w := (Nat.length_toDigits_le_iff (by decide) hw).mpr h
  rw [padded, List.length_append, List.length_replicate]
  omega

theorem takeWhile_isDigit_padded (w n : Nat) :
    (padded w n).takeWhile Char.isDigit = padded w n := by
  have hall := @List.takeWhile_append_of_pos _ Char.isDigit (padded w n) []
    fun _ => isDigit_of_mem_padded
  rwa [List.append_nil, List.takeWhile_nil, List.append_nil] at hall

/-- A field of fixed width is read back. -/
theorem exactly_padded {w n : Nat} (hw : 0 < w) (h : n < Nat.pow 10 w) (rest : List Char) :
    exactly w (padded w n ++ rest) = some (n, rest) := by
  have hlength := length_padded hw h
  have htake : (padded w n ++ rest).take w = padded w n := by
    rw [List.take_append_of_le_length (by omega), List.take_of_length_le (by omega)]
  have hdrop : (padded w n ++ rest).drop w = rest := by
    rw [List.drop_append_of_le_length (by omega), List.drop_of_length_le (by omega),
      List.nil_append]
  rw [exactly, htake, takeWhile_isDigit_padded, if_pos hlength, ofDigits_padded, hdrop]

/-- A field of fixed width has no sign. -/
theorem exactly_cons_of_not_isDigit {w : Nat} (hw : w ≠ 0) {c : Char} (hc : c.isDigit = false)
    (rest : List Char) : exactly w (c :: rest) = none := by
  obtain ⟨k, rfl⟩ := Nat.exists_eq_succ_of_ne_zero hw
  have hnone : ((c :: rest).take (k + 1)).takeWhile Char.isDigit = [] := by
    rw [List.take_succ_cons, List.takeWhile_cons, hc]
    rfl
  rw [exactly, hnone]
  exact if_neg (Nat.succ_ne_zero k).symm

@[simp]
theorem after_cons (c : Char) (rest : List Char) : after c (c :: rest) = some rest := by
  rw [after, if_pos rfl]

/-- The digits of a fraction, before something that is no digit. -/
theorem fraction_digits {w n : Nat} (hw : 0 < w) (hle : w ≤ 9) (h : n < Nat.pow 10 w)
    {c : Char} (hc : c.isDigit = false) (rest : List Char) :
    fraction ('.' :: padded w n ++ c :: rest) = some (n * Nat.pow 10 (9 - w), c :: rest) := by
  have hlength := length_padded hw h
  have htake : (padded w n ++ c :: rest).takeWhile Char.isDigit = padded w n := by
    rw [List.takeWhile_append_of_pos fun _ => isDigit_of_mem_padded, List.takeWhile_cons, hc]
    exact List.append_nil _
  have hdrop : (padded w n ++ c :: rest).dropWhile Char.isDigit = c :: rest := by
    rw [List.dropWhile_append_of_pos fun _ => isDigit_of_mem_padded, List.dropWhile_cons, hc]
    rfl
  have hnanos : nanosOf (padded w n) = n * Nat.pow 10 (9 - w) := by
    rw [nanosOf, List.take_of_length_le (by omega), ofDigits_padded, hlength]
  obtain ⟨d, ds, hdigits⟩ := List.exists_cons_of_length_pos (by omega : 0 < (padded w n).length)
  rw [List.cons_append, fraction, htake, hdrop, hdigits]
  simp only
  rw [← hdigits, hnanos]

/-- The fraction of a second is read back before something that can not be part of it. -/
theorem fraction_writeFraction {nanos : Nat} (h : nanos < 1000000000) {c : Char}
    (hdigit : c.isDigit = false) (hpoint : c ≠ '.') (rest : List Char) :
    fraction (Instant.writeFraction nanos ++ c :: rest) = some (nanos, c :: rest) := by
  unfold Instant.writeFraction
  split
  · next hzero =>
    rw [hzero, List.nil_append, fraction]
    intro r hr
    exact hpoint (List.cons.inj hr).1
  split
  · have hmillis : nanos / 1000000 < 1000 := by omega
    rw [fraction_digits (w := 3) (by decide) (by decide) hmillis hdigit]
    congr 2
    change nanos / 1000000 * 1000000 = nanos
    omega
  split
  · have hmicros : nanos / 1000 < 1000000 := by omega
    rw [fraction_digits (w := 6) (by decide) (by decide) hmicros hdigit]
    congr 2
    change nanos / 1000 * 1000 = nanos
    omega
  · rw [fraction_digits (w := 9) (by decide) (by decide) h hdigit]
    congr 2
    exact Nat.mul_one nanos

/-- The mark for universal time in a column. -/
theorem toList_zone : "+00:00".toList = ['+', '0', '0', ':', '0', '0'] := by decide

theorem offset_zero : offset (after ':') ['+', '0', '0', ':', '0', '0'] = some (0, []) := by decide

@[simp]
theorem ofParts?_self (t : Instant) : Instant.ofParts? t.seconds t.nanos = some t :=
  dif_pos ⟨t.nanos_lt, t.leap, t.in_range⟩

/-- The second that is shown and the fraction in it stand for the second of the day. -/
theorem leap_second (t : Instant) :
    (if (if t.nanos < 1000000000 then t.secondOfDay % 60 else t.secondOfDay % 60 + 1) = 60
      then (59, t.nanos % 1000000000 + 1000000000)
      else (if t.nanos < 1000000000 then t.secondOfDay % 60 else t.secondOfDay % 60 + 1,
        t.nanos % 1000000000)) = (t.secondOfDay % 60, t.nanos) := by
  have hnanos := t.nanos_lt
  have hleap := t.leap
  unfold Instant.secondOfDay
  by_cases hshort : t.nanos < 1000000000
  · rw [if_pos hshort, if_neg (by omega), Nat.mod_eq_of_lt hshort]
  · have hlast := hleap (by omega)
    have hsecond : (t.seconds % 86400).toNat % 60 = 59 := by omega
    rw [if_neg hshort, hsecond, if_pos rfl]
    congr 1
    omega

/-- The year of an instant is one of those of which there are instants. -/
theorem year_date_mem (t : Instant) :
    Instant.firstYear ≤ t.date.year ∧ t.date.year ≤ Instant.lastYear := by
  obtain ⟨hlow, hhigh⟩ := t.in_range
  have hfirst := Instant.seconds_of_firstYear
  have hlast := Instant.seconds_after_lastYear
  constructor
  · refine Date.le_year_ofDayNumber_iff.mpr ?_
    omega
  · have hnot : ¬Instant.lastYear + 1 ≤ t.date.year := by
      intro hle
      have hstart := Date.le_year_ofDayNumber_iff.mp hle
      omega
    omega

theorem secondOfDay_lt (t : Instant) : t.secondOfDay < 86400 := by
  unfold Instant.secondOfDay
  omega

/-- The fields of an instant, as they are written, name it. -/
theorem ofLocal?_fields (t : Instant) :
    Instant.ofLocal? t.date (t.secondOfDay / 3600) (t.secondOfDay / 60 % 60)
      (if t.nanos < 1000000000 then t.secondOfDay % 60 else t.secondOfDay % 60 + 1)
      (t.nanos % 1000000000) 0 = some t := by
  have hvalid : t.date.isValid = true := Date.isValid_ofDayNumber _
  have hnumber : t.date.dayNumber = t.seconds / 86400 := Date.dayNumber_ofDayNumber _
  have hsecond := secondOfDay_lt t
  have hshown : (if t.nanos < 1000000000 then t.secondOfDay % 60 else t.secondOfDay % 60 + 1) ≤
      60 := by
    split <;> omega
  have hfields : (t.date.isValid && decide (Instant.firstYear ≤ t.date.year) &&
      decide (t.date.year ≤ Instant.lastYear) && decide (t.secondOfDay / 3600 ≤ 23) &&
      decide (t.secondOfDay / 60 % 60 ≤ 59) && decide ((if t.nanos < 1000000000 then
        t.secondOfDay % 60 else t.secondOfDay % 60 + 1) ≤ 60)) = true := by
    obtain ⟨hlow, hhigh⟩ := year_date_mem t
    simp only [hvalid, hlow, hhigh, hshown, Bool.and_eq_true, decide_eq_true_eq, Bool.true_and,
      decide_true, Bool.and_true]
    omega
  rw [Instant.ofLocal?, if_pos hfields, leap_second]
  have hseconds : t.date.dayNumber * 86400 + ((t.secondOfDay / 3600 : Nat) : Int) * 3600 +
      ((t.secondOfDay / 60 % 60 : Nat) : Int) * 60 + ((t.secondOfDay % 60 : Nat) : Int) -
      0 * 60 = t.seconds := by
    rw [hnumber]
    unfold Instant.secondOfDay
    omega
  simp only [hseconds]
  exact ofParts?_self t

/-- The month and the day of an instant have at most two digits. -/
theorem month_day_lt (t : Instant) : t.date.month < 100 ∧ t.date.day < 100 := by
  have hvalid : t.date.isValid = true := Date.isValid_ofDayNumber _
  simp only [Date.isValid, Bool.and_eq_true, decide_eq_true_eq] at hvalid
  have hlength : Date.daysInMonth t.date.year t.date.month ≤ 31 := by
    unfold Date.daysInMonth
    split
    · split <;> omega
    · split <;> omega
  omega

section

variable {α : Type} {rest : List Char}

theorem bind_exactly {w n : Nat} (hw : 0 < w) (h : n < Nat.pow 10 w) (f : Nat × List Char → Option α) :
    bind (m := Option) (exactly w (padded w n ++ rest)) f = f (n, rest) := by
  rw [exactly_padded hw h]
  rfl

@[simp]
theorem bind_after (c : Char) (f : List Char → Option α) : (after c (c :: rest) >>= f) = f rest := by
  simp

@[simp]
theorem bind_afterDate (f : List Char → Option α) : (afterDate ('T' :: rest) >>= f) = f rest := rfl

end

/-- The hours, the minutes and the seconds that are shown have two digits. -/
theorem clock_lt (t : Instant) : t.secondOfDay / 3600 < 100 ∧ t.secondOfDay / 60 % 60 < 100 ∧
    (if t.nanos < 1000000000 then t.secondOfDay % 60 else t.secondOfDay % 60 + 1) < 100 := by
  have hsecond := secondOfDay_lt t
  refine ⟨by omega, by omega, ?_⟩
  split <;> omega

/-- An instant is read back from a column. -/
theorem strict?_column {t : Instant} (h : t.InFourDigits) : strict? t.column = some t := by
  have hyear : t.date.year.toNat < 10000 := by
    obtain ⟨hlow, hhigh⟩ := h
    omega
  obtain ⟨hmonth, hday⟩ := month_day_lt t
  obtain ⟨hhour, hminute, hshown⟩ := clock_lt t
  have hwrite : Instant.writeYear t.date.year = padded 4 t.date.year.toNat := if_pos h
  unfold strict?
  rw [Instant.column, String.toList_ofList, Instant.write, hwrite, toList_zone]
  simp only [List.append_assoc, List.cons_append]
  have two : 0 < 2 := by decide
  have hnanos : t.nanos % 1000000000 < 1000000000 := Nat.mod_lt _ (by decide)
  have hzone := fraction_writeFraction hnanos (c := '+') rfl (by decide) ['0', '0', ':', '0', '0']
  have hdate : (⟨t.date.year.toNat, t.date.month, t.date.day⟩ : Date) = t.date := by
    rw [Int.toNat_of_nonneg h.1]
  -- one field after the other, since a read is only seen once the one before has been made
  rw [bind_exactly (w := 4) (by decide) hyear]
  dsimp only
  rw [bind_after, bind_exactly (w := 2) two hmonth]
  dsimp only
  rw [bind_after, bind_exactly (w := 2) two hday]
  dsimp only
  rw [bind_afterDate, bind_exactly (w := 2) two hhour]
  dsimp only
  rw [bind_after, bind_exactly (w := 2) two hminute]
  dsimp only
  rw [bind_after, bind_exactly (w := 2) two hshown]
  dsimp only
  rw [hzone, Option.bind_eq_bind, Option.bind_some]
  dsimp only
  rw [offset_zero, Option.bind_eq_bind, Option.bind_some]
  dsimp only
  rw [if_pos List.isEmpty_nil, hdate]
  exact ofLocal?_fields t

/-- Years of fewer or of more digits have a sign in a column, and are not read from there. -/
theorem strict?_column_of_signed {t : Instant} (h : ¬t.InFourDigits) : strict? t.column = none := by
  obtain ⟨sign, hsign, ds, hwrite⟩ : ∃ sign : Char, sign.isDigit = false ∧
      ∃ ds, Instant.writeYear t.date.year = sign :: ds := by
    refine ⟨if t.date.year < 0 then '-' else '+', ?_, _, if_neg h⟩
    split <;> rfl
  unfold strict?
  rw [Instant.column, String.toList_ofList, Instant.write, hwrite]
  simp only [List.append_assoc, List.cons_append]
  rw [exactly_cons_of_not_isDigit (by decide) hsign, Option.bind_eq_bind, Option.bind_none]

end Timestamp

end AccessLedger
