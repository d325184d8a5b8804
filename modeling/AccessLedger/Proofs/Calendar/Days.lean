import AccessLedger.Calendar.Date

/-!
# Days and their numbers

The date that has a number is a day of the calendar
(`Date.isValid_ofDayNumber`) and has that number
(`Date.dayNumber_ofDayNumber`).  Within a cycle of 400 years, the year of a
day grows with the day, so it is enough to look at the first and the last day
of every year (`Date.yearOfCycle_ends`).  Which year a date is in can be told
by comparing its number with those of first days of years
(`Date.le_year_ofDayNumber_iff`).
-/

namespace AccessLedger.Date

/-- The days of a cycle before a year of it. -/
def startOfYear (year : Nat) : Nat := 365 * year + year / 4 - year / 100 + year / 400

theorem yearOfCycle_le_succ {day : Nat} (h : day + 1 < 146097) :
    yearOfCycle day ≤ yearOfCycle (day + 1) := by
  unfold yearOfCycle
  refine Nat.div_le_div_right ?_
  omega

theorem yearOfCycle_mono {day later : Nat} (h : day ≤ later) (hlater : later < 146097) :
    yearOfCycle day ≤ yearOfCycle later := by
  induction h with
  | refl => exact Nat.le_refl _
  | step h ih => exact Nat.le_trans (ih (by omega)) (yearOfCycle_le_succ hlater)

/-- The first and the last day of a year are days of that year. -/
theorem yearOfCycle_ends : ∀ year < 400, yearOfCycle (startOfYear year) = year ∧
    yearOfCycle (startOfYear (year + 1) - 1) = year := by
  decide +kernel

theorem startOfYear_lt {year : Nat} (h : year < 400) : startOfYear year < 146097 := by
  unfold startOfYear
  omega

theorem yearOfCycle_lt {day : Nat} (h : day < 146097) : yearOfCycle day < 400 := by
  have hlast : yearOfCycle (startOfYear 400 - 1) = 399 := (yearOfCycle_ends 399 (by decide)).2
  have hle : yearOfCycle day ≤ yearOfCycle (startOfYear 400 - 1) :=
    yearOfCycle_mono (by unfold startOfYear; omega) (by unfold startOfYear; omega)
  omega

/-- A day of a cycle lies in its year. -/
theorem startOfYear_yearOfCycle {day : Nat} (h : day < 146097) :
    startOfYear (yearOfCycle day) ≤ day ∧ day < startOfYear (yearOfCycle day + 1) := by
  have hyear := yearOfCycle_lt h
  constructor
  · -- a day before its year would not be after the last day of the year before
    refine Nat.le_of_not_lt fun hbefore => ?_
    have hpos : 0 < yearOfCycle day := by
      refine Nat.pos_of_ne_zero fun hzero => ?_
      rw [hzero] at hbefore
      exact Nat.not_lt_zero _ hbefore
    have hends := (yearOfCycle_ends (yearOfCycle day - 1) (by omega)).2
    rw [Nat.sub_add_cancel hpos] at hends
    have hstart := startOfYear_lt hyear
    have hmono := @yearOfCycle_mono day (startOfYear (yearOfCycle day) - 1) (by omega) (by omega)
    omega
  · refine Nat.lt_of_not_le fun hafter => ?_
    by_cases hlast : yearOfCycle day + 1 < 400
    · have hends := (yearOfCycle_ends (yearOfCycle day + 1) hlast).1
      have hmono := yearOfCycle_mono hafter h
      omega
    · rw [show yearOfCycle day + 1 = 400 by omega, startOfYear] at hafter
      omega

/-- A day of a year lies in its month. -/
theorem monthOfYear_bounds {day : Nat} (h : day < 366) : monthOfYear day < 12 ∧
    daysBeforeMonth (monthOfYear day) ≤ day ∧ day < daysBeforeMonth (monthOfYear day + 1) := by
  unfold monthOfYear daysBeforeMonth
  omega

theorem length_of_year {year day : Nat} (h : startOfYear year + day < startOfYear (year + 1)) :
    day < 366 := by
  unfold startOfYear at h
  omega

/-- What a date and its number are made of: a year of a cycle and a day of the year. -/
theorem exists_parts (n : Int) : ∃ (cycle : Int) (year day : Nat),
    n + epoch = 146097 * cycle + startOfYear year + day ∧ year < 400 ∧
    startOfYear year + day < startOfYear (year + 1) ∧
    ofDayNumber n =
      { year := 400 * cycle + year + (if monthOfYear day < 10 then 0 else 1)
        month := if monthOfYear day < 10 then monthOfYear day + 3 else monthOfYear day - 9
        day := day - daysBeforeMonth (monthOfYear day) + 1 } := by
  have hday : ((n + epoch) % 146097).toNat < 146097 := by omega
  obtain ⟨hstart, hend⟩ := startOfYear_yearOfCycle hday
  have hyear := yearOfCycle_lt hday
  refine ⟨(n + epoch) / 146097, yearOfCycle ((n + epoch) % 146097).toNat,
    ((n + epoch) % 146097).toNat - startOfYear (yearOfCycle ((n + epoch) % 146097).toNat),
    by omega, hyear, by omega, ?_⟩
  unfold ofDayNumber
  generalize ((n + epoch) % 146097).toNat = day at *
  have hoffset : 365 * yearOfCycle day + yearOfCycle day / 4 - yearOfCycle day / 100 =
      startOfYear (yearOfCycle day) := by
    unfold startOfYear
    omega
  have hmonth := (monthOfYear_bounds (@length_of_year (yearOfCycle day)
    (day - startOfYear (yearOfCycle day)) (by omega))).1
  simp only [hoffset]
  generalize monthOfYear (day - startOfYear (yearOfCycle day)) = position at *
  by_cases hposition : position < 10
  · simp only [hposition, if_true, show ¬position + 3 ≤ 2 by omega, if_false]
  · simp only [hposition, if_false, show position - 9 ≤ 2 by omega, if_true]

/-- The date that has a number has that number. -/
@[simp]
theorem dayNumber_ofDayNumber (n : Int) : (ofDayNumber n).dayNumber = n := by
  obtain ⟨cycle, year, day, hn, hyear, hlength, hdate⟩ := exists_parts n
  obtain ⟨hmonth, hstart, -⟩ := monthOfYear_bounds (length_of_year hlength)
  rw [hdate]
  unfold dayNumber daysBeforeYear
  unfold startOfYear at hn
  generalize monthOfYear day = position at *
  by_cases hposition : position < 10
  · simp only [hposition, if_true, show ¬position + 3 ≤ 2 by omega, if_false,
      show (position + 3 + 9) % 12 = position by omega]
    omega
  · simp only [hposition, if_false, show position - 9 ≤ 2 by omega, if_true,
      show (position - 9 + 9) % 12 = position by omega]
    omega

/-- All months but the last one of a March-based year are as long as the calendar says. -/
theorem length_of_month (year : Int) : ∀ position < 11,
    daysBeforeMonth (position + 1) = daysBeforeMonth position +
      daysInMonth year (if position < 10 then position + 3 else position - 9) := by
  have htable : ∀ position < 11, ∀ month, (if position < 10 then position + 3 else position - 9) =
      month → month ≠ 2 ∧ daysBeforeMonth (position + 1) = daysBeforeMonth position +
        if month = 4 ∨ month = 6 ∨ month = 9 ∨ month = 11 then 30 else 31 := by
    rintro position h _ rfl
    revert position
    decide
  intro position h
  obtain ⟨hfebruary, hlength⟩ := htable position h _ rfl
  rw [daysInMonth, if_neg hfebruary, hlength]

/-- The year after a long March-based year is a leap year. -/
theorem isLeapYear_of_long {cycle : Int} {year : Nat}
    (h : startOfYear year + 365 < startOfYear (year + 1)) (hyear : year < 400) :
    isLeapYear (400 * cycle + year + 1) = true := by
  unfold startOfYear at h
  simp only [isLeapYear, Bool.and_eq_true, Bool.or_eq_true, beq_iff_eq, bne_iff_ne, ne_eq]
  omega

/-- The date that has a number is a day of the calendar. -/
@[simp]
theorem isValid_ofDayNumber (n : Int) : (ofDayNumber n).isValid = true := by
  obtain ⟨cycle, year, day, -, hyear, hlength, hdate⟩ := exists_parts n
  have hday := length_of_year hlength
  obtain ⟨hmonth, hstart, hend⟩ := monthOfYear_bounds hday
  rw [hdate]
  simp only [isValid, Bool.and_eq_true, decide_eq_true_eq]
  generalize monthOfYear day = position at *
  by_cases hposition : position < 11
  · have hmonthLength := length_of_month
      (400 * cycle + year + (if position < 10 then 0 else 1)) position hposition
    refine ⟨⟨⟨?_, ?_⟩, by omega⟩, by omega⟩ <;> split <;> omega
  · obtain rfl : position = 11 := by omega
    unfold daysBeforeMonth at *
    refine ⟨⟨⟨by decide, by decide⟩, by omega⟩, ?_⟩
    by_cases hlong : day = 365
    · subst hlong
      have hlong : 29 ≤ daysInMonth (400 * cycle + year + 1) 2 := by
        rw [daysInMonth, if_pos rfl, isLeapYear_of_long hlength hyear]
        decide
      exact Nat.le_trans (by omega) hlong
    · have hshort : 28 ≤ daysInMonth (400 * cycle + year + 1) 2 := by
        simp only [daysInMonth, if_true]
        split <;> omega
      exact Nat.le_trans (by omega) hshort

/-! ## Years -/

/-- A later year starts at least 365 days later. -/
theorem daysBeforeYear_add_le {year later : Int} (h : year < later) :
    daysBeforeYear year + 365 ≤ daysBeforeYear later := by
  unfold daysBeforeYear
  omega

theorem daysBeforeYear_of_cycle (cycle : Int) (year : Nat) :
    daysBeforeYear (400 * cycle + year) = 146097 * cycle + startOfYear year := by
  unfold daysBeforeYear startOfYear
  omega

/-- A day is in a year or a later one if it does not come before the first day of the year. -/
theorem le_year_ofDayNumber_iff {year n : Int} :
    year ≤ (ofDayNumber n).year ↔ dayNumber ⟨year, 1, 1⟩ ≤ n := by
  obtain ⟨cycle, yearOfCycle, day, hn, -, hlength, hdate⟩ := exists_parts n
  have hstart := daysBeforeYear_of_cycle cycle yearOfCycle
  have hend := daysBeforeYear_of_cycle cycle (yearOfCycle + 1)
  have hjanuary : monthOfYear day < 10 ↔ day < 306 := by
    unfold monthOfYear
    omega
  have hfirst : dayNumber ⟨year, 1, 1⟩ = daysBeforeYear (year - 1) + 306 - epoch := by
    have hposition : (daysBeforeMonth ((1 + 9) % 12) : Int) = 306 := rfl
    simp only [dayNumber, hposition, show (1 : Nat) ≤ 2 by decide, if_true]
    omega
  rw [hdate, hfirst]
  simp only [hjanuary]
  -- the year that ends with the month before is told apart from the March-based year of the day
  rcases Int.lt_trichotomy (year - 1) (400 * cycle + yearOfCycle) with hbefore | hsame | hafter
  · have hearlier := daysBeforeYear_add_le hbefore
    split <;> omega
  · rw [hsame, hstart]
    split <;> omega
  · have hlater : daysBeforeYear (400 * cycle + (yearOfCycle + 1 : Nat)) ≤
        daysBeforeYear (year - 1) := by
      rcases Int.lt_or_eq_of_le
          (by omega : 400 * cycle + ((yearOfCycle + 1 : Nat) : Int) ≤ year - 1) with h | h
      · have hearlier := daysBeforeYear_add_le h
        omega
      · exact Int.le_of_eq (congrArg daysBeforeYear h)
    split <;> omega

end AccessLedger.Date
