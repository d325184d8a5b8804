/-!
# Calendar dates

Dates of the Gregorian calendar, extended to all years, and their numbers:
`Date.dayNumber` counts the days from 1 January 1970 and `Date.ofDayNumber`
gives the date back.  Both count years from 1 March, so that the leap day is
the last day of its year.
-/

namespace AccessLedger

/-- A day of the calendar; `Date.isValid` says whether there is such a day. -/
structure Date where
  year : Int
  month : Nat
  day : Nat
  deriving DecidableEq, Repr

namespace Date

/-- Whether a year has a leap day. -/
def isLeapYear (year : Int) : Bool :=
  year % 4 == 0 && (year % 100 != 0 || year % 400 == 0)

/-- The number of days of a month. -/
def daysInMonth (year : Int) (month : Nat) : Nat :=
  if month = 2 then (if isLeapYear year then 29 else 28)
  else if month = 4 ∨ month = 6 ∨ month = 9 ∨ month = 11 then 30
  else 31

/-- Whether the calendar has such a day. -/
def isValid (d : Date) : Bool :=
  1 ≤ d.month && d.month ≤ 12 && 1 ≤ d.day && d.day ≤ daysInMonth d.year d.month

/-- The days of a March-based year before the month with this position in it. -/
def daysBeforeMonth (position : Nat) : Nat := (153 * position + 2) / 5

/-- The days before the March-based year, counted from 1 March of the year 0. -/
def daysBeforeYear (year : Int) : Int := 365 * year + year / 4 - year / 100 + year / 400

/-- The days from 1 March of the year 0 to 1 January 1970. -/
def epoch : Int := 719468

/-- The number of days from 1 January 1970 to a date. -/
def dayNumber (d : Date) : Int :=
  let year := if d.month ≤ 2 then d.year - 1 else d.year
  let position := (d.month + 9) % 12
  daysBeforeYear year + daysBeforeMonth position + d.day - 1 - epoch

/-- The year, within a cycle of 400 March-based years, of a day of the cycle. -/
def yearOfCycle (day : Nat) : Nat := (day - day / 1460 + day / 36524 - day / 146096) / 365

/-- The position in its March-based year of the month that holds a day of the year. -/
def monthOfYear (day : Nat) : Nat := (5 * day + 2) / 153

/-- The date that is this many days after 1 January 1970. -/
def ofDayNumber (n : Int) : Date :=
  let cycle := (n + epoch) / 146097
  let dayOfCycle := ((n + epoch) % 146097).toNat
  let year := yearOfCycle dayOfCycle
  let dayOfYear := dayOfCycle - (365 * year + year / 4 - year / 100)
  let position := monthOfYear dayOfYear
  let month := if position < 10 then position + 3 else position - 9
  { year := 400 * cycle + year + (if month ≤ 2 then 1 else 0)
    month
    day := dayOfYear - daysBeforeMonth position + 1 }

end Date

end AccessLedger
