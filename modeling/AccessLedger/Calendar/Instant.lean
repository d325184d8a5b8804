import AccessLedger.Calendar.Date
import AccessLedger.Text.Decimal

/-!
# Instants

An instant is a second of universal time and a fraction of it in
nanoseconds.  A leap second is the last second of a minute drawn out: its
fraction is a second or more.  Instants of the years -262143 to 262142 exist.

`Instant.write` gives the usual timestamp text, followed by a mark for
universal time; `Instant.json` and `Instant.column` are its two forms.
-/

namespace AccessLedger

/-- A moment of universal time. -/
structure Instant where
  /-- Seconds from the start of 1970, leap seconds not counted. -/
  seconds : Int
  /-- Nanoseconds into the second. -/
  nanos : Nat
  nanos_lt : nanos < 2000000000
  leap : 1000000000 ≤ nanos → seconds % 60 = 59
  in_range : -8334601228800 ≤ seconds ∧ seconds < 8210266876800

namespace Instant

/-- The first year of which there are instants. -/
def firstYear : Int := -262143

/-- The last year of which there are instants. -/
def lastYear : Int := 262142

theorem seconds_of_firstYear : Date.dayNumber ⟨firstYear, 1, 1⟩ * 86400 = -8334601228800 := rfl

theorem seconds_after_lastYear : Date.dayNumber ⟨lastYear + 1, 1, 1⟩ * 86400 = 8210266876800 := rfl

theorem eq_of_parts {t u : Instant} (hs : t.seconds = u.seconds) (hn : t.nanos = u.nanos) :
    t = u := by
  cases t; cases u; cases hs; cases hn; rfl

instance : DecidableEq Instant := fun t u =>
  if h : t.seconds = u.seconds ∧ t.nanos = u.nanos then .isTrue (eq_of_parts h.1 h.2)
  else .isFalse fun e => h ⟨congrArg seconds e, congrArg nanos e⟩

/-- The instant with these parts, if it exists. -/
def ofParts? (seconds : Int) (nanos : Nat) : Option Instant :=
  if h : nanos < 2000000000 ∧ (1000000000 ≤ nanos → seconds % 60 = 59) ∧
      (-8334601228800 ≤ seconds ∧ seconds < 8210266876800) then
    some ⟨seconds, nanos, h.1, h.2.1, h.2.2⟩
  else none

/-- The start of the year 1970. -/
def start : Instant := ⟨0, 0, by decide, by decide, by decide⟩

/-- An instant comes before another: in an earlier second, or in the same second by its fraction. -/
def Precedes (t u : Instant) : Prop :=
  t.seconds < u.seconds ∨ t.seconds = u.seconds ∧ t.nanos < u.nanos

instance : LT Instant := ⟨Precedes⟩

instance : LE Instant := ⟨fun t u => ¬u < t⟩

instance (t u : Instant) : Decidable (t < u) :=
  inferInstanceAs (Decidable (t.seconds < u.seconds ∨ t.seconds = u.seconds ∧ t.nanos < u.nanos))

instance (t u : Instant) : Decidable (t ≤ u) := inferInstanceAs (Decidable ¬u < t)

theorem lt_iff {t u : Instant} :
    t < u ↔ t.seconds < u.seconds ∨ t.seconds = u.seconds ∧ t.nanos < u.nanos := Iff.rfl

theorem le_iff {t u : Instant} :
    t ≤ u ↔ t.seconds < u.seconds ∨ t.seconds = u.seconds ∧ t.nanos ≤ u.nanos := by
  change ¬(u.seconds < t.seconds ∨ u.seconds = t.seconds ∧ u.nanos < t.nanos) ↔ _
  omega

theorem le_refl (t : Instant) : t ≤ t := le_iff.mpr (.inr ⟨rfl, Nat.le_refl _⟩)

theorem le_trans {t u v : Instant} (h : t ≤ u) (h' : u ≤ v) : t ≤ v := by
  rw [le_iff] at *
  omega

theorem le_total (t u : Instant) : t ≤ u ∨ u ≤ t := by
  rw [le_iff, le_iff]
  omega

theorem le_antisymm {t u : Instant} (h : t ≤ u) (h' : u ≤ t) : t = u := by
  rw [le_iff] at *
  exact eq_of_parts (by omega) (by omega)

/-- The date in universal time. -/
def date (t : Instant) : Date := Date.ofDayNumber (t.seconds / 86400)

/-- The seconds since midnight in universal time. -/
def secondOfDay (t : Instant) : Nat := (t.seconds % 86400).toNat

/--
The instant at which clocks that are `offset` minutes ahead of universal time
show this date and time.  Second 60 is a leap second.
-/
def ofLocal? (date : Date) (hour minute second fraction : Nat) (offset : Int) : Option Instant :=
  if date.isValid && firstYear ≤ date.year && date.year ≤ lastYear &&
      hour ≤ 23 && minute ≤ 59 && second ≤ 60 then
    let (second, fraction) :=
      if second = 60 then (59, fraction + 1000000000) else (second, fraction)
    let shown : Int := date.dayNumber * 86400 + hour * 3600 + minute * 60 + second
    ofParts? (shown - offset * 60) fraction
  else none

/-! ## Writing -/

/-- A year in four digits; other years have a sign and at least four digits. -/
def writeYear (year : Int) : List Char :=
  if 0 ≤ year ∧ year ≤ 9999 then Text.padded 4 year.toNat
  else (if year < 0 then '-' else '+') :: Text.padded 4 year.natAbs

/-- The fraction of a second in no digits, three, six or nine, whichever first suffices. -/
def writeFraction (nanos : Nat) : List Char :=
  if nanos = 0 then []
  else if nanos % 1000000 = 0 then '.' :: Text.padded 3 (nanos / 1000000)
  else if nanos % 1000 = 0 then '.' :: Text.padded 6 (nanos / 1000)
  else '.' :: Text.padded 9 nanos

/-- The date and time of an instant, then `zone`. -/
def write (zone : List Char) (t : Instant) : List Char :=
  let d := t.date
  let s := t.secondOfDay
  let second := if t.nanos < 1000000000 then s % 60 else s % 60 + 1
  writeYear d.year ++ '-' :: Text.padded 2 d.month ++ '-' :: Text.padded 2 d.day ++
    'T' :: Text.padded 2 (s / 3600) ++ ':' :: Text.padded 2 (s / 60 % 60) ++
    ':' :: Text.padded 2 second ++ writeFraction (t.nanos % 1000000000) ++ zone

/-- The text of an instant in JSON. -/
def json (t : Instant) : String := String.ofList (t.write ['Z'])

/-- The text of an instant in a column of a table. -/
def column (t : Instant) : String := String.ofList (t.write "+00:00".toList)

end Instant

end AccessLedger
