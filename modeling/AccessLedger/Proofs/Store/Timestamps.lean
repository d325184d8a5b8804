import AccessLedger.Proofs.Audit.Additions
import AccessLedger.Proofs.Calendar.Relaxed

/-!
# Timestamps in the store

The store keeps an instant as text.  What is read from that text is the instant
itself if its year has four digits, and no instant otherwise
(`decodeTimestamp_column_eq`).  In every year the text is that of one instant
only (`Instant.column_inj_iff`), so two audit rows of a member of a group have
one key exactly if their periods begin at one instant
(`timestamps_survive_storage`).
-/

namespace AccessLedger

/-- An instant is read back from a column exactly if its year has four digits. -/
theorem decodeTimestamp_column_eq (t : Instant) : decodeTimestamp t.column =
    if t.InFourDigits then .ok t else .error (.store .timestamp) := by
  split
  · next h => exact decodeTimestamp_column h
  · next h => rw [decodeTimestamp, Timestamp.strict?_column_of_signed h]

@[simp]
theorem Instant.column_inj_iff {t u : Instant} : t.column = u.column ↔ t = u := by
  constructor
  · intro h
    exact Instant.write_injective _ (String.ofList_injective h)
  · rintro rfl
    rfl

@[simp]
theorem AccountId.scalar_inj_iff {a b : AccountId} : a.scalar = b.scalar ↔ a = b := by
  constructor
  · exact AccountId.scalar_inj
  · rintro rfl
    rfl

namespace Database

/-- A period that has begun takes the key of its group, its member and its instant. -/
@[simp]
theorem memberBegins_join (db : Database) (group group' : GroupUuid) (member member' : AccountId)
    (addedBy : AccountId) (t u : Instant) :
    (db.join group member addedBy t).memberBegins group' member' u = true ↔
      db.memberBegins group' member' u = true ∨ group = group' ∧ member = member' ∧ t = u := by
  simp only [memberBegins, join, List.any_append, List.any_cons, List.any_nil, Bool.or_false,
    Bool.or_eq_true, Bool.and_eq_true, decide_eq_true_eq, AccountId.scalar_inj_iff,
    Instant.column_inj_iff, and_assoc]

@[simp]
theorem includeBegins_attach (db : Database) (group group' included included' : GroupUuid)
    (addedBy : AccountId) (t u : Instant) :
    (db.attach group included addedBy t).includeBegins group' included' u = true ↔
      db.includeBegins group' included' u = true ∨
        group = group' ∧ included = included' ∧ t = u := by
  simp only [includeBegins, attach, List.any_append, List.any_cons, List.any_nil, Bool.or_false,
    Bool.or_eq_true, Bool.and_eq_true, decide_eq_true_eq, Instant.column_inj_iff, and_assoc]

end Database

/--
What is read where an instant has been stored is that instant if its year is
one of 0 to 9999, to the nanosecond and in a leap second too, and the error
that there is no timestamp in any other year.  Different instants are stored
differently, so a row that begins a period stands in the way of another one
exactly if both are about the same two parties and begin at the same instant.
-/
theorem timestamps_survive_storage :
    (∀ t : Instant, decodeTimestamp t.column =
      if 0 ≤ t.date.year ∧ t.date.year ≤ 9999 then .ok t else .error (.store .timestamp)) ∧
    (∀ t u : Instant, t.column = u.column ↔ t = u) ∧
    (∀ (db : Database) (group group' : GroupUuid) (member member' addedBy : AccountId)
        (t u : Instant),
      (db.join group member addedBy t).memberBegins group' member' u = true ↔
        db.memberBegins group' member' u = true ∨ group = group' ∧ member = member' ∧ t = u) ∧
    ∀ (db : Database) (group group' included included' : GroupUuid) (addedBy : AccountId)
        (t u : Instant),
      (db.attach group included addedBy t).includeBegins group' included' u = true ↔
        db.includeBegins group' included' u = true ∨
          group = group' ∧ included = included' ∧ t = u :=
  ⟨decodeTimestamp_column_eq, fun _ _ => Instant.column_inj_iff, Database.memberBegins_join,
    Database.includeBegins_attach⟩

/-- The middle of the leap second at the end of the year 2016. -/
def leapSecond : Instant := ⟨1483228799, 1500000000, by decide, by decide, by decide⟩

/-- It is stored as a second 60, and so differs from the second before it. -/
example : leapSecond.column = "2016-12-31T23:59:60.500+00:00" := by
  decide +kernel

end AccessLedger
