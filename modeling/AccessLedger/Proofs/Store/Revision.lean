import AccessLedger.Proofs.Access.Encoding

/-!
# Revisions tell sections apart

A revision is the digest of the text of a list of sections, in hexadecimal
digits.  Of these three steps two lose nothing: different lists have different
texts (`sectionsText_injective`), and different digests have different digits
(`Sha256.hex_injective`).  So two lists have one revision only if they are the
same, or if two messages have been found that have one digest
(`revisions_identify_sections`).
-/

namespace AccessLedger

namespace Sha256

/-- Two messages are no collision: if they have one digest, they are the same. -/
def TellsApart (m n : List UInt8) : Prop := digest m = digest n → m = n

theorem hex_cons (b : UInt8) (bs : List UInt8) :
    hex (b :: bs) = Nat.digitChar (b.toNat / 16) :: Nat.digitChar (b.toNat % 16) :: hex bs := rfl

theorem digitChar_inj : ∀ m < 16, ∀ n < 16, Nat.digitChar m = Nat.digitChar n → m = n := by
  decide

/-- The two digits of a byte say which byte it is. -/
theorem hex_injective {as bs : List UInt8} (h : hex as = hex bs) : as = bs := by
  induction as generalizing bs with
  | nil =>
    cases bs with
    | nil => rfl
    | cons b bs => cases h
  | cons a as ih =>
    cases bs with
    | nil => cases h
    | cons b bs =>
      rw [hex_cons, hex_cons] at h
      obtain ⟨hhigh, hlow⟩ := List.cons.inj h
      obtain ⟨hlow, hrest⟩ := List.cons.inj hlow
      have ha := a.toNat_lt
      have hb := b.toNat_lt
      have hquotient := digitChar_inj _ (by omega) _ (by omega) hhigh
      have hremainder := digitChar_inj _ (by omega) _ (by omega) hlow
      have hbyte : a = b := UInt8.toNat_inj.mp (by omega)
      rw [hbyte, ih hrest]

end Sha256

/-- What the revision of a list of sections is the digest of. -/
def hashedBytes (sections : List AccessSection) : List UInt8 := Text.bytes (sectionsText sections)

@[simp]
theorem hashedBytes_inj {a b : List AccessSection} : hashedBytes a = hashedBytes b ↔ a = b := by
  constructor
  · intro h
    exact sectionsText_injective (Text.bytes_injective h)
  · rintro rfl
    rfl

/-- Lists of sections have one revision if what is hashed of them has one digest. -/
theorem revisionOf_inj {a b : List AccessSection} :
    revisionOf a = revisionOf b ↔
      Sha256.digest (hashedBytes a) = Sha256.digest (hashedBytes b) := by
  constructor
  · intro h
    exact Sha256.hex_injective (String.ofList_injective h)
  · intro h
    exact congrArg (fun bytes => String.ofList (Sha256.hex bytes)) h

/--
A section that is stored is read back as it was.  The text that is hashed is
that of one list of sections only, so a revision identifies what is stored
unless SHA-256 has a collision there.
-/
theorem revisions_identify_sections :
    (∀ s : AccessSection, AccessSection.ofStored s.toStored = .ok s) ∧
    (∀ a b, sectionsText a = sectionsText b ↔ a = b) ∧
    ∀ a b, Sha256.TellsApart (hashedBytes a) (hashedBytes b) →
      (revisionOf a = revisionOf b ↔ a = b) := by
  refine ⟨AccessSection.ofStored_toStored, fun a b => ⟨sectionsText_injective, ?_⟩, ?_⟩
  · rintro rfl
    rfl
  · intro a b htells
    rw [revisionOf_inj, ← hashedBytes_inj]
    constructor
    · intro h
      exact htells h
    · intro h
      exact congrArg Sha256.digest h

/-- Two sections whose names have to be escaped, one of them with a rule. -/
def quotedSections : List AccessSection :=
  [⟨"refs/\"a\",\\", [⟨"read", true, [⟨⟨⟨"devs"⟩, "\n"⟩, .block, false, -1, 2⟩]⟩]⟩, ⟨"refs/b", []⟩]

/-- The order of sections counts. -/
theorem reversed_sections_are_told_apart :
    Sha256.TellsApart (hashedBytes quotedSections) (hashedBytes quotedSections.reverse) ∧
      revisionOf quotedSections ≠ revisionOf quotedSections.reverse := by
  have hne : Sha256.digest (hashedBytes quotedSections) ≠
      Sha256.digest (hashedBytes quotedSections.reverse) := by
    decide +kernel
  have htells : Sha256.TellsApart (hashedBytes quotedSections)
      (hashedBytes quotedSections.reverse) :=
    fun h => absurd h hne
  obtain ⟨-, -, hidentify⟩ := revisions_identify_sections
  refine ⟨htells, fun h => ?_⟩
  have hsame := (hidentify _ _ htells).mp h
  revert hsame
  decide

end AccessLedger
