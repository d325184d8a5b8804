import AccessLedger.Proofs.Access.Unapplied
import Mathlib.Logic.Basic

/-!
# Laws of differences

The difference of two lists names a section if the section, with all of its
content, is in exactly one of them.  So it depends on the lists as sets only,
does not tell them apart, and cannot be avoided by going through a third list
(`sectionDifference_triangle`).  Two lists that are named once differ at the
names under which different sections are found in them, and nowhere exactly if
one is a permutation of the other (`difference_is_specified`).
-/

namespace AccessLedger

section

variable {a b c : List AccessSection} {n : String}

theorem mem_sectionDifference_iff_xor :
    n ∈ sectionDifference a b ↔ ∃ s : AccessSection, s.name = n ∧ Xor (s ∈ a) (s ∈ b) :=
  mem_sectionDifference

/-- It does not matter which list comes first. -/
theorem sectionDifference_comm (a b : List AccessSection) :
    sectionDifference a b = sectionDifference b a := by
  refine NameSet.ext fun n => ?_
  simp only [mem_sectionDifference_iff_xor, xor_comm]

/-- Neither the order of sections nor how often they are repeated matters. -/
theorem sectionDifference_congr {a' b' : List AccessSection} (ha : ∀ s, s ∈ a ↔ s ∈ a')
    (hb : ∀ s, s ∈ b ↔ s ∈ b') : sectionDifference a b = sectionDifference a' b' := by
  refine NameSet.ext fun n => ?_
  simp only [mem_sectionDifference_iff_xor, ha, hb]

/-- What two lists differ in, one of them differs in from any third list. -/
theorem sectionDifference_triangle (b : List AccessSection) (h : n ∈ sectionDifference a c) :
    n ∈ sectionDifference a b ∨ n ∈ sectionDifference b c := by
  obtain ⟨s, hname, hone⟩ := mem_sectionDifference_iff_xor.mp h
  by_cases hab : Xor (s ∈ a) (s ∈ b)
  · exact .inl (mem_sectionDifference_iff_xor.mpr ⟨s, hname, hab⟩)
  · have hsame : s ∈ a ↔ s ∈ b := (not_xor _ _).mp hab
    rw [hsame] at hone
    exact .inr (mem_sectionDifference_iff_xor.mpr ⟨s, hname, hone⟩)

theorem NameSet.eq_empty_iff {names : NameSet} : names = .empty ↔ names.isEmpty = true := by
  constructor
  · rintro rfl
    rfl
  · intro h
    refine NameSet.ext fun n => ?_
    exact iff_of_false (NameSet.isEmpty_iff.mp h n) (NameSet.not_mem_empty n)

end

/--
What the difference of two lists of sections means: it names the sections that
are in exactly one of them.  It is symmetric, is the same for lists with the
same sections, in any order and repeated at will, and is covered by the
differences from any third list.  For lists that are named once it is where
different sections are found under a name, and it is empty exactly if one list
is a permutation of the other.
-/
theorem difference_is_specified (a b : List AccessSection) :
    (∀ n, n ∈ sectionDifference a b ↔
      ∃ s : AccessSection, s.name = n ∧ Xor (s ∈ a) (s ∈ b)) ∧
    sectionDifference a b = sectionDifference b a ∧
    (∀ a' b' : List AccessSection, (∀ s, s ∈ a ↔ s ∈ a') → (∀ s, s ∈ b ↔ s ∈ b') →
      sectionDifference a b = sectionDifference a' b') ∧
    (∀ (c : List AccessSection) (n : String), n ∈ sectionDifference a b →
      n ∈ sectionDifference a c ∨ n ∈ sectionDifference c b) ∧
    (NamedOnce a → NamedOnce b →
      (∀ n, n ∈ sectionDifference a b ↔ a.find? (·.name = n) ≠ b.find? (·.name = n)) ∧
      (sectionDifference a b = .empty ↔ a.Perm b)) := by
  refine ⟨fun n => mem_sectionDifference_iff_xor, sectionDifference_comm a b, ?_, ?_, ?_⟩
  · intro a' b' ha hb
    exact sectionDifference_congr ha hb
  · intro c n hn
    exact sectionDifference_triangle c hn
  · intro ha hb
    refine ⟨fun n => mem_sectionDifference_iff_find? ha hb, ?_⟩
    rw [NameSet.eq_empty_iff]
    exact isEmpty_sectionDifference ha hb

/-- Two sections without permissions. -/
def bareSections : List AccessSection := [⟨"refs/a", []⟩, ⟨"refs/b", []⟩]

/-- The same two the other way round, one of them with a permission. -/
def grownSections : List AccessSection := [⟨"refs/b", [⟨"read", false, []⟩]⟩, ⟨"refs/a", []⟩]

/-- The lists differ where a section has grown, however they are ordered and repeated. -/
theorem grown_section_is_named :
    NamedOnce bareSections ∧ NamedOnce grownSections ∧
    "refs/b" ∈ sectionDifference bareSections grownSections ∧
    "refs/a" ∉ sectionDifference bareSections grownSections ∧
    ¬bareSections.Perm grownSections ∧
    "refs/b" ∈ sectionDifference (bareSections ++ bareSections) grownSections.reverse ∧
    ("refs/b" ∈ sectionDifference bareSections [] ∨
      "refs/b" ∈ sectionDifference [] grownSections) := by
  obtain ⟨-, -, hcongr, htriangle, hfound⟩ := difference_is_specified bareSections grownSections
  have hbare : NamedOnce bareSections := by
    unfold NamedOnce
    decide
  have hgrown : NamedOnce grownSections := by
    unfold NamedOnce
    decide
  obtain ⟨hfound, hperm⟩ := hfound hbare hgrown
  have hb : "refs/b" ∈ sectionDifference bareSections grownSections :=
    (hfound "refs/b").mpr (by decide)
  refine ⟨hbare, hgrown, hb, fun ha => (hfound "refs/a").mp ha (by decide), ?_, ?_,
    htriangle [] _ hb⟩
  · intro h
    have hempty := hperm.mpr h
    rw [hempty] at hb
    exact NameSet.not_mem_empty _ hb
  · rw [← hcongr (bareSections ++ bareSections) grownSections.reverse (by simp) (by simp)]
    exact hb

end AccessLedger
