import AccessLedger.Access.Section

/-!
# Differences between section lists

`sectionDifference` names the sections that occur, with all of their content,
in exactly one of two lists (`mem_sectionDifference`), so there are none if the
lists have the same sections (`isEmpty_sectionDifference_iff`).
-/

namespace AccessLedger

/-- The names of the sections that occur in exactly one of two lists. -/
def sectionDifference (a b : List AccessSection) : NameSet :=
  NameSet.ofList ((a.filter (· ∉ b) ++ b.filter (· ∉ a)).map AccessSection.name)

theorem mem_sectionDifference {a b : List AccessSection} {n : String} :
    n ∈ sectionDifference a b ↔
      ∃ s : AccessSection, s.name = n ∧ (s ∈ a ∧ s ∉ b ∨ s ∈ b ∧ s ∉ a) := by
  simp only [sectionDifference, NameSet.mem_ofList, List.mem_map, List.mem_append,
    List.mem_filter, decide_eq_true_eq]
  exact exists_congr fun s => and_comm

/-- Two lists differ nowhere if they are the same as sets. -/
theorem isEmpty_sectionDifference_iff {a b : List AccessSection} :
    (sectionDifference a b).isEmpty = true ↔ ∀ s, s ∈ a ↔ s ∈ b := by
  rw [NameSet.isEmpty_iff]
  constructor
  · intro hnone s
    have hat := mt mem_sectionDifference.mpr (hnone s.name)
    constructor
    · intro hs
      exact Decidable.byContradiction fun hnot => hat ⟨s, rfl, .inl ⟨hs, hnot⟩⟩
    · intro hs
      exact Decidable.byContradiction fun hnot => hat ⟨s, rfl, .inr ⟨hs, hnot⟩⟩
  · intro hsame n hn
    obtain ⟨s, -, ⟨hs, hnot⟩ | ⟨hs, hnot⟩⟩ := mem_sectionDifference.mp hn
    · exact hnot ((hsame s).mp hs)
    · exact hnot ((hsame s).mpr hs)

end AccessLedger
