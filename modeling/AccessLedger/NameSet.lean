/-!
# Finite sets of names

A `NameSet` is a strictly increasing list of names, so equal sets are equal
lists (`NameSet.ext`) and writing a set is writing its names in order.  Names
are ordered by code points, which is also the order of their UTF-8 bytes.
-/

namespace AccessLedger

/-- A finite set of names, kept in increasing order. -/
structure NameSet where
  names : List String
  increasing : names.Pairwise (· < ·)

namespace NameSet

/-- Put a name into an increasing list at its place, unless it is there. -/
def insertInto (n : String) : List String → List String
  | [] => [n]
  | m :: r =>
    if n < m then n :: m :: r
    else if m < n then m :: insertInto n r
    else m :: r

theorem eq_of_not_lt {a b : String} (h : ¬a < b) (h' : ¬b < a) : a = b :=
  String.le_antisymm (String.not_lt.mp h') (String.not_lt.mp h)

@[simp]
theorem mem_insertInto {x n : String} {l : List String} :
    x ∈ insertInto n l ↔ x = n ∨ x ∈ l := by
  induction l with
  | nil => simp [insertInto]
  | cons m r ih =>
    unfold insertInto
    split
    · simp
    · next h =>
      split
      · simp only [List.mem_cons, ih]
        constructor
        · rintro (h | h | h) <;> simp [h]
        · rintro (h | h | h) <;> simp [h]
      · next h' =>
        have e := eq_of_not_lt h h'
        simp [e]

theorem pairwise_insertInto (n : String) {l : List String} (h : l.Pairwise (· < ·)) :
    (insertInto n l).Pairwise (· < ·) := by
  induction l with
  | nil => simp [insertInto]
  | cons m r ih =>
    obtain ⟨hm, hr⟩ := List.pairwise_cons.mp h
    unfold insertInto
    split
    · next hn =>
      refine List.pairwise_cons.mpr ⟨fun x hx => ?_, h⟩
      rcases List.mem_cons.mp hx with rfl | hx
      · exact hn
      · exact String.lt_trans hn (hm x hx)
    · split
      · next hn =>
        refine List.pairwise_cons.mpr ⟨fun x hx => ?_, ih hr⟩
        rcases mem_insertInto.mp hx with rfl | hx
        · exact hn
        · exact hm x hx
      · exact h

/-- The set without names. -/
def empty : NameSet := ⟨[], List.Pairwise.nil⟩

/-- A set with one more name. -/
def insert (s : NameSet) (n : String) : NameSet :=
  ⟨insertInto n s.names, pairwise_insertInto n s.increasing⟩

/-- The set of the names in a list. -/
def ofList (l : List String) : NameSet := l.foldr (fun n s => s.insert n) empty

instance : Membership String NameSet := ⟨fun s n => n ∈ s.names⟩

instance (n : String) (s : NameSet) : Decidable (n ∈ s) := inferInstanceAs (Decidable (n ∈ s.names))

/-- Whether the set has no names. -/
def isEmpty (s : NameSet) : Bool := s.names.isEmpty

@[simp]
theorem mem_insert {x n : String} {s : NameSet} : x ∈ s.insert n ↔ x = n ∨ x ∈ s :=
  mem_insertInto

@[simp]
theorem not_mem_empty (x : String) : x ∉ empty := List.not_mem_nil

@[simp]
theorem mem_ofList {x : String} {l : List String} : x ∈ ofList l ↔ x ∈ l := by
  induction l with
  | nil => simp [ofList]
  | cons n r ih =>
    rw [ofList, List.foldr_cons, mem_insert, List.mem_cons]
    exact or_congr_right ih

/-- Increasing lists with the same elements are equal. -/
theorem eq_of_pairwise_of_mem_iff {l m : List String} (hl : l.Pairwise (· < ·))
    (hm : m.Pairwise (· < ·)) (h : ∀ x, x ∈ l ↔ x ∈ m) : l = m := by
  induction l generalizing m with
  | nil =>
    cases m with
    | nil => rfl
    | cons b r => exact absurd ((h b).mpr List.mem_cons_self) List.not_mem_nil
  | cons a l ih =>
    cases m with
    | nil => exact absurd ((h a).mp List.mem_cons_self) List.not_mem_nil
    | cons b r =>
      obtain ⟨ha, hl⟩ := List.pairwise_cons.mp hl
      obtain ⟨hb, hr⟩ := List.pairwise_cons.mp hm
      have hab : a = b := by
        rcases List.mem_cons.mp ((h a).mp List.mem_cons_self) with e | hin
        · exact e
        · rcases List.mem_cons.mp ((h b).mpr List.mem_cons_self) with e | hin'
          · exact e.symm
          · exact absurd (String.lt_trans (hb a hin) (ha b hin')) (String.lt_irrefl b)
      subst hab
      congr 1
      refine ih hl hr fun x => ⟨fun hx => ?_, fun hx => ?_⟩
      · rcases List.mem_cons.mp ((h x).mp (List.mem_cons_of_mem _ hx)) with rfl | hx'
        · exact absurd (ha x hx) (String.lt_irrefl x)
        · exact hx'
      · rcases List.mem_cons.mp ((h x).mpr (List.mem_cons_of_mem _ hx)) with rfl | hx'
        · exact absurd (hb x hx) (String.lt_irrefl x)
        · exact hx'

theorem eq_of_names_eq {s t : NameSet} (h : s.names = t.names) : s = t := by
  cases s; cases t; cases h; rfl

/-- Two sets with the same names are the same set. -/
theorem ext {s t : NameSet} (h : ∀ x, x ∈ s ↔ x ∈ t) : s = t :=
  eq_of_names_eq (eq_of_pairwise_of_mem_iff s.increasing t.increasing h)

/-- A set is the set of its names. -/
@[simp]
theorem ofList_names (s : NameSet) : ofList s.names = s :=
  ext fun _ => mem_ofList

theorem isEmpty_iff {s : NameSet} : s.isEmpty = true ↔ ∀ x, x ∉ s := by
  rw [isEmpty, List.isEmpty_iff]
  exact List.eq_nil_iff_forall_not_mem

instance : DecidableEq NameSet := fun s t =>
  if h : s.names = t.names then .isTrue (eq_of_names_eq h)
  else .isFalse fun e => h (congrArg names e)

end NameSet

end AccessLedger
