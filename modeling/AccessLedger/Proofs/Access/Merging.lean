import AccessLedger.Access.Merge
import AccessLedger.Access.Validation

/-!
# What merging keeps

A list of sections is valid when its names are, each for itself, and none
occurs twice (`validateSections_eq_ok`).  Merging a valid request into valid
sections gives valid sections (`valid_mergeSections`), and a section that may
not be changed is there afterwards if and as it was there before
(`filter_mergeSections`).
-/

namespace AccessLedger

theorem sectionFault?_eq_none {seen : List String} {name : String} :
    sectionFault? seen name = none ↔ sectionFault? [] name = none ∧ name ∉ seen := by
  unfold sectionFault?
  split
  · simp
  · split
    · simp
    · split
      · simp
      · simp

theorem firstFault?_eq_none {seen : List String} {sections : List AccessSection} :
    firstFault? seen sections = none ↔
      (∀ s ∈ sections, sectionFault? [] s.name = none ∧ s.name ∉ seen) ∧
      (sections.map AccessSection.name).Nodup := by
  induction sections generalizing seen with
  | nil => simp [firstFault?]
  | cons s r ih =>
    rw [firstFault?, List.map_cons, List.nodup_cons, List.forall_mem_cons]
    cases hs : sectionFault? seen s.name with
    | some fault =>
      simp only [← sectionFault?_eq_none, hs, reduceCtorEq, false_and]
    | none =>
      have hhead := sectionFault?_eq_none.mp hs
      simp only [ih, List.mem_cons, not_or]
      constructor
      · rintro ⟨hrest, hnodup⟩
        refine ⟨⟨hhead, fun t ht => ⟨(hrest t ht).1, (hrest t ht).2.2⟩⟩, fun hin => ?_, hnodup⟩
        obtain ⟨t, ht, hname⟩ := List.mem_map.mp hin
        exact (hrest t ht).2.1 hname
      · rintro ⟨⟨-, hrest⟩, hnew, hnodup⟩
        refine ⟨fun t ht => ⟨(hrest t ht).1, fun hname => ?_, (hrest t ht).2⟩, hnodup⟩
        exact hnew (List.mem_map.mpr ⟨t, ht, hname⟩)

/-- A list of sections is valid when each name is valid and none occurs twice. -/
theorem validateSections_eq_ok {sections : List AccessSection} :
    validateSections sections = .ok () ↔
      (∀ s ∈ sections, sectionFault? [] s.name = none) ∧
      (sections.map AccessSection.name).Nodup := by
  have hfault := @firstFault?_eq_none [] sections
  simp only [List.not_mem_nil, not_false_eq_true, and_true] at hfault
  rw [← hfault]
  unfold validateSections
  cases firstFault? [] sections <;> simp

section

variable {canChange : String → Bool} {isKnown : GroupUuid → Bool}
variable {stored requested : List AccessSection}

theorem name_of_find? {n : String} {t : AccessSection}
    (h : stored.find? (fun s => s.name = n) = some t) : t.name = n := by
  simpa only [decide_eq_true_eq] using List.find?_some h

/-- What becomes of a requested section has its name. -/
theorem name_mergeRequested {s t : AccessSection}
    (h : mergeRequested canChange isKnown stored s = some t) : t.name = s.name := by
  unfold mergeRequested at h
  split at h
  · cases h
    exact s.retainRules_name _
  · exact name_of_find? h

/-- A section that is merged is a stored one or is requested under its name. -/
theorem mem_mergeSections {t : AccessSection}
    (h : t ∈ mergeSections canChange isKnown stored requested) :
    (∃ s ∈ requested, mergeRequested canChange isKnown stored s = some t) ∨
      t ∈ stored ∧ survives canChange requested t = true := by
  rcases List.mem_append.mp h with hrequested | hstored
  · exact .inl (List.mem_filterMap.mp hrequested)
  · exact .inr (List.mem_filter.mp hstored)

theorem sublist_names_filterMap {f : AccessSection → Option AccessSection}
    (hf : ∀ s t, f s = some t → t.name = s.name) (l : List AccessSection) :
    List.Sublist ((l.filterMap f).map AccessSection.name) (l.map AccessSection.name) := by
  induction l with
  | nil => exact .slnil
  | cons s l ih =>
    rw [List.filterMap_cons, List.map_cons]
    cases hs : f s with
    | none => exact ih.cons _
    | some t =>
      rw [List.map_cons, hf s t hs]
      exact ih.cons_cons _

theorem not_requested_of_survives {s : AccessSection} (h : survives canChange requested s = true) :
    s.name ∉ requested.map AccessSection.name := by
  intro hin
  obtain ⟨t, ht, hname⟩ := List.mem_map.mp hin
  have hany : requested.any (·.name = s.name) = true :=
    List.any_eq_true.mpr ⟨t, ht, decide_eq_true hname⟩
  rw [survives, hany] at h
  cases h

/-- Merging a valid request into valid sections gives valid sections. -/
theorem valid_mergeSections (hstored : validateSections stored = .ok ())
    (hrequested : validateSections requested = .ok ()) :
    validateSections (mergeSections canChange isKnown stored requested) = .ok () := by
  rw [validateSections_eq_ok] at *
  constructor
  · intro t ht
    rcases mem_mergeSections ht with ⟨s, hs, hst⟩ | ⟨ht, -⟩
    · rw [name_mergeRequested hst]
      exact hrequested.1 s hs
    · exact hstored.1 t ht
  · have hfirst : List.Sublist
        ((requested.filterMap (mergeRequested canChange isKnown stored)).map AccessSection.name)
        (requested.map AccessSection.name) :=
      sublist_names_filterMap (fun _ _ => name_mergeRequested) requested
    have hsecond : List.Sublist ((stored.filter (survives canChange requested)).map _) _ :=
      List.filter_sublist.map AccessSection.name
    rw [mergeSections, List.map_append]
    refine List.nodup_append.mpr
      ⟨hfirst.nodup hrequested.2, hsecond.nodup hstored.2, fun a ha b hb => ?_⟩
    obtain ⟨s, hs, rfl⟩ := List.mem_map.mp hb
    rintro rfl
    exact not_requested_of_survives (List.mem_filter.mp hs).2 (hfirst.subset ha)

/-- In a list without repeated names the sections of one name are the first of them. -/
theorem filter_name_eq_find? (h : (stored.map AccessSection.name).Nodup) (n : String) :
    stored.filter (·.name = n) = (stored.find? (·.name = n)).toList := by
  induction stored with
  | nil => rfl
  | cons s r ih =>
    obtain ⟨hnew, hnodup⟩ := List.nodup_cons.mp h
    by_cases hs : s.name = n
    · have hrest : r.filter (·.name = n) = [] := by
        refine List.filter_eq_nil_iff.mpr fun t ht hname => hnew ?_
        rw [hs, ← of_decide_eq_true hname]
        exact List.mem_map_of_mem ht
      simp only [List.filter_cons, List.find?_cons, hs, decide_true, if_true, hrest,
        Option.toList_some]
    · simp only [List.filter_cons, List.find?_cons, hs, decide_false, Bool.false_eq_true, if_false,
        ih hnodup]

/-- What a request makes of a name that may not be changed. -/
theorem filter_filterMap_mergeRequested {n : String} (hn : canChange n = false)
    (h : (requested.map AccessSection.name).Nodup) :
    (requested.filterMap (mergeRequested canChange isKnown stored)).filter (·.name = n) =
      if n ∈ requested.map AccessSection.name then (stored.find? (·.name = n)).toList else [] := by
  induction requested with
  | nil => rfl
  | cons s r ih =>
    obtain ⟨hnew, hnodup⟩ := List.nodup_cons.mp h
    have ih := ih hnodup
    rw [List.filterMap_cons, List.map_cons]
    by_cases hs : s.name = n
    · subst hs
      rw [if_neg hnew] at ih
      have hmerge : mergeRequested canChange isKnown stored s =
          stored.find? (·.name = s.name) := by
        rw [mergeRequested, hn, if_neg Bool.false_ne_true]
      rw [if_pos List.mem_cons_self, hmerge]
      cases hfound : stored.find? (·.name = s.name) with
      | none => exact ih
      | some t =>
        have hname : t.name = s.name := name_of_find? hfound
        simp only [List.filter_cons, hname, decide_true, if_true, ih, Option.toList_some]
    · have hmem : n ∈ s.name :: r.map AccessSection.name ↔ n ∈ r.map AccessSection.name := by
        rw [List.mem_cons, or_iff_right (Ne.symm hs)]
      simp only [hmem, ← ih]
      cases hmerge : mergeRequested canChange isKnown stored s with
      | none => rfl
      | some t =>
        have hname : t.name ≠ n := name_mergeRequested hmerge ▸ hs
        simp only [List.filter_cons, hname, decide_false, Bool.false_eq_true, if_false]

/-- A section that may not be changed is merged if and as it was stored. -/
theorem filter_mergeSections {n : String} (hn : canChange n = false)
    (hstored : validateSections stored = .ok ())
    (hrequested : validateSections requested = .ok ()) :
    (mergeSections canChange isKnown stored requested).filter (·.name = n) =
      stored.filter (·.name = n) := by
  rw [validateSections_eq_ok] at hstored hrequested
  rw [mergeSections, List.filter_append, filter_filterMap_mergeRequested hn hrequested.2,
    List.filter_filter]
  by_cases hin : n ∈ requested.map AccessSection.name
  · have hgone : stored.filter (fun s => decide (s.name = n) && survives canChange requested s) =
        [] := by
      refine List.filter_eq_nil_iff.mpr fun s _ hs => ?_
      obtain ⟨hname, hsurvives⟩ := Bool.and_eq_true_iff.mp hs
      exact not_requested_of_survives hsurvives (of_decide_eq_true hname ▸ hin)
    rw [if_pos hin, hgone, List.append_nil, filter_name_eq_find? hstored.2]
  · rw [if_neg hin, List.nil_append]
    refine List.filter_congr fun s _ => ?_
    by_cases hs : s.name = n
    · subst hs
      have hany : requested.any (·.name = s.name) = false := by
        refine List.any_eq_false.mpr fun t ht hname => hin ?_
        rw [← of_decide_eq_true hname]
        exact List.mem_map_of_mem ht
      simp only [survives, hany, hn, decide_true, Bool.not_false, Bool.and_self]
    · simp only [hs, decide_false, Bool.false_and]

end

end AccessLedger
