import AccessLedger.Access.Difference
import AccessLedger.Proofs.Access.Merging
import Mathlib.Data.List.Nodup

/-!
# What a merge does not apply

In a list without repeated names, as all valid lists are, at most one section
is found under a name, and two such lists differ at a name if they have
different sections there (`mem_sectionDifference_iff_find?`).  So the merged
sections are known by what is found under each name (`find?_mergeSections`),
and they differ from the requested ones at the names that `Unapplied` lists
(`mem_sectionDifference_mergeSections`).
-/

namespace AccessLedger

/-- No two sections have one name. -/
def NamedOnce (sections : List AccessSection) : Prop :=
  (sections.map AccessSection.name).Nodup

theorem namedOnce_of_valid {sections : List AccessSection}
    (h : validateSections sections = .ok ()) : NamedOnce sections :=
  (validateSections_eq_ok.mp h).2

section

variable {a b : List AccessSection} {n : String}

/-- Under a name the one section with that name is found. -/
theorem NamedOnce.find?_eq_some (h : NamedOnce a) {s : AccessSection} :
    a.find? (·.name = n) = some s ↔ s ∈ a ∧ s.name = n := by
  constructor
  · intro hfound
    exact ⟨List.mem_of_find?_eq_some hfound, name_of_find? hfound⟩
  · rintro ⟨hs, rfl⟩
    have hone : a.filter (·.name = s.name) = (a.find? (·.name = s.name)).toList :=
      filter_name_eq_find? h s.name
    have hin : s ∈ a.filter (·.name = s.name) :=
      List.mem_filter.mpr ⟨hs, decide_eq_true rfl⟩
    rw [hone, Option.mem_toList] at hin
    exact hin

/-- Two lists differ at a name if they have different sections there. -/
theorem mem_sectionDifference_iff_find? (ha : NamedOnce a) (hb : NamedOnce b) :
    n ∈ sectionDifference a b ↔ a.find? (·.name = n) ≠ b.find? (·.name = n) := by
  rw [mem_sectionDifference]
  constructor
  · rintro ⟨s, rfl, ⟨hs, hnot⟩ | ⟨hs, hnot⟩⟩ heq
    · rw [ha.find?_eq_some.mpr ⟨hs, rfl⟩] at heq
      exact hnot (hb.find?_eq_some.mp heq.symm).1
    · rw [hb.find?_eq_some.mpr ⟨hs, rfl⟩] at heq
      exact hnot (ha.find?_eq_some.mp heq).1
  · intro hne
    cases hfound : a.find? (·.name = n) with
    | some s =>
      obtain ⟨hs, hname⟩ := ha.find?_eq_some.mp hfound
      refine ⟨s, hname, .inl ⟨hs, fun hin => hne ?_⟩⟩
      rw [hfound, hb.find?_eq_some.mpr ⟨hin, hname⟩]
    | none =>
      cases hfound' : b.find? (·.name = n) with
      | none => exact absurd (hfound.trans hfound'.symm) hne
      | some s =>
        obtain ⟨hs, hname⟩ := hb.find?_eq_some.mp hfound'
        refine ⟨s, hname, .inr ⟨hs, fun hin => ?_⟩⟩
        rw [ha.find?_eq_some.mpr ⟨hin, hname⟩] at hfound
        cases hfound

/-- Two lists differ nowhere if they have the same sections, in whatever order. -/
theorem isEmpty_sectionDifference (ha : NamedOnce a) (hb : NamedOnce b) :
    (sectionDifference a b).isEmpty = true ↔ a.Perm b := by
  rw [isEmpty_sectionDifference_iff, List.perm_ext_iff_of_nodup (ha.of_map _) (hb.of_map _)]

end

/-- A section has lost no rule if all its rules are to be kept. -/
theorem AccessSection.retainRules_eq_self_iff {keep : PermissionRule → Bool} {s : AccessSection} :
    s.retainRules keep = s ↔ ∀ r ∈ s.rules, keep r = true := by
  constructor
  · intro h
    have hrules := congrArg AccessSection.rules h
    rw [rules_retainRules] at hrules
    exact List.filter_eq_self.mp hrules
  · intro h
    have hpermission (p : Permission) (hp : p ∈ s.permissions) : p.retainRules keep = p := by
      have hkept : p.rules.filter keep = p.rules :=
        List.filter_eq_self.mpr fun r hr => h r (List.mem_flatMap.mpr ⟨p, hp, hr⟩)
      simp [Permission.retainRules, hkept]
    have hpermissions : s.permissions.map (Permission.retainRules keep) = s.permissions := by
      rw [List.map_congr_left hpermission, List.map_id']
    simp [retainRules, hpermissions]

section

variable {canChange : String → Bool} {isKnown : GroupUuid → Bool}
variable {stored requested : List AccessSection} {n : String}

/--
What is found under a name after a merge.  A requested section that may be
changed is found without the rules for unknown groups, and one that may be
changed and is not requested is gone; the others are found as before.
-/
theorem find?_mergeSections (hstored : validateSections stored = .ok ())
    (hrequested : validateSections requested = .ok ()) :
    (mergeSections canChange isKnown stored requested).find? (·.name = n) =
      if canChange n = true then
        (requested.find? (·.name = n)).map fun s => s.retainRules fun r => isKnown r.group.uuid
      else stored.find? (·.name = n) := by
  cases hmine : canChange n with
  | false =>
    rw [if_neg Bool.false_ne_true, ← List.head?_filter, ← List.head?_filter,
      filter_mergeSections hmine hstored hrequested]
  | true =>
    have hmerged : NamedOnce (mergeSections canChange isKnown stored requested) :=
      namedOnce_of_valid (valid_mergeSections hstored hrequested)
    refine Option.ext fun t => ?_
    rw [if_pos rfl, hmerged.find?_eq_some, Option.map_eq_some_iff]
    constructor
    · rintro ⟨ht, hname⟩
      rcases mem_mergeSections ht with ⟨s, hs, hst⟩ | ⟨-, hsurvives⟩
      · have hsname : s.name = n := (name_mergeRequested hst).symm.trans hname
        refine ⟨s, (namedOnce_of_valid hrequested).find?_eq_some.mpr ⟨hs, hsname⟩, ?_⟩
        simpa [mergeRequested, hsname, hmine] using hst
      · simp [survives, hname, hmine] at hsurvives
    · rintro ⟨s, hfound, rfl⟩
      obtain ⟨hs, rfl⟩ := (namedOnce_of_valid hrequested).find?_eq_some.mp hfound
      refine ⟨List.mem_append_left _ (List.mem_filterMap.mpr ⟨s, hs, ?_⟩), rfl⟩
      rw [mergeRequested, if_pos hmine]

/-- A user who may change all sections replaces them. -/
theorem mergeSections_of_covers (hall : ∀ n, canChange n = true) :
    mergeSections canChange isKnown stored requested =
      requested.map fun s => s.retainRules fun r => isKnown r.group.uuid := by
  have hrequested : mergeRequested canChange isKnown stored =
      fun s => some (s.retainRules fun r => isKnown r.group.uuid) :=
    funext fun s => if_pos (hall s.name)
  have hstored : stored.filter (survives canChange requested) = [] :=
    List.filter_eq_nil_iff.mpr fun s _ => by simp [survives, hall]
  rw [mergeSections, hrequested, hstored, List.filterMap_eq_map', List.append_nil]

/-- Nothing comes of merging the same request once more. -/
theorem mergeSections_merged (hstored : validateSections stored = .ok ())
    (hrequested : validateSections requested = .ok ()) :
    mergeSections canChange isKnown (mergeSections canChange isKnown stored requested) requested =
      mergeSections canChange isKnown stored requested := by
  have hmine (s : AccessSection) :
      mergeRequested canChange isKnown (mergeSections canChange isKnown stored requested) s =
        mergeRequested canChange isKnown stored s := by
    cases hcan : canChange s.name with
    | true => simp only [mergeRequested, hcan, if_true]
    | false =>
      simp only [mergeRequested, find?_mergeSections hstored hrequested, hcan,
        Bool.false_eq_true, if_false]
  have hothers : (mergeSections canChange isKnown stored requested).filter
      (survives canChange requested) = stored.filter (survives canChange requested) := by
    have hnone : (requested.filterMap (mergeRequested canChange isKnown stored)).filter
        (survives canChange requested) = [] := by
      refine List.filter_eq_nil_iff.mpr fun t ht hsurvives => ?_
      obtain ⟨s, hs, hst⟩ := List.mem_filterMap.mp ht
      refine not_requested_of_survives hsurvives ?_
      rw [name_mergeRequested hst]
      exact List.mem_map_of_mem hs
    rw [mergeSections, List.filter_append, hnone, List.nil_append, List.filter_filter]
    simp only [Bool.and_self]
  rw [mergeSections, hothers, List.filterMap_congr fun s _ => hmine s]
  rfl

/-- Why a name is not as requested after a merge. -/
inductive Unapplied (canChange : String → Bool) (isKnown : GroupUuid → Bool)
    (stored requested : List AccessSection) (n : String) : Prop
  /-- The section may be changed, and one of its rules is for an unknown group. -/
  | unknownGroup {s : AccessSection} {r : PermissionRule}
      (found : requested.find? (·.name = n) = some s) (mine : canChange n = true)
      (rule : r ∈ s.rules) (unknown : isKnown r.group.uuid = false)
  /-- The section may not be changed, and is not stored as it is requested. -/
  | kept {s : AccessSection} (found : requested.find? (·.name = n) = some s)
      (others : canChange n = false) (differs : stored.find? (·.name = n) ≠ some s)
  /-- The section may not be changed, and is stored although it is not requested. -/
  | left {s : AccessSection} (absent : requested.find? (·.name = n) = none)
      (others : canChange n = false) (found : stored.find? (·.name = n) = some s)

/-- Only the groups of the requested rules matter. -/
theorem Unapplied.congr {isKnown' : GroupUuid → Bool}
    (hagree : ∀ s ∈ requested, ∀ r ∈ s.rules, isKnown r.group.uuid = isKnown' r.group.uuid)
    (h : Unapplied canChange isKnown stored requested n) :
    Unapplied canChange isKnown' stored requested n := by
  cases h with
  | @unknownGroup s r found mine rule unknown =>
    rw [hagree s (List.mem_of_find?_eq_some found) r rule] at unknown
    exact .unknownGroup found mine rule unknown
  | kept found others differs => exact .kept found others differs
  | left absent others found => exact .left absent others found

/-- Merged sections differ from the requested ones at the names that are unapplied. -/
theorem mem_sectionDifference_mergeSections (hstored : validateSections stored = .ok ())
    (hrequested : validateSections requested = .ok ()) :
    n ∈ sectionDifference requested (mergeSections canChange isKnown stored requested) ↔
      Unapplied canChange isKnown stored requested n := by
  have hmerged : NamedOnce (mergeSections canChange isKnown stored requested) :=
    namedOnce_of_valid (valid_mergeSections hstored hrequested)
  rw [mem_sectionDifference_iff_find? (namedOnce_of_valid hrequested) hmerged,
    find?_mergeSections hstored hrequested]
  constructor
  · intro hdiffers
    cases hmine : canChange n with
    | true =>
      rw [hmine, if_pos rfl] at hdiffers
      cases hfound : requested.find? (·.name = n) with
      | none => simp [hfound] at hdiffers
      | some s =>
        have hlost : s.retainRules (fun r => isKnown r.group.uuid) ≠ s := by
          intro hsame
          simp [hfound, hsame] at hdiffers
        rw [Ne, AccessSection.retainRules_eq_self_iff] at hlost
        push Not at hlost
        obtain ⟨r, hr, hunknown⟩ := hlost
        exact .unknownGroup hfound hmine hr (Bool.eq_false_iff.mpr hunknown)
    | false =>
      rw [hmine, if_neg Bool.false_ne_true] at hdiffers
      cases hfound : requested.find? (·.name = n) with
      | some s => exact .kept hfound hmine fun hsame => hdiffers (hfound.trans hsame.symm)
      | none =>
        obtain ⟨s, hs⟩ := Option.ne_none_iff_exists'.mp fun hnone =>
          hdiffers (hfound.trans hnone.symm)
        exact .left hfound hmine hs
  · intro hunapplied heq
    cases hunapplied with
    | @unknownGroup s r hfound hmine hr hunknown =>
      rw [hmine, if_pos rfl, hfound, Option.map_some, Option.some.injEq] at heq
      have hknown := AccessSection.retainRules_eq_self_iff.mp heq.symm r hr
      rw [hunknown] at hknown
      cases hknown
    | kept hfound hothers hdiffers =>
      rw [hothers, if_neg Bool.false_ne_true, hfound] at heq
      exact hdiffers heq.symm
    | left habsent hothers hfound =>
      rw [hothers, if_neg Bool.false_ne_true, habsent, hfound] at heq
      cases heq

end

end AccessLedger
