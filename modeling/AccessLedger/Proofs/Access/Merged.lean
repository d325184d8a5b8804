import AccessLedger.Proofs.Access.Unapplied

/-!
# What a merge gives

A requested section that may be changed is merged without the rules that are
not kept, and with all else that it has (`AccessSection.Narrows`).  With what
is found under each name (`rel_find?_mergeSections`) and the order in which the
names come (`map_name_mergeSections`) the merged sections are known in full.
A request for what is stored already changes just the sections that may be
changed and have a rule that is not kept (`mergeSections_self_eq_iff`).
-/

namespace AccessLedger

section

variable {keep keep' : PermissionRule → Bool}

/-- The second permission is the first one with only the rules that satisfy `keep`. -/
structure Permission.Narrows (keep : PermissionRule → Bool) (p q : Permission) : Prop where
  name : q.name = p.name
  exclusive : q.exclusive = p.exclusive
  rules : q.rules = p.rules.filter keep

/-- The second section is the first one with only the rules that satisfy `keep`. -/
structure AccessSection.Narrows (keep : PermissionRule → Bool) (s t : AccessSection) : Prop where
  name : t.name = s.name
  permissions : List.Forall₂ (Permission.Narrows keep) s.permissions t.permissions

theorem Permission.narrows_iff {p q : Permission} : p.Narrows keep q ↔ p.retainRules keep = q := by
  constructor
  · rintro ⟨hname, hexclusive, hrules⟩
    rw [retainRules, ← hname, ← hexclusive, ← hrules]
  · rintro rfl
    exact ⟨rfl, rfl, rfl⟩

/-- A section can be narrowed in one way. -/
theorem AccessSection.narrows_iff {s t : AccessSection} :
    s.Narrows keep t ↔ s.retainRules keep = t := by
  have hpermissions : List.Forall₂ (Permission.Narrows keep) s.permissions t.permissions ↔
      s.permissions.map (Permission.retainRules keep) = t.permissions := by
    have hrel : Permission.Narrows keep = fun p q => p.retainRules keep = q := by
      funext p q
      exact propext Permission.narrows_iff
    rw [hrel, ← List.forall₂_eq_eq_eq, List.forall₂_map_left_iff]
  constructor
  · rintro ⟨hname, hnarrows⟩
    rw [retainRules, ← hname, hpermissions.mp hnarrows]
  · rintro rfl
    exact ⟨rfl, hpermissions.mpr rfl⟩

/-- Only the rules of a section matter. -/
theorem AccessSection.retainRules_congr {s : AccessSection}
    (h : ∀ r ∈ s.rules, keep r = keep' r) : s.retainRules keep = s.retainRules keep' := by
  have hpermission (p : Permission) (hp : p ∈ s.permissions) :
      p.retainRules keep = p.retainRules keep' := by
    have hrules : p.rules.filter keep = p.rules.filter keep' :=
      List.filter_congr fun r hr => h r (List.mem_flatMap.mpr ⟨p, hp, hr⟩)
    simp only [Permission.retainRules, hrules]
  rw [retainRules, List.map_congr_left hpermission]
  rfl

end

/-! ## The merged sections -/

/--
The names of the merged sections: of the requested ones those that may be
changed or are stored, then of the stored ones those that stay.
-/
def mergedNames (canChange : String → Bool) (stored requested : List String) : List String :=
  requested.filter (fun n => canChange n || decide (n ∈ stored)) ++
    stored.filter fun n => decide (n ∉ requested) && !canChange n

section

variable {canChange : String → Bool} {isKnown isKnown' : GroupUuid → Bool}
variable {stored requested : List AccessSection} {n : String}

/-- Only the groups of the requested rules matter. -/
theorem mergeSections_congr
    (h : ∀ s ∈ requested, ∀ r ∈ s.rules, isKnown r.group.uuid = isKnown' r.group.uuid) :
    mergeSections canChange isKnown stored requested =
      mergeSections canChange isKnown' stored requested := by
  have hmine (s : AccessSection) (hs : s ∈ requested) :
      mergeRequested canChange isKnown stored s = mergeRequested canChange isKnown' stored s := by
    rw [mergeRequested, AccessSection.retainRules_congr (h s hs)]
    rfl
  rw [mergeSections, List.filterMap_congr hmine]
  rfl

/-- A section that may be changed is merged if and as it is requested, but for its rules. -/
theorem rel_find?_mergeSections (hn : canChange n = true)
    (hstored : validateSections stored = .ok ())
    (hrequested : validateSections requested = .ok ()) :
    Option.Rel (AccessSection.Narrows fun r => isKnown r.group.uuid)
      (requested.find? (·.name = n))
      ((mergeSections canChange isKnown stored requested).find? (·.name = n)) := by
  rw [find?_mergeSections hstored hrequested, if_pos hn]
  cases requested.find? (·.name = n) with
  | none => exact .none
  | some s => exact .some (AccessSection.narrows_iff.mpr rfl)

/-- A requested section is merged if it may be changed or is stored. -/
@[simp]
theorem isSome_mergeRequested (s : AccessSection) :
    (mergeRequested canChange isKnown stored s).isSome =
      (canChange s.name || decide (s.name ∈ stored.map AccessSection.name)) := by
  unfold mergeRequested
  cases hmine : canChange s.name with
  | true => rfl
  | false =>
    rw [if_neg Bool.false_ne_true, Bool.false_or, Bool.eq_iff_iff, List.find?_isSome,
      decide_eq_true_eq, List.mem_map]
    simp only [decide_eq_true_eq]

/-- Requested sections are merged in the order in which they are requested. -/
theorem map_name_filterMap_mergeRequested :
    (requested.filterMap (mergeRequested canChange isKnown stored)).map AccessSection.name =
      (requested.map AccessSection.name).filter fun n =>
        canChange n || decide (n ∈ stored.map AccessSection.name) := by
  induction requested with
  | nil => rfl
  | cons s r ih =>
    -- the name passes the filter if something becomes of the section
    have hkept := @isSome_mergeRequested canChange isKnown stored s
    rw [List.filterMap_cons, List.map_cons, List.filter_cons, ← ih, ← hkept]
    cases hmerge : mergeRequested canChange isKnown stored s with
    | none => rfl
    | some t =>
      rw [List.map_cons, name_mergeRequested hmerge]
      rfl

theorem survives_eq (s : AccessSection) :
    survives canChange requested s =
      (decide (s.name ∉ requested.map AccessSection.name) && !canChange s.name) := by
  have hany : requested.any (·.name = s.name) =
      decide (s.name ∈ requested.map AccessSection.name) := by
    rw [Bool.eq_iff_iff, List.any_eq_true, decide_eq_true_eq, List.mem_map]
    simp only [decide_eq_true_eq]
  rw [survives, hany, ← decide_not]

@[simp]
theorem map_name_mergeSections :
    (mergeSections canChange isKnown stored requested).map AccessSection.name =
      mergedNames canChange (stored.map AccessSection.name)
        (requested.map AccessSection.name) := by
  have hothers : (stored.map AccessSection.name).filter (fun n =>
      decide (n ∉ requested.map AccessSection.name) && !canChange n) =
      (stored.filter (survives canChange requested)).map AccessSection.name := by
    rw [List.filter_map]
    exact congrArg _ (List.filter_congr fun s _ => (survives_eq s).symm)
  rw [mergeSections, List.map_append, map_name_filterMap_mergeRequested, mergedNames, hothers]

end

/-! ## The stored sections, requested as they are -/

section

variable (canChange : String → Bool) (isKnown : GroupUuid → Bool)

/-- A section may be changed and has a rule for an unknown group, which no merge keeps. -/
def AccessSection.LosesRule (s : AccessSection) : Prop :=
  canChange s.name = true ∧ ∃ r ∈ s.rules, isKnown r.group.uuid = false

/-- The second section is what a merge makes of the first one if nothing is to be changed. -/
structure AccessSection.Resubmits (s t : AccessSection) : Prop where
  mine : canChange s.name = true → s.Narrows (fun r => isKnown r.group.uuid) t
  others : canChange s.name = false → t = s

/-- A merge of a section with itself. -/
def mergeUnchanged (s : AccessSection) : AccessSection :=
  if canChange s.name then s.retainRules fun r => isKnown r.group.uuid else s

end

section

variable {canChange : String → Bool} {isKnown : GroupUuid → Bool}
variable {stored : List AccessSection} {n : String}

theorem resubmits_mergeUnchanged (s : AccessSection) :
    s.Resubmits canChange isKnown (mergeUnchanged canChange isKnown s) where
  mine hmine := AccessSection.narrows_iff.mpr (if_pos hmine).symm
  others hothers := if_neg (Bool.eq_false_iff.mp hothers)

/-- Only a section that loses a rule is another one afterwards. -/
theorem mergeUnchanged_eq_self_iff {s : AccessSection} :
    mergeUnchanged canChange isKnown s = s ↔ ¬s.LosesRule canChange isKnown := by
  unfold mergeUnchanged AccessSection.LosesRule
  cases hmine : canChange s.name with
  | false => simp
  | true =>
    rw [if_pos rfl, AccessSection.retainRules_eq_self_iff]
    simp

/-- Stored sections that are requested as they are are merged one by one. -/
theorem mergeSections_self (h : NamedOnce stored) :
    mergeSections canChange isKnown stored stored =
      stored.map (mergeUnchanged canChange isKnown) := by
  have hmerge (s : AccessSection) (hs : s ∈ stored) :
      mergeRequested canChange isKnown stored s =
        (some ∘ mergeUnchanged canChange isKnown) s := by
    rw [mergeRequested, h.find?_eq_some.mpr ⟨hs, rfl⟩, Function.comp_apply, mergeUnchanged]
    split <;> rfl
  have hnone : stored.filter (survives canChange stored) = [] := by
    refine List.filter_eq_nil_iff.mpr fun s hs hsurvives => ?_
    exact not_requested_of_survives hsurvives (List.mem_map_of_mem hs)
  rw [mergeSections, List.filterMap_congr hmerge, hnone, List.append_nil, List.filterMap_eq_map]

theorem forall₂_mergeSections_self (h : NamedOnce stored) :
    List.Forall₂ (AccessSection.Resubmits canChange isKnown) stored
      (mergeSections canChange isKnown stored stored) := by
  rw [mergeSections_self h, List.forall₂_map_right_iff, List.forall₂_same]
  exact fun s _ => resubmits_mergeUnchanged s

/-- Nothing comes of the stored sections if none of them loses a rule. -/
theorem mergeSections_self_eq_iff (h : NamedOnce stored) :
    mergeSections canChange isKnown stored stored = stored ↔
      ∀ s ∈ stored, ¬s.LosesRule canChange isKnown := by
  have hid : stored.map (mergeUnchanged canChange isKnown) = stored ↔
      ∀ s ∈ stored, mergeUnchanged canChange isKnown s = s := by
    simpa using @List.map_inj_left _ _ stored (mergeUnchanged canChange isKnown) id
  rw [mergeSections_self h, hid]
  exact forall₂_congr fun s _ => mergeUnchanged_eq_self_iff

/-- Of the stored sections only those that lose a rule are unapplied. -/
theorem unapplied_self_iff (h : NamedOnce stored) :
    Unapplied canChange isKnown stored stored n ↔
      ∃ s ∈ stored, s.name = n ∧ s.LosesRule canChange isKnown := by
  constructor
  · intro hunapplied
    cases hunapplied with
    | @unknownGroup s r found mine rule unknown =>
      obtain ⟨hs, rfl⟩ := h.find?_eq_some.mp found
      exact ⟨s, hs, rfl, mine, r, rule, unknown⟩
    | kept found others differs => exact absurd found differs
    | left absent others found => cases absent.symm.trans found
  · rintro ⟨s, hs, rfl, mine, r, rule, unknown⟩
    exact .unknownGroup (h.find?_eq_some.mpr ⟨hs, rfl⟩) mine rule unknown

end

end AccessLedger
