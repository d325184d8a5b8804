import AccessLedger.Proofs.Access.Unapplied
import Mathlib.Data.List.Perm.Basic

/-!
# Valid section lists

A list of sections is accepted exactly if it is well formed: each name is
proper for itself (`IsProperName`), and no two sections have one name.  Else
the list is refused for the first section that cannot follow the ones before
it, and of the rules that this section breaks the first one counts
(`Breaks`).  Both together are all that validation does
(`validation_is_exact`).
-/

namespace AccessLedger

/-- A name that a section may have: that of the global capabilities, or one of refs. -/
structure IsProperName (name : String) : Prop where
  known : name = globalCapabilities ∨ "refs/".toList <+: name.toList
  start : ∀ c, name.toList.head? = some c → Text.isBlank c = false
  stop : ∀ c, name.toList.getLast? = some c → Text.isBlank c = false

/-- Each name is proper, and no two sections have one name. -/
structure WellFormedSections (sections : List AccessSection) : Prop where
  proper : ∀ s ∈ sections, IsProperName s.name
  once : NamedOnce sections

/-- The rule that a name breaks after the sections `before`; of several the first counts. -/
inductive Breaks (before : List AccessSection) (name : String) : SectionFault → Prop
  | empty (blank : ∀ c ∈ name.toList, Text.isBlank c = true) : Breaks before name .emptyName
  | blanks (visible : ∃ c ∈ name.toList, Text.isBlank c = false)
      (padded : ∃ c, (name.toList.head? = some c ∨ name.toList.getLast? = some c) ∧
        Text.isBlank c = true) : Breaks before name (.surroundingBlanks name)
  | start (visible : ∃ c ∈ name.toList, Text.isBlank c = false)
      (bare : ∀ c, name.toList.head? = some c ∨ name.toList.getLast? = some c →
        Text.isBlank c = false)
      (unknown : name ≠ globalCapabilities ∧ ¬"refs/".toList <+: name.toList) :
      Breaks before name (.wrongStart name)
  | again (proper : IsProperName name) (taken : ∃ s ∈ before, s.name = name) :
      Breaks before name (.duplicate name)

section

variable {name : String} {fault : SectionFault} {before sections : List AccessSection}
  {seen : List String}

theorem isSectionName_iff :
    isSectionName name = true ↔ name = globalCapabilities ∨ "refs/".toList <+: name.toList := by
  rw [isSectionName, Bool.or_eq_true, decide_eq_true_eq, List.isPrefixOf_iff_prefix]

theorem allBlank_eq_false :
    Text.allBlank name.toList = false ↔ ∃ c ∈ name.toList, Text.isBlank c = false := by
  simp [Text.allBlank]

/-- A text is padded if trimming changes it. -/
theorem trim_ne_iff : Text.trim name.toList ≠ name.toList ↔
    ∃ c, (name.toList.head? = some c ∨ name.toList.getLast? = some c) ∧
      Text.isBlank c = true := by
  rw [Ne, Text.trim_eq_self_iff]
  constructor
  · intro h
    by_contra hnone
    refine h ⟨fun c hc => ?_, fun c hc => ?_⟩
    · exact Bool.eq_false_iff.mpr fun hblank => hnone ⟨c, .inl hc, hblank⟩
    · exact Bool.eq_false_iff.mpr fun hblank => hnone ⟨c, .inr hc, hblank⟩
  · rintro ⟨c, hc | hc, hblank⟩ ⟨hstart, hstop⟩
    · rw [hstart c hc] at hblank
      cases hblank
    · rw [hstop c hc] at hblank
      cases hblank

/-- A proper name is not blank. -/
theorem IsProperName.visible (h : IsProperName name) :
    ∃ c ∈ name.toList, Text.isBlank c = false := by
  have hne : name.toList ≠ [] := by
    rcases h.known with rfl | hrefs
    · decide
    · intro hempty
      rw [hempty] at hrefs
      exact absurd (List.prefix_nil.mp hrefs) (by decide)
  obtain ⟨c, r, hname⟩ := List.exists_cons_of_ne_nil hne
  refine ⟨c, ?_, h.start c ?_⟩
  · rw [hname]
    exact List.mem_cons_self
  · rw [hname]
    rfl

/-- A name has no fault of its own if it is proper. -/
theorem sectionFault?_nil_eq_none : sectionFault? [] name = none ↔ IsProperName name := by
  constructor
  · intro h
    unfold sectionFault? at h
    split at h
    · cases h
    split at h
    · cases h
    next htrim =>
    split at h
    · cases h
    next hknown =>
    obtain ⟨hstart, hstop⟩ := (Text.trim_eq_self_iff _).mp (not_not.mp htrim)
    exact ⟨isSectionName_iff.mp (by simpa using hknown), hstart, hstop⟩
  · intro h
    have htrim := (Text.trim_eq_self_iff name.toList).mpr ⟨h.start, h.stop⟩
    simp [sectionFault?, allBlank_eq_false.mpr h.visible, htrim, isSectionName_iff.mpr h.known]

/-- What is wrong with a name is the first rule that it breaks. -/
theorem sectionFault?_eq_some_iff (hseen : ∀ n, n ∈ seen ↔ ∃ s ∈ before, s.name = n) :
    sectionFault? seen name = some fault ↔ Breaks before name fault := by
  constructor
  · intro h
    unfold sectionFault? at h
    split at h
    · next hblank =>
      cases h
      exact .empty (List.all_eq_true.mp hblank)
    next hblank =>
    have hvisible := allBlank_eq_false.mp (Bool.eq_false_iff.mpr hblank)
    split at h
    · next htrim =>
      cases h
      exact .blanks hvisible (trim_ne_iff.mp htrim)
    next htrim =>
    obtain ⟨hstart, hstop⟩ := (Text.trim_eq_self_iff _).mp (not_not.mp htrim)
    split at h
    · next hunknown =>
      cases h
      refine .start hvisible (fun c hc => hc.elim (hstart c) (hstop c)) ?_
      exact not_or.mp fun hknown => by simp [isSectionName_iff.mpr hknown] at hunknown
    next hknown =>
    split at h
    · next htaken =>
      cases h
      exact .again ⟨isSectionName_iff.mp (by simpa using hknown), hstart, hstop⟩
        ((hseen name).mp htaken)
    · cases h
  · intro h
    unfold sectionFault?
    cases h with
    | empty blank =>
      rw [if_pos (show Text.allBlank name.toList = true from List.all_eq_true.mpr blank)]
    | blanks visible padded =>
      rw [if_neg (Bool.eq_false_iff.mp (allBlank_eq_false.mpr visible)),
        if_pos (trim_ne_iff.mpr padded)]
    | start visible bare unknown =>
      have htrim : Text.trim name.toList = name.toList :=
        (Text.trim_eq_self_iff _).mpr ⟨fun c hc => bare c (.inl hc), fun c hc => bare c (.inr hc)⟩
      have hunknown : isSectionName name = false :=
        Bool.eq_false_iff.mpr (mt isSectionName_iff.mp (not_or.mpr unknown))
      rw [if_neg (Bool.eq_false_iff.mp (allBlank_eq_false.mpr visible)),
        if_neg (not_not_intro htrim), if_pos (by rw [hunknown]; rfl)]
    | again proper taken =>
      have htrim : Text.trim name.toList = name.toList :=
        (Text.trim_eq_self_iff _).mpr ⟨proper.start, proper.stop⟩
      have hknown := isSectionName_iff.mpr proper.known
      rw [if_neg (Bool.eq_false_iff.mp (allBlank_eq_false.mpr proper.visible)),
        if_neg (not_not_intro htrim), if_neg (by rw [hknown]; decide),
        if_pos ((hseen name).mpr taken)]

/-! ## The first section at fault -/

/-- A fault is that of a section which comes after sections without one. -/
theorem firstFault?_eq_some_iff : firstFault? seen sections = some fault ↔
    ∃ before s after, sections = before ++ s :: after ∧ firstFault? seen before = none ∧
      sectionFault? (before.reverse.map AccessSection.name ++ seen) s.name = some fault := by
  induction sections generalizing seen with
  | nil => simp [firstFault?]
  | cons t r ih =>
    cases ht : sectionFault? seen t.name with
    | some first =>
      rw [firstFault?, ht]
      constructor
      · rintro ⟨⟩
        exact ⟨[], t, r, rfl, rfl, ht⟩
      · rintro ⟨before, s, after, hsplit, hbefore, hs⟩
        cases before with
        | nil =>
          obtain ⟨rfl, -⟩ := List.cons.inj hsplit
          exact ht.symm.trans hs
        | cons u before =>
          obtain ⟨rfl, -⟩ := List.cons.inj hsplit
          rw [firstFault?, ht] at hbefore
          cases hbefore
    | none =>
      rw [firstFault?, ht]
      refine ih.trans ⟨?_, ?_⟩
      · rintro ⟨before, s, after, rfl, hbefore, hs⟩
        refine ⟨t :: before, s, after, rfl, ?_, ?_⟩
        · rw [firstFault?, ht]
          exact hbefore
        · simpa using hs
      · rintro ⟨before, s, after, hsplit, hbefore, hs⟩
        cases before with
        | nil =>
          obtain ⟨rfl, -⟩ := List.cons.inj hsplit
          exact absurd (ht.symm.trans hs) (by simp)
        | cons u before =>
          obtain ⟨rfl, rfl⟩ := List.cons.inj hsplit
          rw [firstFault?, ht] at hbefore
          exact ⟨before, s, after, rfl, hbefore, by simpa using hs⟩

theorem validateSections_eq_error :
    validateSections sections = .error fault ↔ firstFault? [] sections = some fault := by
  unfold validateSections
  cases firstFault? [] sections <;> simp

theorem validateSections_eq_ok_iff_firstFault? :
    validateSections sections = .ok () ↔ firstFault? [] sections = none := by
  unfold validateSections
  cases firstFault? [] sections <;> simp

theorem validateSections_eq_ok_iff :
    validateSections sections = .ok () ↔ WellFormedSections sections := by
  rw [validateSections_eq_ok]
  constructor
  · rintro ⟨hproper, honce⟩
    exact ⟨fun s hs => sectionFault?_nil_eq_none.mp (hproper s hs), honce⟩
  · rintro ⟨hproper, honce⟩
    exact ⟨fun s hs => sectionFault?_nil_eq_none.mpr (hproper s hs), honce⟩

/-- A list is refused for a section that breaks a rule after well-formed ones. -/
theorem validateSections_eq_error_iff : validateSections sections = .error fault ↔
    ∃ before s after, sections = before ++ s :: after ∧ WellFormedSections before ∧
      Breaks before s.name fault := by
  have hseen (before : List AccessSection) (n : String) :
      n ∈ before.reverse.map AccessSection.name ++ [] ↔ ∃ s ∈ before, s.name = n := by
    simp
  rw [validateSections_eq_error, firstFault?_eq_some_iff]
  simp only [sectionFault?_eq_some_iff (hseen _), ← validateSections_eq_ok_iff_firstFault?,
    validateSections_eq_ok_iff]

end

/-! ## Order and parts -/

section

variable {a b : List AccessSection}

theorem WellFormedSections.perm (h : a.Perm b) (ha : WellFormedSections a) :
    WellFormedSections b where
  proper s hs := ha.proper s (h.mem_iff.mpr hs)
  once := (h.map AccessSection.name).nodup_iff.mp ha.once

theorem WellFormedSections.sublist (h : a.Sublist b) (hb : WellFormedSections b) :
    WellFormedSections a where
  proper s hs := hb.proper s (h.subset hs)
  once := List.Nodup.sublist (h.map AccessSection.name) hb.once

end

/--
Validation accepts exactly the well-formed lists.  So it accepts a list in any
order, and with it each part of it.  A list is refused for the first section
with which it stops being well formed, and for the first rule which that
section breaks.
-/
theorem validation_is_exact :
    (∀ sections, validateSections sections = .ok () ↔ WellFormedSections sections) ∧
    (∀ a b : List AccessSection, a.Perm b →
      (validateSections a = .ok () ↔ validateSections b = .ok ())) ∧
    (∀ a b : List AccessSection, a.Sublist b →
      validateSections b = .ok () → validateSections a = .ok ()) ∧
    (∀ sections fault, validateSections sections = .error fault ↔
      ∃ before s after, sections = before ++ s :: after ∧ WellFormedSections before ∧
        ¬WellFormedSections (before ++ [s]) ∧ Breaks before s.name fault) := by
  refine ⟨fun sections => validateSections_eq_ok_iff, ?_, ?_, ?_⟩
  · intro a b h
    rw [validateSections_eq_ok_iff, validateSections_eq_ok_iff]
    exact ⟨.perm h, .perm h.symm⟩
  · intro a b h
    rw [validateSections_eq_ok_iff, validateSections_eq_ok_iff]
    exact .sublist h
  · intro sections fault
    rw [validateSections_eq_error_iff]
    constructor
    · rintro ⟨before, s, after, rfl, hbefore, hs⟩
      refine ⟨before, s, after, rfl, hbefore, ?_, hs⟩
      rw [← validateSections_eq_ok_iff,
        validateSections_eq_error_iff.mpr ⟨before, s, [], rfl, hbefore, hs⟩]
      simp
    · rintro ⟨before, s, after, hsplit, hbefore, -, hs⟩
      exact ⟨before, s, after, hsplit, hbefore, hs⟩

/-- The global capabilities and two sections of refs. -/
def plainSections : List AccessSection :=
  [⟨"refs/*", []⟩, ⟨globalCapabilities, []⟩, ⟨"refs/tags/v 1", []⟩]

/-- A list with four bad names: one taken, one padded, one unknown and one empty. -/
def badSections : List AccessSection :=
  [⟨"refs/*", []⟩, ⟨"refs/*", []⟩, ⟨"refs/x\u2003", []⟩, ⟨"heads", []⟩, ⟨"", []⟩]

/-- A good list stays good reversed and shortened; a bad one has the fault that comes first. -/
theorem first_bad_name_is_reported :
    WellFormedSections plainSections ∧
    validateSections plainSections.reverse = .ok () ∧
    validateSections plainSections.tail = .ok () ∧
    ¬WellFormedSections badSections ∧
    (∃ before s after, badSections = before ++ s :: after ∧ WellFormedSections before ∧
      ¬WellFormedSections (before ++ [s]) ∧ Breaks before s.name (.duplicate "refs/*")) ∧
    ∃ before s after, badSections.reverse = before ++ s :: after ∧ WellFormedSections before ∧
      ¬WellFormedSections (before ++ [s]) ∧ Breaks before s.name .emptyName := by
  obtain ⟨hexact, hperm, hsublist, hfault⟩ := validation_is_exact
  have hplain : validateSections plainSections = .ok () := by decide +kernel
  have hbad : validateSections badSections = .error (.duplicate "refs/*") := by decide +kernel
  refine ⟨(hexact _).mp hplain, ?_, ?_, ?_, (hfault _ _).mp hbad, ?_⟩
  · exact (hperm _ _ plainSections.reverse_perm.symm).mp hplain
  · exact hsublist _ _ (List.tail_sublist _) hplain
  · intro h
    rw [(hexact _).mpr h] at hbad
    cases hbad
  · exact (hfault _ _).mp (by decide +kernel)

end AccessLedger
