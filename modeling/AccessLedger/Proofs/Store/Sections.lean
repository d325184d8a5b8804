import AccessLedger.Proofs.Access.Encoding
import AccessLedger.Proofs.Access.Merging
import AccessLedger.Proofs.Store.Change
import AccessLedger.Proofs.Store.Operation

/-!
# Projects and their stored sections

In a well-kept database (`Database.WellKept`) the rows of every project are
those of a valid list of sections, which is read back as it was stored, and
the revision of the project is that of the list.  Every statement of every
operation keeps a database well kept (`kept_wellKept`), so the reachable ones
are (`Reachable.wellKept`).  For commits this rests on `safe_applyAccess`,
which follows one from statement to statement.
-/

namespace AccessLedger

namespace Database

/-- The rows of a project are those of these sections. -/
def Holds (db : Database) (name : String) (sections : List AccessSection) : Prop :=
  db.sections.filter (·.project = name) = sectionRows name (sections.map AccessSection.toStored)

instance (db : Database) (name : String) (sections : List AccessSection) :
    Decidable (db.Holds name sections) :=
  inferInstanceAs (Decidable (_ = _))

/-- Every project has valid sections and their revision, and there are no other sections. -/
structure WellKept (db : Database) : Prop where
  projects : ∀ p ∈ db.projects, ∃ name sections, p.name = some name ∧
    p.revision = revisionOf sections ∧ validateSections sections = .ok () ∧ db.Holds name sections
  sections : ∀ r ∈ db.sections, (db.project? r.project).isSome = true

variable {db : Database} {name : String}

/-! ## Rows in order -/

theorem sectionNotAfter_of_lt {i j : Nat} (h : i < j) (a b : SectionRow)
    (ha : a.position = .integer i) (hb : b.position = .integer j) :
    sectionNotAfter a b = true := by
  have hforth : Scalar.isNotAfter (.integer i) (.integer j) = true := by
    simp only [Scalar.isNotAfter, Scalar.ratio?, Bool.or_eq_true, decide_eq_true_eq]
    exact .inl (by omega)
  have hback : Scalar.isNotAfter (.integer j) (.integer i) = false := by
    simp only [Scalar.isNotAfter, Scalar.ratio?, Bool.or_eq_false_iff, Bool.and_eq_false_iff,
      decide_eq_false_iff_not, beq_eq_false_iff_ne]
    exact ⟨by omega, .inl (by omega)⟩
  rw [sectionNotAfter, ha, hb, Scalar.isSame, hback, Bool.and_false, if_neg Bool.false_ne_true,
    hforth]

theorem pairwise_sectionRows (name : String) (sections : List StoredSection) :
    (sectionRows name sections).Pairwise fun a b => sectionNotAfter a b = true := by
  rw [List.pairwise_iff_getElem]
  intro i j hi hj hij
  simp only [sectionRows, List.getElem_mapIdx]
  exact sectionNotAfter_of_lt hij _ _ rfl rfl

@[simp]
theorem map_sectionRows (name : String) (sections : List StoredSection) :
    (sectionRows name sections).map (fun r => (⟨r.name, r.permissions⟩ : StoredSection)) =
      sections := by
  refine List.ext_getElem ?_ fun i _ _ => ?_
  · rw [sectionRows, List.length_map, List.length_mapIdx]
  · simp only [sectionRows, List.getElem_map, List.getElem_mapIdx]

/-- What a project holds is what is read of it. -/
theorem Holds.storedSections_eq {sections : List AccessSection} (h : db.Holds name sections) :
    db.storedSections name = sections.map AccessSection.toStored := by
  rw [storedSections, h, List.mergeSort_of_pairwise (pairwise_sectionRows _ _), map_sectionRows]

theorem map_toStored_injective {a b : List AccessSection}
    (h : a.map AccessSection.toStored = b.map AccessSection.toStored) : a = b :=
  (List.map_inj_right fun _ _ => AccessSection.toStored_injective).mp h

/-- A project holds one list of sections. -/
theorem Holds.unique {a b : List AccessSection} (ha : db.Holds name a) (hb : db.Holds name b) :
    a = b :=
  map_toStored_injective (ha.storedSections_eq.symm.trans hb.storedSections_eq)

theorem project_of_mem_sectionRows {sections : List StoredSection} {r : SectionRow}
    (h : r ∈ sectionRows name sections) : r.project = name := by
  obtain ⟨i, hi, rfl⟩ := List.mem_mapIdx.mp h
  rfl

@[simp]
theorem filter_sectionRows_self (name : String) (sections : List StoredSection) :
    (sectionRows name sections).filter (·.project = name) = sectionRows name sections :=
  List.filter_eq_self.mpr fun _ hr => decide_eq_true (project_of_mem_sectionRows hr)

theorem filter_sectionRows_of_ne {m : String} (h : m ≠ name) (sections : List StoredSection) :
    (sectionRows name sections).filter (·.project = m) = [] := by
  refine List.filter_eq_nil_iff.mpr fun r hr hm => h ?_
  rw [← of_decide_eq_true hm, project_of_mem_sectionRows hr]

/-! ## Projects by name -/

theorem project?_eq_none : db.project? name = none ↔ ∀ p ∈ db.projects, p.name ≠ some name := by
  simp only [project?, List.find?_eq_none, decide_eq_true_eq]

theorem name_of_project? {p : ProjectRow} (h : db.project? name = some p) : p.name = some name := by
  simpa only [decide_eq_true_eq] using List.find?_some h

theorem mem_of_project? {p : ProjectRow} (h : db.project? name = some p) : p ∈ db.projects :=
  List.mem_of_find?_eq_some h

/-- A project that is found has valid sections and their revision. -/
theorem WellKept.found (h : db.WellKept) {p : ProjectRow} (hp : db.project? name = some p) :
    ∃ sections, p.revision = revisionOf sections ∧ validateSections sections = .ok () ∧
      db.Holds name sections := by
  obtain ⟨n, sections, hname, hrevision, hvalid, hholds⟩ := h.projects p (mem_of_project? hp)
  rw [name_of_project? hp] at hname
  cases hname
  exact ⟨sections, hrevision, hvalid, hholds⟩

/-! ## Changes of projects -/

theorem wellKept_empty : empty.WellKept := ⟨fun _ h => (nomatch h), fun _ h => (nomatch h)⟩

/-- Other tables do not matter. -/
theorem WellKept.of_eq {db' : Database} (h : db.WellKept) (hprojects : db'.projects = db.projects)
    (hsections : db'.sections = db.sections) : db'.WellKept := by
  constructor
  · simp only [hprojects, Holds, hsections]
    exact h.projects
  · simp only [hsections, project?, hprojects]
    exact h.sections

theorem holds_withProject_self (hfresh : db.project? name = none) (h : db.WellKept)
    (parent : Option String) (revision : String) (sections : List AccessSection) :
    (db.withProject name parent revision (sections.map AccessSection.toStored)).Holds name
      sections := by
  have hold : db.sections.filter (·.project = name) = [] := by
    refine List.filter_eq_nil_iff.mpr fun r hr hname => ?_
    have hfound := h.sections r hr
    rw [of_decide_eq_true hname, hfresh] at hfound
    cases hfound
  simp only [Holds, withProject, List.filter_append, hold, List.nil_append,
    filter_sectionRows_self]

theorem holds_withProject_of_ne {m : String} (hm : m ≠ name) (parent : Option String)
    (revision : String) (stored : List StoredSection) {sections : List AccessSection} :
    (db.withProject name parent revision stored).Holds m sections ↔ db.Holds m sections := by
  simp only [Holds, withProject, List.filter_append, filter_sectionRows_of_ne hm, List.append_nil]

/-- A new project with valid sections and their revision. -/
theorem WellKept.withProject (h : db.WellKept) (hfresh : db.project? name = none)
    (parent : Option String) {sections : List AccessSection}
    (hvalid : validateSections sections = .ok ()) :
    (db.withProject name parent (revisionOf sections)
      (sections.map AccessSection.toStored)).WellKept := by
  constructor
  · intro p hp
    rcases List.mem_append.mp hp with hold | hnew
    · obtain ⟨n, held, hname, hrevision, hvalid, hholds⟩ := h.projects p hold
      have hne : n ≠ name := by
        rintro rfl
        exact project?_eq_none.mp hfresh p hold hname
      exact ⟨n, held, hname, hrevision, hvalid, (holds_withProject_of_ne hne _ _ _).mpr hholds⟩
    · cases List.mem_singleton.mp hnew
      exact ⟨name, sections, rfl, rfl, hvalid, holds_withProject_self hfresh h _ _ _⟩
  · intro r hr
    simp only [Database.withProject, project?, List.find?_append, Option.isSome_or]
    rcases List.mem_append.mp hr with hold | hnew
    · have hfound := h.sections r hold
      rw [project?] at hfound
      rw [hfound, Bool.true_or]
    · simp only [project_of_mem_sectionRows hnew, List.find?_cons, decide_true, Option.isSome_some,
        Bool.or_true]

theorem holds_swap_self (s : SectionSwap) {sections : List AccessSection}
    (h : s.sections = sections.map AccessSection.toStored) :
    (db.swap s).Holds s.project sections := by
  have hold : (db.sections.filter (·.project ≠ s.project)).filter (·.project = s.project) = [] :=
    List.filter_eq_nil_iff.mpr fun r hr hname =>
      of_decide_eq_true (List.mem_filter.mp hr).2 (of_decide_eq_true hname)
  simp only [Holds, swap, List.filter_append, hold, h, List.nil_append, filter_sectionRows_self]

theorem filter_sections_swap_of_ne (s : SectionSwap) {m : String} (hm : m ≠ s.project) :
    (db.swap s).sections.filter (·.project = m) = db.sections.filter (·.project = m) := by
  simp only [swap, List.filter_append, filter_sectionRows_of_ne hm, List.append_nil,
    List.filter_filter]
  refine List.filter_congr fun r _ => ?_
  by_cases h : r.project = m
  · simp only [h, hm, ne_eq, not_false_eq_true, decide_true, Bool.and_self]
  · simp only [h, decide_false, Bool.false_and]

@[simp]
theorem project?_swap (s : SectionSwap) (m : String) :
    (db.swap s).project? m = (db.project? m).map fun p =>
      if p.name = some s.project then { p with revision := s.new } else p := by
  simp only [project?, swap, List.find?_map]
  congr 2
  funext p
  simp only [Function.comp]
  split <;> rfl

/-- A project gets new, valid sections and their revision. -/
theorem WellKept.swap (h : db.WellKept) (s : SectionSwap) {sections : List AccessSection}
    (hsections : s.sections = sections.map AccessSection.toStored)
    (hrevision : s.new = revisionOf sections) (hvalid : validateSections sections = .ok ())
    (hfound : (db.project? s.project).isSome = true) : (db.swap s).WellKept := by
  constructor
  · intro p hp
    obtain ⟨q, hq, rfl⟩ := List.mem_map.mp hp
    by_cases hname : q.name = some s.project
    · refine ⟨s.project, sections, ?_, ?_, hvalid, holds_swap_self s hsections⟩
      · rw [if_pos hname]
        exact hname
      · rw [if_pos hname]
        exact hrevision
    · obtain ⟨n, held, hn, hrevision, hvalid, hholds⟩ := h.projects q hq
      have hne : n ≠ s.project := fun e => hname (e ▸ hn)
      rw [if_neg hname]
      exact ⟨n, held, hn, hrevision, hvalid, (filter_sections_swap_of_ne s hne).trans hholds⟩
  · intro r hr
    rw [project?_swap, Option.isSome_map]
    rcases List.mem_append.mp hr with hold | hnew
    · exact h.sections r (List.mem_filter.mp hold).1
    · rw [project_of_mem_sectionRows hnew]
      exact hfound

end Database

/-! ## Operations -/

/-- Whether a statement can change projects or sections. -/
def Statement.writesSections {β : Type} : Statement β → Bool
  | .insertProject _ _ _ _ | .swapSections _ => true
  | _ => false

/-- Whether an operation can change projects or sections. -/
def Operation.writesSections {α : Type} : Operation α → Bool
  | .createProject _ _ _ | .applyAccess _ _ _ => true
  | _ => false

theorem Statement.writesSections_of_isRead {β : Type} {q : Statement β} (h : q.isRead = true) :
    q.writesSections = false := by
  cases q <;> first | rfl | cases h

/-- Other statements leave projects, sections and their history alone. -/
theorem Change.of_not_writesSections {db db' : Database} {β : Type} {q : Statement β}
    (h : Change db q db') (hq : q.writesSections = false) :
    db'.projects = db.projects ∧ db'.sections = db.sections ∧ db'.history = db.history := by
  cases h with
  | project | swap => cases hq
  | _ => exact ⟨rfl, rfl, rfl⟩

/-- Other operations do not ask for a change of projects or sections. -/
theorem Operation.asks_of_not_writesSections {α : Type} {operation : Operation α}
    (h : operation.writesSections = false) (now : Instant) :
    (operation.program now).Asks fun q => q.writesSections = false := by
  refine (operation.asks_program now).mono fun q hq => ?_
  rcases hq with hread | hwrites
  · exact Statement.writesSections_of_isRead hread
  · cases operation <;> cases q <;>
      first | rfl | exact Bool.noConfusion h | exact Bool.noConfusion hwrites

end AccessLedger
