import AccessLedger.Proofs.Store.Sections
import AccessLedger.Proofs.Store.Interleaving

/-!
# Projects and their history

A visit swaps new sections in, creates a project, or leaves projects alone
(`Visit.effect`).  So the history of a project grows by the swaps of a trace
(`revisions_of_chained`), and a project keeps the revision with which it was
created until the first of them (`project_of_chained`); after that it has the
last revision of its history (`Reachable.historyTells`).
-/

namespace AccessLedger

namespace Visit

/-- The swap that a visit has made, if it has made one. -/
def swapped? (v : Visit) : Option SectionSwap :=
  match v with
  | ⟨.swapSections s, before⟩ => match before.swapSections s with
    | (.ok true, _) => some s
    | _ => none
  | _ => none

/-- The name and the revision of the project that a visit has created, if it has. -/
def created? (v : Visit) : Option (String × String) :=
  match v with
  | ⟨.insertProject name parent revision sections, before⟩ =>
    match before.insertProject name parent revision sections with
    | (.ok (), _) => some (name, revision)
    | _ => none
  | _ => none

end Visit

/-- The revisions in the history of a project, the oldest first. -/
def Database.revisions (db : Database) (name : String) : List String :=
  (db.history.filter (·.project = name)).map HistoryRow.revision

/-- The revisions that visits have given to a project, the oldest first. -/
def swapsOf (name : String) (visits : List Visit) : List String :=
  ((visits.filterMap Visit.swapped?).filter (·.project = name)).map SectionSwap.new

/-! ## What a visit does to projects -/

/-- What a visit does to projects, their sections and their history. -/
inductive Visit.Effect (v : Visit) : Prop
  | none (swapped : v.swapped? = none) (created : v.created? = none)
      (projects : v.after.projects = v.before.projects)
      (history : v.after.history = v.before.history)
  | swapped (s : SectionSwap) (p : ProjectRow) (swapped : v.swapped? = some s)
      (created : v.created? = none) (found : v.before.project? s.project = some p)
      (current : p.revision = s.old) (after : v.after = v.before.swap s)
  | created (name : String) (parent : Option String) (revision : String)
      (sections : List StoredSection) (swapped : v.swapped? = none)
      (created : v.created? = some (name, revision)) (fresh : v.before.project? name = none)
      (after : v.after = v.before.withProject name parent revision sections)

theorem Visit.effect (v : Visit) : v.Effect := by
  obtain ⟨q, db⟩ := v
  have hother (hq : q.writesSections = false) (hswapped : swapped? ⟨q, db⟩ = none)
      (hcreated : created? ⟨q, db⟩ = none) : Effect ⟨q, db⟩ := by
    obtain ⟨hprojects, -, hhistory⟩ := (db.change_perform q).of_not_writesSections hq
    exact .none hswapped hcreated hprojects hhistory
  cases q with
  | swapSections s =>
    rcases db.swapSections_cases s with h | ⟨p, found, current, h⟩
    · refine .none ?_ rfl ?_ ?_
      · simp only [swapped?, h]
      · simp only [after, Database.perform, h]
      · simp only [after, Database.perform, h]
    · refine .swapped s p ?_ rfl found current ?_
      · simp only [swapped?, h]
      · simp only [after, Database.perform, h]
  | insertProject name parent revision sections =>
    rcases db.insertProject_cases name parent revision sections with h | ⟨fresh, h⟩
    · refine .none rfl ?_ ?_ ?_
      · simp only [created?, h, Database.refuse]
      · simp only [after, Database.perform, h, Database.refuse]
      · simp only [after, Database.perform, h, Database.refuse]
    · refine .created name parent revision sections rfl ?_ fresh ?_
      · simp only [created?, h]
      · simp only [after, Database.perform, h]
  | _ => exact hother rfl rfl rfl

/-- A visit that leaves the database as it is has swapped nothing in. -/
theorem Visit.swapped?_eq_none {v : Visit} (h : v.after = v.before) : v.swapped? = none := by
  cases v.effect with
  | none swapped => exact swapped
  | swapped s p _ _ _ _ after =>
    have hlength := congrArg (fun db => db.history.length) (h.symm.trans after)
    simp only [Database.swap, List.length_append, List.length_cons, List.length_nil] at hlength
    omega
  | created _ _ _ _ swapped => exact swapped

namespace Database

variable {db : Database} {name : String}

@[simp]
theorem revisions_swap (s : SectionSwap) :
    (db.swap s).revisions name =
      db.revisions name ++ if s.project = name then [s.new] else [] := by
  simp only [revisions, swap, List.filter_append, List.map_append, List.filter_cons,
    List.filter_nil, decide_eq_true_eq]
  congr 1
  split <;> rfl

/-- A project has the last revision of its history, and every history is one of a project. -/
structure HistoryTells (db : Database) : Prop where
  revision_eq : ∀ name p r, db.project? name = some p →
    (db.revisions name).getLast? = some r → p.revision = r
  project : ∀ name, db.project? name = none → db.revisions name = []

theorem historyTells_empty : empty.HistoryTells :=
  ⟨fun _ _ _ h => (nomatch h), fun _ _ => rfl⟩

theorem HistoryTells.of_eq {db' : Database} (h : db.HistoryTells)
    (hprojects : db'.projects = db.projects) (hhistory : db'.history = db.history) :
    db'.HistoryTells := by
  constructor
  · simp only [project?, revisions, hprojects, hhistory]
    exact h.revision_eq
  · simp only [project?, revisions, hprojects, hhistory]
    exact h.project

theorem project?_withProject (fresh : db.project? name = none) (parent : Option String)
    (revision : String) (sections : List StoredSection) (m : String) :
    (db.withProject name parent revision sections).project? m =
      if m = name then some ⟨some name, parent, revision⟩ else db.project? m := by
  simp only [project?, withProject, List.find?_append] at fresh ⊢
  by_cases h : m = name
  · subst h
    rw [fresh, if_pos rfl]
    simp only [List.find?_cons, decide_true, Option.none_or]
  · rw [if_neg h]
    have hne : (some name = some m) ↔ False := by simp [Ne.symm h]
    simp only [List.find?_cons, hne, decide_false, List.find?_nil, Option.or_none]

theorem project?_swap_self (s : SectionSwap) {p : ProjectRow}
    (found : db.project? s.project = some p) :
    (db.swap s).project? s.project = some { p with revision := s.new } := by
  rw [project?_swap, found, Option.map_some, if_pos (name_of_project? found)]

theorem project?_swap_of_ne (s : SectionSwap) {m : String} (hm : s.project ≠ m) :
    (db.swap s).project? m = db.project? m := by
  rw [project?_swap]
  cases hp : db.project? m with
  | none => rfl
  | some p =>
    have hname : p.name ≠ some s.project := by
      rw [name_of_project? hp]
      exact fun e => hm (Option.some.inj e).symm
    rw [Option.map_some, if_neg hname]

theorem HistoryTells.withProject (h : db.HistoryTells) (fresh : db.project? name = none)
    (parent : Option String) (revision : String) (sections : List StoredSection) :
    (db.withProject name parent revision sections).HistoryTells := by
  constructor
  · intro m p r hp hr
    rw [project?_withProject fresh] at hp
    by_cases hm : m = name
    · subst hm
      have hnone : (db.revisions m).getLast? = none := by rw [h.project m fresh]; rfl
      rw [show (db.revisions m).getLast? = some r from hr] at hnone
      cases hnone
    · rw [if_neg hm] at hp
      exact h.revision_eq m p r hp hr
  · intro m hp
    rw [project?_withProject fresh] at hp
    by_cases hm : m = name
    · rw [if_pos hm] at hp
      cases hp
    · rw [if_neg hm] at hp
      exact h.project m hp

theorem HistoryTells.swap (h : db.HistoryTells) (s : SectionSwap) {p : ProjectRow}
    (found : db.project? s.project = some p) : (db.swap s).HistoryTells := by
  constructor
  · intro m q r hq hr
    rw [revisions_swap] at hr
    by_cases hm : s.project = m
    · subst hm
      rw [if_pos rfl, List.getLast?_concat] at hr
      rw [project?_swap_self s found] at hq
      cases hq
      cases hr
      rfl
    · rw [if_neg hm, List.append_nil] at hr
      rw [project?_swap_of_ne s hm] at hq
      exact h.revision_eq m q r hq hr
  · intro m hq
    by_cases hm : s.project = m
    · subst hm
      rw [project?_swap_self s found] at hq
      cases hq
    · rw [project?_swap_of_ne s hm] at hq
      rw [revisions_swap, if_neg hm, List.append_nil]
      exact h.project m hq

/-- Every statement keeps the history of projects telling their revisions. -/
theorem kept_historyTells : Kept HistoryTells := by
  refine Kept.of_perform fun q db h => ?_
  cases (⟨q, db⟩ : Visit).effect with
  | none _ _ projects history => exact h.of_eq projects history
  | swapped s p _ _ found _ after =>
    rw [show (db.perform q).2 = db.swap s from after]
    exact h.swap s found
  | created name parent revision sections _ _ fresh after =>
    rw [show (db.perform q).2 = db.withProject name parent revision sections from after]
    exact h.withProject fresh parent revision sections

end Database

theorem Reachable.historyTells {db : Database} (h : Reachable db) : db.HistoryTells :=
  h.keeps Database.historyTells_empty Database.kept_historyTells

/-! ## Traces -/

section

variable {db db' : Database} {visits : List Visit}

theorem swapsOf_cons (name : String) (v : Visit) (visits : List Visit) :
    swapsOf name (v :: visits) = swapsOf name [v] ++ swapsOf name visits := by
  simp only [swapsOf, ← List.map_append, ← List.filter_append, ← List.filterMap_append,
    List.singleton_append]

/-- One visit adds to the history of a project what it has swapped in. -/
theorem revisions_after (v : Visit) (name : String) :
    v.after.revisions name = v.before.revisions name ++ swapsOf name [v] := by
  cases v.effect with
  | none swapped _ _ history =>
    simp only [Database.revisions, history, swapsOf, List.filterMap_cons, swapped,
      List.filterMap_nil, List.filter_nil, List.map_nil, List.append_nil]
  | swapped s p swapped _ _ _ after =>
    rw [after, Database.revisions_swap]
    simp only [swapsOf, List.filterMap_cons, swapped, List.filterMap_nil, List.filter_cons,
      List.filter_nil, decide_eq_true_eq]
    split <;> rfl
  | created _ _ _ _ swapped _ _ after =>
    simp only [after, Database.revisions, Database.withProject, swapsOf, List.filterMap_cons,
      swapped, List.filterMap_nil, List.filter_nil, List.map_nil, List.append_nil]

/-- The history of a project grows by the swaps of a trace, in their order. -/
theorem revisions_of_chained (h : Chained db visits db') (name : String) :
    db'.revisions name = db.revisions name ++ swapsOf name visits := by
  induction h with
  | nil db => exact (List.append_nil _).symm
  | @cons v visits db' _ ih =>
    rw [ih, revisions_after, swapsOf_cons name v visits, List.append_assoc]

/-- A project without swaps in a trace was there before, as it is, or was created in the trace. -/
theorem project_of_chained (h : Chained db visits db') {name : String} {p : ProjectRow}
    (hswaps : swapsOf name visits = []) (hp : db'.project? name = some p) :
    db.project? name = some p ∨
      db.project? name = none ∧ ∃ v ∈ visits, v.created? = some (name, p.revision) := by
  induction h with
  | nil db => exact .inl hp
  | @cons v visits db' _ ih =>
    rw [swapsOf_cons] at hswaps
    obtain ⟨hnow, hlater⟩ := List.append_eq_nil_iff.mp hswaps
    -- what is known after the visit is carried back over it
    have hback (hsame : v.after.project? name = v.before.project? name) :
        v.before.project? name = some p ∨ v.before.project? name = none ∧
          ∃ w ∈ v :: visits, w.created? = some (name, p.revision) := by
      rcases ih hlater hp with hthere | ⟨habsent, w, hw, hcreated⟩
      · exact .inl (hsame ▸ hthere)
      · exact .inr ⟨hsame ▸ habsent, w, List.mem_cons_of_mem v hw, hcreated⟩
    cases v.effect with
    | none _ _ projects => exact hback (by simp only [Database.project?, projects])
    | swapped s q swapped _ found _ after =>
      refine hback ?_
      by_cases hname : s.project = name
      · simp [swapsOf, swapped, hname] at hnow
      · rw [after, Database.project?_swap_of_ne s hname]
    | created m parent revision sections _ created fresh after =>
      rw [after, Database.project?_withProject fresh] at hback
      by_cases hname : name = m
      · subst hname
        refine .inr ⟨fresh, ?_⟩
        rcases ih hlater hp with hthere | ⟨habsent, -⟩
        · rw [after, Database.project?_withProject fresh, if_pos rfl] at hthere
          cases hthere
          exact ⟨v, List.mem_cons_self, created⟩
        · rw [after, Database.project?_withProject fresh, if_pos rfl] at habsent
          cases habsent
      · exact hback (if_neg hname)

end

end AccessLedger
