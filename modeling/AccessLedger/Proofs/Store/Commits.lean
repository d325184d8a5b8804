import AccessLedger.Proofs.Store.Commit
import AccessLedger.Proofs.Store.History

/-!
# Commits that run at the same time

Operations of any kind run at the same time, statement by statement.  A commit
that swaps its sections in replaces just those that it has loaded; any other
commit changes nothing; and the history of a project lists the swaps, the last
of which gave it its revision (`commits_lose_no_update`).  The revision is a
digest, so this is under the assumption that the digests of the lists of
sections that are found stored tell these apart (`NoCollision`).
-/

namespace AccessLedger

/-! ## Following a program -/

section

variable {α β : Type} {visits : List Visit} {r : Running}

theorem eq_nil_of_follows_done {a : α} (h : Follows ⟨(.done a : StoreProgram α)⟩ visits r) :
    visits = [] ∧ r = ⟨(.done a : StoreProgram α)⟩ := by
  cases h
  exact ⟨rfl, rfl⟩

theorem eq_nil_of_follows_fail {e : Failure}
    (h : Follows ⟨(.fail e : StoreProgram α)⟩ visits r) : visits = [] := by
  cases h
  rfl

/-- A program that begins with a statement has executed it or has not begun. -/
theorem follows_query_bind {q : Statement β} {f : β → StoreProgram α}
    (h : Follows ⟨Program.query q >>= f⟩ visits r) :
    visits = [] ∨ ∃ db rest, visits = ⟨q, db⟩ :: rest ∧
      Follows (resume f (db.perform q).1) rest r := by
  cases h with
  | nil => exact .inl rfl
  | cons h => exact .inr ⟨_, _, rfl, h⟩

/-- The visits of a program ask what the program asks. -/
theorem Follows.asks {P : {β : Type} → Statement β → Prop} {r' : Running}
    (h : Follows r visits r') (hr : r.program.Asks P) : ∀ v ∈ visits, P v.question := by
  induction h with
  | nil r => exact fun _ hv => nomatch hv
  | @cons α β q next db visits r' _ ih =>
    intro v hv
    rcases List.mem_cons.mp hv with rfl | hv
    · exact hr.1
    · refine ih ?_ v hv
      cases (db.perform q).1 with
      | ok b => exact hr.2 b
      | error e => trivial

/-- The visits of a program that only reads change nothing. -/
theorem Follows.after_eq_before {r' : Running} (h : Follows r visits r')
    (hr : r.program.Asks fun q => q.isRead = true) : ∀ v ∈ visits, v.after = v.before :=
  fun v hv => Database.perform_of_isRead (h.asks hr v hv) v.before

end

/-! ## Following a commit -/

/-- All visits have left the database as it was. -/
def Idle (visits : List Visit) : Prop := ∀ v ∈ visits, v.after = v.before

theorem Idle.cons {v : Visit} {visits : List Visit} (hv : v.question.isRead = true)
    (h : Idle visits) : Idle (v :: visits) := by
  intro w hw
  rcases List.mem_cons.mp hw with rfl | hw
  · exact Database.perform_of_isRead hv w.before
  · exact h w hw

theorem idle_nil : Idle [] := fun _ h => nomatch h

namespace Store

section

variable {name : String} {account : AccountId} {update : AccessUpdate} {now : Instant}
variable {stored : Project} {owned : NameSet} {visits : List Visit} {r : Running}

/-- The last stage of a commit is idle, or it is one swap after which the commit has ended. -/
theorem follows_commitMerged {merged : List AccessSection}
    (h : Follows ⟨commitMerged name account update now stored owned merged⟩ visits r) :
    Idle visits ∨ ∃ db s p, s = commitSwap name account update now stored merged ∧
      visits = [⟨.swapSections s, db⟩] ∧ db.swapSections s = (.ok true, db.swap s) ∧
      db.project? name = some p ∧ p.revision = stored.revision ∧
      ∃ result, r = ⟨(.done result : StoreProgram AccessConfig)⟩ := by
  unfold commitMerged at h
  split at h
  · rw [(eq_nil_of_follows_done h).1]
    exact .inl idle_nil
  · rcases follows_query_bind h with rfl | ⟨db, rest, rfl, hrest⟩
    · exact .inl idle_nil
    · rcases db.swapSections_cases (commitSwap name account update now stored merged) with
        hswap | ⟨p, found, current, hswap⟩ <;>
        simp only [Database.perform, hswap, resume] at hrest
      · refine .inl fun v hv => ?_
        rcases List.mem_cons.mp hv with rfl | hv
        · simp only [Visit.after, Database.perform, hswap]
        · exact hrest.after_eq_before asks_commitLost v hv
      · obtain ⟨rfl, hr⟩ := eq_nil_of_follows_done hrest
        exact .inr ⟨db, _, p, rfl, rfl, hswap, found, current, _, hr⟩

/-- What has been found of the groups that some sections refer to. -/
def knownIn (db : Database) (sections : List AccessSection) (uuid : GroupUuid) : Bool :=
  uuid ∈ (referencedGroups sections).filter fun u => (db.description? u).isSome

/-- The stages of a commit that remain once the project has been loaded. -/
theorem follows_commitLoaded
    (h : Follows ⟨commitLoaded name account update now (some stored)⟩ visits r) :
    Idle visits ∨ ∃ db₁ db₂ db₃ s p,
      s = commitSwap name account update now stored
        (mergeSections (db₁.ownedSections name account).coversSection
          (knownIn db₂ update.sections) stored.sections update.sections) ∧
      visits = [⟨.ownedSections name account, db₁⟩,
        ⟨.knownGroups (referencedGroups update.sections), db₂⟩, ⟨.swapSections s, db₃⟩] ∧
      db₃.swapSections s = (.ok true, db₃.swap s) ∧
      db₃.project? name = some p ∧ p.revision = stored.revision ∧
      ∃ result, r = ⟨(.done result : StoreProgram AccessConfig)⟩ := by
  simp only [commitLoaded] at h
  split at h
  · rw [eq_nil_of_follows_fail h]
    exact .inl idle_nil
  cases hvalid : requireValid update.sections with
  | error e =>
    rw [hvalid] at h
    rw [eq_nil_of_follows_fail (α := AccessConfig) h]
    exact .inl idle_nil
  | ok u =>
    rw [hvalid] at h
    rcases follows_query_bind h with rfl | ⟨db₁, rest, rfl, howned⟩
    · exact .inl idle_nil
    simp only [Database.perform, resume, commitOwned] at howned
    split at howned
    · rw [eq_nil_of_follows_fail howned]
      exact .inl (idle_nil.cons rfl)
    rcases follows_query_bind howned with rfl | ⟨db₂, rest, rfl, hknown⟩
    · exact .inl (idle_nil.cons rfl)
    simp only [Database.perform, resume] at hknown
    rcases follows_commitMerged hknown with hidle | ⟨db₃, s, p, hs, rfl, hrest⟩
    · exact .inl ((hidle.cons rfl).cons rfl)
    · exact .inr ⟨db₁, db₂, db₃, s, p, hs, rfl, hrest⟩

/--
A commit is idle, or it consists of loading the project, the owned sections and
the known groups, and of one swap after which it has ended.
-/
theorem follows_applyAccess (h : Follows ⟨applyAccess name account update now⟩ visits r)
    (hkept : ∀ v ∈ visits, v.before.WellKept) :
    Idle visits ∨ ∃ db₀ db₁ db₂ db₃ parent loaded s p,
      db₀.Holds name loaded ∧
      s = commitSwap name account update now ⟨parent, revisionOf loaded, loaded⟩
        (mergeSections (db₁.ownedSections name account).coversSection
          (knownIn db₂ update.sections) loaded update.sections) ∧
      visits = [⟨.project name, db₀⟩, ⟨.ownedSections name account, db₁⟩,
        ⟨.knownGroups (referencedGroups update.sections), db₂⟩, ⟨.swapSections s, db₃⟩] ∧
      db₃.swapSections s = (.ok true, db₃.swap s) ∧
      db₃.project? name = some p ∧ p.revision = revisionOf loaded ∧
      ∃ result, r = ⟨(.done result : StoreProgram AccessConfig)⟩ := by
  rw [applyAccess_eq, project, bind_assoc] at h
  rcases follows_query_bind h with rfl | ⟨db₀, rest, rfl, hrest⟩
  · exact .inl idle_nil
  cases hfound : (db₀.perform (.project name)).1 with
  | error e => cases hfound
  | ok found =>
    rw [hfound, resume] at hrest
    cases found with
    | none =>
      rw [eq_nil_of_follows_fail hrest]
      exact .inl (idle_nil.cons rfl)
    | some p =>
      obtain ⟨loaded, hsections, hrevision, -, hholds⟩ :=
        exists_sections_of_perform_project (hkept _ List.mem_cons_self) hfound
      dsimp only at hrest
      rw [decode_of_sections_eq hsections, hrevision] at hrest
      change Follows ⟨commitLoaded name account update now
        (some ⟨p.parent, revisionOf loaded, loaded⟩)⟩ rest r at hrest
      rcases follows_commitLoaded hrest with hidle | ⟨db₁, db₂, db₃, s, row, hs, rfl, hend⟩
      · exact .inl (hidle.cons rfl)
      · exact .inr ⟨db₀, db₁, db₂, db₃, p.parent, loaded, s, row, hholds, hs, rfl, hend⟩

end

end Store

/-! ## What holds of all commits -/

/-- Lists of sections that some visits find stored for a project have one text if one revision. -/
def NoCollision (visits : List Visit) : Prop :=
  ∀ v ∈ visits, ∀ w ∈ visits, ∀ name a b, v.before.Holds name a → w.before.Holds name b →
    revisionOf a = revisionOf b → sectionsText a = sectionsText b

/--
A call is a commit that ends with the visit `v`.  The sections that are stored
before `v` are those that the commit has loaded, and after it they are these
merged with what was requested.
-/
def ReplacesLoaded (calls : List Call) (trace : List (Nat × Visit)) (i : Nat) (v : Visit) :
    Prop :=
  ∃ name account update now db₀ db₁ db₂ loaded,
    calls[i]? = some ⟨.applyAccess name account update, now⟩ ∧
    visitsOf i trace = [⟨.project name, db₀⟩, ⟨.ownedSections name account, db₁⟩,
      ⟨.knownGroups (Store.referencedGroups update.sections), db₂⟩, v] ∧
    (db₀.storedSections name).mapM AccessSection.ofStored = .ok loaded ∧
    v.before.storedSections name = db₀.storedSections name ∧
    v.after.storedSections name =
      (mergeSections (db₁.ownedSections name account).coversSection
        (Store.knownIn db₂ update.sections) loaded update.sections).map AccessSection.toStored

theorem Visit.swapped?_of_not_writesSections {v : Visit} (h : v.question.writesSections = false) :
    v.swapped? = none := by
  obtain ⟨q, db⟩ := v
  cases q <;> first | rfl | cases h

theorem Visit.after_of_swapSections {s : SectionSwap} {db : Database}
    (h : db.swapSections s = (.ok true, db.swap s)) :
    (⟨.swapSections s, db⟩ : Visit).after = db.swap s := by
  simp only [after, Database.perform, h]

theorem Visit.swapped?_of_swapSections {s : SectionSwap} {db : Database}
    (h : db.swapSections s = (.ok true, db.swap s)) :
    (⟨.swapSections s, db⟩ : Visit).swapped? = some s := by
  simp only [swapped?, h]

/-- An operation that swaps something in is a commit. -/
theorem eq_applyAccess_of_swapped {α : Type} {operation : Operation α} {now : Instant}
    {visits : List Visit} {r : Running} (h : Follows ⟨operation.program now⟩ visits r) {v : Visit}
    (hv : v ∈ visits) (hswapped : v.swapped? ≠ none) : ∃ name account update,
      (⟨operation, now⟩ : Call) = ⟨.applyAccess name account update, now⟩ := by
  cases hwrites : operation.writesSections with
  | false =>
    have hasks := operation.asks_of_not_writesSections hwrites now
    exact absurd (Visit.swapped?_of_not_writesSections (h.asks hasks v hv)) hswapped
  | true =>
    cases operation with
    | createProject name parent sections =>
      have hasks : (Store.createProject name parent sections).Asks
          fun q => ∀ db, Visit.swapped? ⟨q, db⟩ = none :=
        Program.asks_bind (Program.asks_ofExcept _) fun _ =>
          Program.asks_bind (Program.asks_query fun _ => rfl) fun _ => trivial
      exact absurd (h.asks hasks v hv v.before) hswapped
    | applyAccess name account update => exact ⟨name, account, update, rfl⟩
    | _ => cases hwrites

section

variable {db : Database} {calls : List Call} {schedule : List Nat}

/-- A call of a system that has started leaves something of its program, which its visits follow. -/
theorem follows_call {i : Nat} {c : Call} (hc : calls[i]? = some c) :
    ∃ r, ((System.start db calls).run schedule).running[i]? = some r ∧
      Follows ⟨c.operation.program c.now⟩ (visitsOf i ((System.start db calls).trace schedule)) r :=
  System.follows_trace (by rw [System.start, List.getElem?_map, hc]; rfl) schedule

theorem exists_call {i : Nat} {v : Visit} (h : (i, v) ∈ (System.start db calls).trace schedule) :
    ∃ c, calls[i]? = some c := by
  have hlt := System.lt_of_mem_trace h
  rw [System.start, List.length_map] at hlt
  exact ⟨calls[i], List.getElem?_eq_getElem hlt⟩

theorem wellKept_before (hdb : db.WellKept) {i : Nat} :
    ∀ v ∈ visitsOf i ((System.start db calls).trace schedule), v.before.WellKept :=
  fun _ hv => (System.keeps_start kept_wellKept hdb calls).trace (System.mem_visitsOf.mp hv)

/-- A visit that has swapped something in is the last one of a commit that loaded what is replaced. -/
theorem replacesLoaded_of_swapped (hdb : db.WellKept)
    (hdigest : NoCollision (((System.start db calls).trace schedule).map Prod.snd)) {i : Nat}
    {v : Visit} (hv : (i, v) ∈ (System.start db calls).trace schedule)
    (hswapped : v.swapped? ≠ none) :
    ReplacesLoaded calls ((System.start db calls).trace schedule) i v := by
  obtain ⟨⟨operation, now⟩, hc⟩ := exists_call hv
  obtain ⟨r, -, hfollows⟩ := @follows_call db calls schedule i _ hc
  have hvisit := System.mem_visitsOf.mpr hv
  obtain ⟨name, account, update, hcall⟩ := eq_applyAccess_of_swapped hfollows hvisit hswapped
  cases hcall
  have hkept := @wellKept_before db calls schedule hdb i
  rcases Store.follows_applyAccess hfollows hkept with
    hidle | ⟨db₀, db₁, db₂, db₃, parent, loaded, s, p, hholds, rfl, hvisits, hswap, found,
      current, -⟩
  · exact absurd (Visit.swapped?_eq_none (hidle v hvisit)) hswapped
  · -- of the four visits only the last one can have swapped anything in
    rw [hvisits] at hvisit
    simp only [List.mem_cons, List.not_mem_nil, or_false] at hvisit
    rcases hvisit with rfl | rfl | rfl | rfl
    · exact absurd rfl hswapped
    · exact absurd rfl hswapped
    · exact absurd rfl hswapped
    have hmem (w : Visit) (hw : w ∈ visitsOf i ((System.start db calls).trace schedule)) :
        w ∈ ((System.start db calls).trace schedule).map Prod.snd :=
      List.mem_map.mpr ⟨(i, w), System.mem_visitsOf.mp hw, rfl⟩
    -- the revision has not changed, so neither have the sections
    have hfirst : (⟨.project name, db₀⟩ : Visit) ∈
        visitsOf i ((System.start db calls).trace schedule) := by
      rw [hvisits]
      exact List.mem_cons_self
    have hlast := System.mem_visitsOf.mpr hv
    obtain ⟨stored, hrevision, -, hstored⟩ := (hkept _ hlast).found found
    have hsame : stored = loaded := sectionsText_injective <|
      hdigest _ (hmem _ hlast) _ (hmem _ hfirst) name stored loaded hstored hholds
        (hrevision.symm.trans current)
    subst hsame
    refine ⟨name, account, update, now, db₀, db₁, db₂, stored, hc, hvisits, ?_, ?_, ?_⟩
    · rw [hholds.storedSections_eq, AccessSection.mapM_ofStored_toStored]
    · rw [hstored.storedSections_eq, hholds.storedSections_eq]
    · rw [Visit.after_of_swapSections hswap]
      exact Store.storedSections_swap_commitSwap _ _ _

/-- A commit that has failed, or has not swapped anything in, is idle. -/
theorem idle_of_commit (hdb : db.WellKept) {i : Nat} {name : String} {account : AccountId}
    {update : AccessUpdate} {now : Instant}
    (hc : calls[i]? = some ⟨.applyAccess name account update, now⟩)
    (h : (∃ e, ((System.start db calls).run schedule).running[i]? =
        some ⟨(.fail e : StoreProgram AccessConfig)⟩) ∨
      ∀ v ∈ visitsOf i ((System.start db calls).trace schedule), v.swapped? = none) :
    Idle (visitsOf i ((System.start db calls).trace schedule)) := by
  obtain ⟨r, hr, hfollows⟩ := @follows_call db calls schedule i _ hc
  rcases Store.follows_applyAccess hfollows (wellKept_before hdb) with
    hidle | ⟨db₀, db₁, db₂, db₃, parent, loaded, s, p, -, -, hvisits, hswap, -, -, result, hdone⟩
  · exact hidle
  · rcases h with ⟨e, hfail⟩ | hnone
    · rw [hr, hdone] at hfail
      cases hfail
    · have hlast : (⟨.swapSections s, db₃⟩ : Visit) ∈
          visitsOf i ((System.start db calls).trace schedule) := by
        rw [hvisits]
        simp only [List.mem_cons, true_or, or_true]
      have hswapped := hnone _ hlast
      rw [Visit.swapped?_of_swapSections hswap] at hswapped
      cases hswapped

/--
Operations run at the same time from a reachable database.  Each swap is that
of a commit, which replaces the sections that it has loaded by these merged
with its request.  A commit that fails or swaps nothing in changes nothing.
The history of a project grows by the swaps, and its revision is the last one
of the history; without one it is the revision with which it was created.
-/
theorem commits_lose_no_update (h : Reachable db) (calls : List Call) (schedule : List Nat)
    (hdigest : NoCollision (((System.start db calls).trace schedule).map Prod.snd)) :
    let trace := (System.start db calls).trace schedule
    let last := (System.start db calls).run schedule
    (∀ i v, (i, v) ∈ trace → v.swapped? ≠ none → ReplacesLoaded calls trace i v) ∧
    (∀ i name account update now, calls[i]? = some ⟨.applyAccess name account update, now⟩ →
      (∃ e, last.running[i]? = some ⟨(.fail e : StoreProgram AccessConfig)⟩) ∨
        (∀ v ∈ visitsOf i trace, v.swapped? = none) →
      Idle (visitsOf i trace)) ∧
    ∀ name, last.db.revisions name = db.revisions name ++ swapsOf name (trace.map Prod.snd) ∧
      ∀ p, last.db.project? name = some p → match (last.db.revisions name).getLast? with
        | some revision => p.revision = revision
        | none => db.project? name = some p ∨ db.project? name = none ∧
          ∃ v ∈ trace.map Prod.snd, v.created? = some (name, p.revision) := by
  have hchained := (System.start db calls).chained_trace schedule
  have hlast := ((System.keeps_start Database.kept_historyTells h.historyTells calls).run
    schedule).holds
  refine ⟨fun i v => replacesLoaded_of_swapped h.wellKept hdigest,
    fun i name account update now => idle_of_commit h.wellKept, fun name => ?_⟩
  have hrevisions := revisions_of_chained hchained name
  refine ⟨hrevisions, fun p hp => ?_⟩
  cases hr : (((System.start db calls).run schedule).db.revisions name).getLast? with
  | some revision => exact hlast.revision_eq name p revision hp hr
  | none =>
    rw [List.getLast?_eq_none_iff.mp hr] at hrevisions
    exact project_of_chained hchained (List.append_eq_nil_iff.mp hrevisions.symm).2 hp

end

/-! ## Two commits that were based on one revision -/

/-- A project without sections that account 1 may give any. -/
def sharedProject : Database :=
  (Operation.grantSection "p" allRefs ⟨"g"⟩).after .start <|
  (Operation.createProject "p" none []).after .start <|
  (Operation.createGroup ⟨"g"⟩ "g" none none ⟨1⟩ .start).after .start <|
  (Operation.createAccount none none none).after .start .empty

theorem reachable_sharedProject : Reachable sharedProject :=
  ((((Reachable.empty.step _ _).step _ _).step _ _).step _ _)

/-- Two commits of different sections. -/
def racingCommits : List Call :=
  [⟨.applyAccess "p" ⟨1⟩ ⟨revisionOf [], none, [⟨"refs/a", []⟩]⟩, .start⟩,
   ⟨.applyAccess "p" ⟨1⟩ ⟨revisionOf [], none, [⟨"refs/b", []⟩]⟩, .start⟩]

/-- Both read before either writes. -/
def racingSchedule : List Nat := [0, 1, 0, 1, 0, 1, 0, 1, 1]

/-- What the first commit makes of the project. -/
def sharedProjectAfter : Database :=
  ((System.start sharedProject racingCommits).run racingSchedule).db

theorem before_racingCommits :
    ∀ v ∈ ((System.start sharedProject racingCommits).trace racingSchedule).map Prod.snd,
      v.before = sharedProject ∨ v.before = sharedProjectAfter := by
  have hall : (((System.start sharedProject racingCommits).trace racingSchedule).map
      fun (_, v) => v.before).all
        (fun db => db = sharedProject || db = sharedProjectAfter) = true := by
    decide +kernel
  intro v hv
  obtain ⟨⟨i, v⟩, hiv, rfl⟩ := List.mem_map.mp hv
  have hbefore := List.all_eq_true.mp hall _ (List.mem_map_of_mem hiv)
  simpa only [Bool.or_eq_true, decide_eq_true_eq] using hbefore

theorem sections_sharedProject {db : Database}
    (hdb : db = sharedProject ∨ db = sharedProjectAfter) {name : String}
    {sections : List AccessSection} (h : db.Holds name sections) :
    sections = [] ∨ sections = [⟨"refs/a", []⟩] := by
  have hnil (hrows : db.sections.filter (·.project = name) = []) : sections = [] := by
    have hlength := congrArg List.length (h.symm.trans hrows)
    simp only [Database.sectionRows, List.length_mapIdx, List.length_map, List.length_nil] at hlength
    exact List.eq_nil_of_length_eq_zero hlength
  rcases hdb with rfl | rfl
  · exact .inl (hnil (by rw [show sharedProject.sections = [] by decide +kernel]; rfl))
  · have hrows : sharedProjectAfter.sections = [⟨"p", .integer 0, "refs/a", "[]"⟩] := by
      decide +kernel
    by_cases hname : name = "p"
    · subst hname
      have hheld : sharedProjectAfter.Holds "p" [⟨"refs/a", []⟩] := by decide +kernel
      exact .inr (h.unique hheld)
    · refine .inl (hnil ?_)
      rw [hrows]
      simp only [List.filter_cons, Ne.symm hname, decide_false, Bool.false_eq_true, if_false,
        List.filter_nil]

theorem noCollision_racingCommits :
    NoCollision (((System.start sharedProject racingCommits).trace racingSchedule).map Prod.snd) := by
  have hne : revisionOf [] ≠ revisionOf [⟨"refs/a", []⟩] := by decide +kernel
  intro v hv w hw name a b ha hb he
  rcases sections_sharedProject (before_racingCommits v hv) ha with rfl | rfl <;>
    rcases sections_sharedProject (before_racingCommits w hw) hb with rfl | rfl
  · rfl
  · exact absurd he hne
  · exact absurd he.symm hne
  · rfl

/-- One commit replaces what it has loaded, the other one fails and changes nothing. -/
theorem racing_commits_lose_no_update :
    let trace := (System.start sharedProject racingCommits).trace racingSchedule
    (∀ i v, (i, v) ∈ trace → v.swapped? ≠ none → ReplacesLoaded racingCommits trace i v) ∧
    sharedProjectAfter.revisions "p" = [revisionOf [⟨"refs/a", []⟩]] :=
  ⟨(commits_lose_no_update reachable_sharedProject racingCommits racingSchedule
    noCollision_racingCommits).1, by decide +kernel⟩

end AccessLedger
