import AccessLedger.Proofs.Store.Sections

/-!
# The stages of a commit

A commit loads the project, then the sections that the account owns, then the
groups that are known, and swaps the merged sections in.  `Store.applyAccess`
is cut here into what follows each of these statements
(`Store.applyAccess_eq`).  `Store.safe_applyAccess` says what a commit needs
to keep an invariant whatever happens between its statements; with it the
database stays well kept (`kept_wellKept`).
-/

namespace AccessLedger

namespace Store

section

variable (name : String) (account : AccountId) (update : AccessUpdate) (now : Instant)

/-- What a commit asks to be swapped in. -/
def commitSwap (stored : Project) (merged : List AccessSection) : SectionSwap :=
  ⟨name, stored.revision, revisionOf merged, merged.map AccessSection.toStored, update.message,
   account, now⟩

/-- The answer of a commit. -/
def commitResult (stored : Project) (owned : NameSet) (merged : List AccessSection) :
    AccessConfig :=
  ⟨name, revisionOf merged, stored.parent, merged, owned⟩

/-- The end of a commit that comes too late. -/
def commitLost : StoreProgram AccessConfig := do
  let current := match ← project name with
    | some p => p.revision
    | none => ""
  .fail (.staleRevision current update.revision)

/-- The rest of a commit once its sections have been merged. -/
def commitMerged (stored : Project) (owned : NameSet) (merged : List AccessSection) :
    StoreProgram AccessConfig :=
  if revisionOf merged = stored.revision then
    .done (commitResult name stored owned merged)
  else
    Program.query (.swapSections (commitSwap name account update now stored merged)) >>= fun
      | true => .done (commitResult name stored owned merged)
      | false => commitLost name update

/-- The rest of a commit once the owned sections are known. -/
def commitOwned (stored : Project) (owned : NameSet) : StoreProgram AccessConfig :=
  if owned.isEmpty then .fail .notOwner
  else
    Program.query (.knownGroups (referencedGroups update.sections)) >>= fun known =>
      commitMerged name account update now stored owned
        (mergeSections owned.coversSection (fun u => u ∈ known) stored.sections update.sections)

/-- The rest of a commit once the project has been loaded. -/
def commitLoaded : Option Project → StoreProgram AccessConfig
  | none => .fail (.projectNotFound name)
  | some stored =>
    if stored.revision ≠ update.revision then
      .fail (.staleRevision stored.revision update.revision)
    else
      Program.ofExcept (requireValid update.sections) >>= fun _ =>
        Program.query (.ownedSections name account) >>= commitOwned name account update now stored

theorem applyAccess_eq : applyAccess name account update now =
    project name >>= commitLoaded name account update now := by
  refine bind_congr fun loaded => ?_
  cases loaded with
  | none => rfl
  | some stored =>
    simp only [commitLoaded]
    split
    · rfl
    · refine bind_congr fun _ => bind_congr fun owned => ?_
      simp only [commitOwned]
      split
      · rfl
      · refine bind_congr fun known => ?_
        simp only [commitMerged]
        split
        · rfl
        · refine bind_congr fun swapped => ?_
          cases swapped <;> rfl

end

/-- What is loaded of a well-kept project is a valid list of sections. -/
theorem exists_sections_of_perform_project {db : Database} (h : db.WellKept) {name : String}
    {p : StoredProject} (hp : (db.perform (.project name)).1 = .ok (some p)) :
    ∃ sections, p.sections = sections.map AccessSection.toStored ∧
      p.revision = revisionOf sections ∧ validateSections sections = .ok () ∧
      db.Holds name sections := by
  simp only [Database.perform, Except.ok.injEq, Option.map_eq_some_iff] at hp
  obtain ⟨row, hrow, rfl⟩ := hp
  obtain ⟨sections, hrevision, hvalid, hholds⟩ := h.found hrow
  exact ⟨sections, hholds.storedSections_eq, hrevision, hvalid, hholds⟩

theorem decode_of_sections_eq {p : StoredProject} {sections : List AccessSection}
    (h : p.sections = sections.map AccessSection.toStored) :
    p.decode = .ok ⟨p.parent, p.revision, sections⟩ := by
  rw [StoredProject.decode, h, AccessSection.mapM_ofStored_toStored]
  rfl

/-- Only projects that are there are loaded. -/
theorem run_project_of_none {db : Database} {name : String} (h : db.project? name = none) :
    (project name).run db = (.ok none, db) := by
  simp [project, StoreProgram.run, Database.perform, h]

/-- What a project holds is loaded. -/
theorem run_project_of_holds {db : Database} {name : String} {row : ProjectRow}
    {sections : List AccessSection} (hrow : db.project? name = some row)
    (hholds : db.Holds name sections) :
    (project name).run db = (.ok (some ⟨row.parent, row.revision, sections⟩), db) := by
  have hdecode : StoredProject.decode ⟨row.parent, row.revision, db.storedSections name⟩ =
      .ok ⟨row.parent, row.revision, sections⟩ :=
    decode_of_sections_eq hholds.storedSections_eq
  simp [project, StoreProgram.run, Database.perform, hrow, hdecode, Except.map]

theorem requireValid_eq_ok {sections : List AccessSection} {u : Unit}
    (h : requireValid sections = .ok u) : validateSections sections = .ok () := by
  unfold requireValid at h
  split at h
  · next hvalid => exact hvalid
  · cases h

section

variable {inv : Database → Prop} {name : String} {account : AccountId} {update : AccessUpdate}
  {now : Instant}

/-- What is loaded from databases with the invariant. -/
theorem safe_project {loads : List AccessSection → Prop} (hkept : ∀ db, inv db → db.WellKept)
    (hload : ∀ db sections, inv db → db.Holds name sections → loads sections) :
    Safe inv (fun loaded => ∀ stored, loaded = some stored →
      validateSections stored.sections = .ok () ∧ loads stored.sections) (project name) := by
  have hfound : Safe inv (fun found => ∀ p, found = some p → ∃ sections,
      p.sections = sections.map AccessSection.toStored ∧
      validateSections sections = .ok () ∧ loads sections) (Program.query (.project name)) := by
    refine Safe.query fun db hdb => ⟨hdb, fun found hfound p hp => ?_⟩
    subst hp
    obtain ⟨sections, hsections, -, hvalid, hholds⟩ :=
      exists_sections_of_perform_project (hkept db hdb) hfound
    exact ⟨sections, hsections, hvalid, hload db sections hdb hholds⟩
  refine hfound.bind fun found h => ?_
  cases found with
  | none => exact fun _ e => nomatch e
  | some p =>
    obtain ⟨sections, hsections, hvalid, hloads⟩ := h p rfl
    dsimp only
    rw [decode_of_sections_eq hsections]
    intro stored e
    cases e
    exact ⟨hvalid, hloads⟩

/-- A commit that comes too late only reads. -/
theorem asks_commitLost : (commitLost name update).Asks fun q => q.isRead = true :=
  Program.asks_bind (asks_project name) fun _ => trivial

/-- The sections that a commit swaps in are stored then. -/
theorem storedSections_swap_commitSwap (db : Database) (stored : Project)
    (merged : List AccessSection) :
    (db.swap (commitSwap name account update now stored merged)).storedSections name =
      merged.map AccessSection.toStored :=
  (Database.holds_swap_self (commitSwap name account update now stored merged)
    rfl).storedSections_eq

theorem safe_of_asks_isRead {α : Type} {p : StoreProgram α}
    (h : p.Asks fun q => q.isRead = true) : Safe inv (fun _ => True) p :=
  Safe.of_asks (h.mono fun _ hq _ hdb => (Database.perform_of_isRead hq _).symm ▸ hdb)

/--
A commit keeps an invariant of well-kept databases if swapping merged sections
in does, where `loads` holds of the sections that are loaded and `owns` of the
names of the owned ones.
-/
theorem safe_applyAccess (loads : List AccessSection → Prop) (owns : NameSet → Prop)
    (hkept : ∀ db, inv db → db.WellKept)
    (hload : ∀ db sections, inv db → db.Holds name sections → loads sections)
    (howns : ∀ db, inv db → owns (db.ownedSections name account))
    (hswap : ∀ db (stored : Project) (owned : NameSet) (isKnown : GroupUuid → Bool),
      inv db → (db.project? name).isSome = true →
      validateSections stored.sections = .ok () → loads stored.sections → owns owned →
      validateSections update.sections = .ok () →
      inv (db.swap (commitSwap name account update now stored
        (mergeSections owned.coversSection isKnown stored.sections update.sections)))) :
    Safe inv (fun _ => True) (applyAccess name account update now) := by
  rw [applyAccess_eq]
  refine (safe_project hkept hload).bind fun loaded hloaded => ?_
  cases loaded with
  | none => trivial
  | some stored =>
    obtain ⟨hstored, hloads⟩ := hloaded stored rfl
    simp only [commitLoaded]
    split
    · trivial
    · refine Safe.bind (Safe.ofExcept fun _ h => requireValid_eq_ok h) fun _ hvalid => ?_
      have howned : Safe inv owns (Program.query (.ownedSections name account)) :=
        Safe.query fun db hdb => ⟨hdb, fun owned e => by cases e; exact howns db hdb⟩
      refine howned.bind fun owned howned => ?_
      unfold commitOwned
      split
      · trivial
      · refine (safe_of_asks_isRead (Program.asks_query rfl)).bind fun known _ => ?_
        unfold commitMerged
        split
        · trivial
        · have hswapped : Safe inv (fun _ => True) (Program.query (.swapSections (commitSwap name
              account update now stored (mergeSections owned.coversSection (fun u => u ∈ known)
                stored.sections update.sections)))) := by
            refine Safe.query fun db hdb => ⟨?_, fun _ _ => trivial⟩
            rcases db.swapSections_cases (commitSwap name account update now stored
              (mergeSections owned.coversSection (fun u => u ∈ known) stored.sections
                update.sections)) with h | ⟨p, found, -, h⟩ <;>
              simp only [Database.perform, h]
            · exact hdb
            · exact hswap db stored owned _ hdb (Option.isSome_of_eq_some found) hstored hloads
                howned hvalid
          refine hswapped.bind fun swapped _ => ?_
          cases swapped with
          | true => trivial
          | false => exact safe_of_asks_isRead asks_commitLost

end

/-! ## Well-kept databases -/

theorem safe_createProject (name : String) (parent : Option String)
    (sections : List AccessSection) :
    Safe Database.WellKept (fun _ => True) (createProject name parent sections) := by
  refine Safe.bind (Safe.ofExcept fun _ h => requireValid_eq_ok h) fun _ hvalid => ?_
  have hinsert : Safe Database.WellKept (fun _ => True) (Program.query (.insertProject name parent
      (revisionOf sections) (sections.map AccessSection.toStored))) := by
    refine Safe.query fun db hdb => ⟨?_, fun _ _ => trivial⟩
    rcases db.insertProject_cases name parent (revisionOf sections)
      (sections.map AccessSection.toStored) with h | ⟨fresh, h⟩ <;> simp only [Database.perform, h]
    · exact hdb
    · exact hdb.withProject fresh parent hvalid
  exact hinsert.bind fun _ _ => trivial

end Store

/-- Every statement of every operation keeps a database well kept. -/
theorem kept_wellKept : Kept Database.WellKept := by
  intro α operation now
  cases hwrites : operation.writesSections with
  | false =>
    refine Safe.of_asks ((operation.asks_of_not_writesSections hwrites now).mono ?_)
    intro β q hq db hdb
    obtain ⟨hprojects, hsections, -⟩ := (db.change_perform q).of_not_writesSections hq
    exact hdb.of_eq hprojects hsections
  | true =>
    cases operation with
    | createProject name parent sections => exact Store.safe_createProject name parent sections
    | applyAccess name account update =>
      have hswap (db : Database) (stored : Project) (owned : NameSet)
          (isKnown : GroupUuid → Bool) (hdb : db.WellKept)
          (hfound : (db.project? name).isSome = true)
          (hstored : validateSections stored.sections = .ok ())
          (hvalid : validateSections update.sections = .ok ()) :
          (db.swap (Store.commitSwap name account update now stored (mergeSections
            owned.coversSection isKnown stored.sections update.sections))).WellKept :=
        hdb.swap _ rfl rfl (valid_mergeSections hstored hvalid) hfound
      exact Store.safe_applyAccess (fun _ => True) (fun _ => True) (fun _ h => h)
        (fun _ _ _ _ => trivial) (fun _ _ => trivial)
        fun db stored owned isKnown hdb hfound hstored _ _ hvalid =>
          hswap db stored owned isKnown hdb hfound hstored hvalid
    | _ => cases hwrites

theorem Reachable.wellKept {db : Database} (h : Reachable db) : db.WellKept :=
  h.keeps Database.wellKept_empty kept_wellKept

end AccessLedger
