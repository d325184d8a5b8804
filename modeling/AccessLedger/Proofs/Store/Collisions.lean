import AccessLedger.Proofs.Access.Validity
import AccessLedger.Proofs.Calendar.Relaxed
import AccessLedger.Proofs.Store.Outcome
import AccessLedger.Proofs.Store.Revision
import Mathlib.Data.Finite.Prod
import Mathlib.Data.Fintype.Pigeonhole

/-!
# Sections with one revision

A digest is made of the eight words of a state, and there are only finitely
many states, so of infinitely many messages two have one digest
(`Sha256.exists_digest_eq`).  Hence there are lists of sections that collide
(`Store.exists_collision`).  The store knows sections by their revision, so a
commit of the one list in the place of the other is answered and not written
(`Store.exists_skipped_commit`).
-/

namespace AccessLedger

namespace Sha256

instance finite_uint32 : Finite UInt32 :=
  Finite.of_injective UInt32.toFin fun _ _ => UInt32.toFin_inj.mp

/-- A state is its eight words. -/
instance finite_state : Finite State := by
  refine Finite.of_injective (fun s => (s.a, s.b, s.c, s.d, s.e, s.f, s.g, s.h)) ?_
  rintro ⟨a, b, c, d, e, f, g, h⟩ ⟨a', b', c', d', e', f', g', h'⟩ heq
  simpa only [Prod.mk.injEq, State.mk.injEq] using heq

/-- The state whose bytes are the digest of a message. -/
def lastState (message : List UInt8) : State :=
  let ws := words (pad message)
  absorb ws.length initial ws

/-- Of infinitely many messages two have one digest. -/
theorem exists_digest_eq (message : Nat → List UInt8) :
    ∃ m n, m ≠ n ∧ digest (message m) = digest (message n) := by
  obtain ⟨m, n, hne, hstate⟩ :=
    Finite.exists_ne_map_eq_of_infinite fun n => lastState (message n)
  exact ⟨m, n, hne, congrArg State.toBytes hstate⟩

end Sha256

/-- One section without permissions for each number. -/
def numberedSections (n : Nat) : List AccessSection :=
  [⟨String.ofList ("refs/".toList ++ Text.digits n), []⟩]

theorem numberedSections_inj {m n : Nat} (h : numberedSections m = numberedSections n) : m = n := by
  simp only [numberedSections, List.cons.injEq, AccessSection.mk.injEq, and_true] at h
  have hdigits := List.append_cancel_left (String.ofList_injective h)
  rw [← Text.ofDigits_digits m, hdigits, Text.ofDigits_digits]

theorem isProperName_numbered (n : Nat) :
    IsProperName (String.ofList ("refs/".toList ++ Text.digits n)) where
  known := .inr (by simp)
  start c hc := by
    rw [String.toList_ofList] at hc
    obtain rfl : 'r' = c := Option.some.inj hc
    decide
  stop c hc := by
    rw [String.toList_ofList, List.getLast?_append_of_ne_nil _ (Text.digits_ne_nil n)] at hc
    exact Timestamp.isBlank_of_isDigit (Text.isDigit_of_mem_digits (List.mem_of_getLast? hc))

theorem valid_numberedSections (n : Nat) : validateSections (numberedSections n) = .ok () := by
  refine validateSections_eq_ok.mpr ⟨fun s hs => ?_, List.nodup_singleton _⟩
  cases List.mem_singleton.mp hs
  exact sectionFault?_nil_eq_none.mpr (isProperName_numbered n)

namespace Store

/-- Two lists of one section each have one revision. -/
theorem exists_collision : ∃ m n, Collision (numberedSections m) (numberedSections n) := by
  obtain ⟨m, n, hne, hdigest⟩ :=
    Sha256.exists_digest_eq fun n => hashedBytes (numberedSections n)
  exact ⟨m, n, mt numberedSections_inj hne, revisionOf_inj.mpr hdigest⟩

end Store

/-! ## A commit that is skipped -/

/-- An account that is the only member of a group. -/
def loneFounder : Database :=
  (Operation.createGroup ⟨"g"⟩ "g" none none ⟨1⟩ .start).after .start <|
  (Operation.createAccount none none none).after .start .empty

/-- A project with these sections, all of which the founder of the group may change. -/
def founderProject (sections : List AccessSection) : Database :=
  (Operation.grantSection "p" allRefs ⟨"g"⟩).after .start <|
  (Operation.createProject "p" none sections).after .start loneFounder

theorem reachable_founderProject (sections : List AccessSection) :
    Reachable (founderProject sections) :=
  ((((Reachable.empty.step _ _).step _ _).step _ _).step _ _)

/-- There is nothing beside the group yet. -/
theorem tables_loneFounder : loneFounder.projects = [] ∧ loneFounder.sections = [] ∧
    loneFounder.grants = [] ∧ loneFounder.isMember ⟨"g"⟩ ⟨1⟩ = true := by
  decide +kernel

theorem project?_loneFounder (name : String) : loneFounder.project? name = none := by
  simp [Database.project?, tables_loneFounder.1]

theorem founderProject_eq {sections : List AccessSection}
    (hvalid : validateSections sections = .ok ()) :
    founderProject sections =
      { loneFounder.withProject "p" none (revisionOf sections)
          (sections.map AccessSection.toStored) with grants := [⟨"p", allRefs, ⟨"g"⟩⟩] } := by
  obtain ⟨hprojects, hsections, hgrants, -⟩ := tables_loneFounder
  have hrequire : requireValid sections = .ok () := by
    rw [requireValid, hvalid]
  have hcreate : (Operation.createProject "p" none sections).after .start loneFounder =
      loneFounder.withProject "p" none (revisionOf sections)
        (sections.map AccessSection.toStored) := by
    simp only [Operation.after, Operation.program, Store.createProject, hrequire]
    rw [run_bind_of_ok rfl, run_query_bind, Database.perform, Database.insertProject,
      Database.project?, hprojects, hsections]
    rfl
  rw [founderProject, hcreate]
  simp [Operation.after, Operation.program, Store.grantSection, StoreProgram.run,
    Database.perform, Database.insertGrant, Database.withProject, hgrants, hprojects,
    Database.project?]

section

variable {sections requested : List AccessSection}

theorem project?_founderProject (hvalid : validateSections sections = .ok ()) :
    (founderProject sections).project? "p" = some ⟨some "p", none, revisionOf sections⟩ := by
  have hfresh := project?_loneFounder "p"
  rw [founderProject_eq hvalid]
  generalize loneFounder = db at hfresh
  exact Database.project?_withProject hfresh none (revisionOf sections)
    (sections.map AccessSection.toStored) "p"

theorem holds_founderProject (hvalid : validateSections sections = .ok ()) :
    (founderProject sections).Holds "p" sections := by
  have hfresh := project?_loneFounder "p"
  have hkept : loneFounder.WellKept :=
    ((Reachable.empty.step _ _).step _ _ : Reachable loneFounder).wellKept
  rw [founderProject_eq hvalid]
  generalize loneFounder = db at hfresh hkept
  exact Database.holds_withProject_self hfresh hkept none (revisionOf sections) sections

theorem ownedSections_founderProject (hvalid : validateSections sections = .ok ()) :
    (founderProject sections).ownedSections "p" ⟨1⟩ = .ofList [allRefs] := by
  obtain ⟨-, -, -, hmember⟩ := tables_loneFounder
  rw [founderProject_eq hvalid]
  generalize loneFounder = db at hmember
  have hmember : (⟨⟨"g"⟩, AccountId.scalar ⟨1⟩⟩ : MemberRow) ∈ db.members :=
    of_decide_eq_true hmember
  simp [Database.ownedSections, Database.withProject, Database.isMember, hmember]

/-- The founder puts other sections in the place of all that were stored. -/
theorem mergedBy_founderProject (hvalid : validateSections sections = .ok ()) :
    Store.mergedBy (founderProject sections) "p" ⟨1⟩ sections requested =
      requested.map fun s =>
        s.retainRules fun r => Store.knownIn (founderProject sections) requested r.group.uuid := by
  have hall (n : String) : NameSet.coversSection (.ofList [allRefs]) n = true := by
    have hin : allRefs ∈ NameSet.ofList [allRefs] := NameSet.mem_ofList.mpr (.head _)
    simp [NameSet.coversSection, hin]
  rw [Store.mergedBy, ownedSections_founderProject hvalid, mergeSections_of_covers hall]

end

namespace Store

/--
The founder commits a section in the place of another one with the same
revision.  The new section is answered, and the old one stays.
-/
theorem exists_skipped_commit : ∃ m n answer, m ≠ n ∧
    validateSections (numberedSections m) = .ok () ∧
    answer.sections = numberedSections n ∧
    (applyAccess "p" ⟨1⟩ ⟨revisionOf (numberedSections m), none, numberedSections n⟩ .start).run
      (founderProject (numberedSections m)) = (.ok answer, founderProject (numberedSections m)) := by
  obtain ⟨m, n, hne, hrevision⟩ := exists_collision
  have hvalid := valid_numberedSections m
  have howned : ((founderProject (numberedSections m)).ownedSections "p" ⟨1⟩).isEmpty = false := by
    rw [ownedSections_founderProject hvalid]
    rfl
  have hmerged : mergedBy (founderProject (numberedSections m)) "p" ⟨1⟩ (numberedSections m)
      (numberedSections n) = numberedSections n := mergedBy_founderProject hvalid
  have hrun := @run_applyAccess _ "p" ⟨1⟩
    ⟨revisionOf (numberedSections m), none, numberedSections n⟩ .start _ _
    (holds_founderProject hvalid) (project?_founderProject hvalid) rfl (valid_numberedSections n)
    howned (reachable_founderProject _).contended_eq
  simp only [hmerged, if_pos hrevision.symm] at hrun
  exact ⟨m, n, _, fun h => hne (congrArg numberedSections h), hvalid, rfl, hrun⟩

end Store

end AccessLedger
