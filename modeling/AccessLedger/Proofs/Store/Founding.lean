import AccessLedger.Proofs.Audit.Completeness
import AccessLedger.Proofs.Store.References

/-!
# Founding a group

A group is added first, and then its creator as its first member.  The second
step can fail although the first has been done: if there is no account with
the number of the creator, a group without members stays
(`createGroup_cases`).  It is the only way in which a failed call leaves a
trace, and the name of the group is taken from then on
(`failed_founding_takes_name`).
-/

namespace AccessLedger

namespace Database

variable {db : Database} {group : GroupUuid} {id : UInt32} {name : String}

/-- A new group is found under its identifier. -/
theorem group?_withGroup_self (fresh : db.IsFresh group id name) (description : Option String)
    (owner : GroupUuid) (createdOn : Instant) :
    (db.withGroup group id name description owner createdOn).group? group = some
      ⟨some group, .integer id.toNat, name, description, owner, .integer 0, createdOn.column⟩ := by
  have hnone : db.groups.find? (·.uuid = some group) = none := by
    simp only [List.find?_eq_none, decide_eq_true_eq]
    exact fun r hr => (fresh r hr).1
  simp [group?, withGroup, hnone]

theorem hasGroup_eq_false (fresh : db.IsFresh group id name) : db.hasGroup group = false := by
  refine Bool.eq_false_iff.mpr fun hthere => ?_
  obtain ⟨r, hr, huuid⟩ := hasGroup_iff.mp hthere
  exact (fresh r hr).1 huuid

/-- A group that is new has no members, and has never had any. -/
theorem beginMembership_withGroup (h : db.Linked) (fresh : db.IsFresh group id name)
    (description : Option String) (owner : GroupUuid) (createdOn now : Instant)
    (member addedBy : AccountId) :
    let founded := db.withGroup group id name description owner createdOn
    founded.beginMembership group member addedBy now =
      (.ok true, founded.join group member addedBy now) := by
  intro founded
  have hnew := hasGroup_eq_false fresh
  have habsent : founded.isMember group member = false := by
    refine Bool.eq_false_iff.mpr fun hmember => ?_
    have hgroup := (h.members _ (of_decide_eq_true hmember)).1
    exact Bool.false_ne_true (hnew.symm.trans hgroup)
  have hnever : founded.memberAudits.any (fun r =>
      r.group = group && r.account = member.scalar && r.addedOn = now.column) = false := by
    refine List.any_eq_false.mpr fun r hr hrow => ?_
    have hgroup := h.memberAudits r hr
    simp only [Bool.and_eq_true, decide_eq_true_eq] at hrow
    rw [hrow.1.1, hnew] at hgroup
    cases hgroup
  simp only [beginMembership, habsent, hnever]
  rfl

/-- A name that a group has is refused. -/
theorem insertGroup_of_taken (h : ∃ g ∈ db.groups, g.name = name) (uuid : GroupUuid)
    (description : Option String) (owner : GroupUuid) (now : Instant) :
    db.insertGroup uuid name description owner now = db.refuse := by
  rcases db.insertGroup_cases uuid name description owner now with hcase | ⟨_, fresh, -⟩
  · exact hcase
  · obtain ⟨g, hg, hname⟩ := h
    exact absurd hname (fresh g hg).2.2

end Database

namespace Store

variable {db : Database} {group : GroupUuid} {name : String} {description : Option String}
  {owner : Option GroupUuid} {creator : AccountId} {createdOn addedOn : Instant}

theorem run_createGroup_of_refused
    (h : db.insertGroup group name description (owner.getD group) createdOn = db.refuse) :
    (createGroup group name description owner creator createdOn addedOn).run db =
      (.error (.store .database), db) := by
  rw [createGroup, run_query_bind, Database.perform, h]
  rfl

/--
In a reachable database, a new group is refused, or it is added with its
creator, or its creator has no account and it is added all the same.
-/
theorem createGroup_cases (h : Reachable db) (hcreated : createdOn.InFourDigits) :
    let outcome := (createGroup group name description owner creator createdOn addedOn).run db
    outcome = (.error (.store .database), db) ∨
    ∃ id, db.IsFresh group id name ∧
      let founded := db.withGroup group id name description (owner.getD group) createdOn
      (db.hasAccount creator = true ∧ outcome =
        (.ok ⟨group, id, name, description, owner.getD group, false, createdOn⟩,
          founded.join group creator creator addedOn) ∨
      db.hasAccount creator = false ∧ outcome = (.error (.accountNotFound creator), founded)) := by
  intro outcome
  rcases db.insertGroup_cases group name description (owner.getD group) createdOn with
    hcase | ⟨id, fresh, hcase⟩
  · exact .inl (run_createGroup_of_refused hcase)
  · refine .inr ⟨id, fresh, ?_⟩
    intro founded
    obtain ⟨g, hinternal, -⟩ := Database.eval_requireInternal
      (Database.group?_withGroup_self fresh description (owner.getD group) createdOn)
      ⟨⟨id, rfl⟩, ⟨0, rfl⟩, ⟨createdOn, hcreated, rfl⟩⟩
    have hrequire : (ask (requireInternal group)).run founded = (.ok g, founded) := by
      rw [run_ask, hinternal]
    have houtcome : outcome = StoreProgram.run (addMember group creator creator addedOn >>= fun _ =>
        pure ⟨group, id, name, description, owner.getD group, false, createdOn⟩) founded := by
      simp only [outcome, createGroup]
      rw [run_query_bind, Database.perform, hcase]
    rw [houtcome]
    cases haccount : db.hasAccount creator with
    | true =>
      have hbegin := Database.beginMembership_withGroup h.linked fresh description
        (owner.getD group) createdOn addedOn creator creator
      exact .inl ⟨rfl, run_bind_of_ok (run_addMember_of_found hrequire haccount hbegin) _⟩
    | false =>
      have hmissing := run_addMember_of_missing hrequire haccount creator addedOn
      exact .inr ⟨rfl, run_bind_of_error hmissing _⟩

end Store

/-- What is there stays there, whatever calls are made. -/
theorem grows_callAll (db : Database) (calls : List Call) : db.Grows (callAll db calls) := by
  induction calls generalizing db with
  | nil => exact .refl db
  | cons c calls ih => exact (Database.grows_after c.operation c.now db).trans (ih _)

/--
If a group cannot be founded, nothing has changed, or there is no account of
its creator and all that has changed is that the group is there, without a
member.  Then no group can be founded under its name again, whoever asks for it
and whatever has been done in between.
-/
theorem failed_founding_takes_name {db db' : Database} (h : Reachable db) {group : GroupUuid}
    {name : String} {description : Option String} {owner : Option GroupUuid} {creator : AccountId}
    {createdOn addedOn : Instant} {e : Failure} (hcreated : createdOn.InFourDigits)
    (hfail : (Store.createGroup group name description owner creator createdOn addedOn).run db =
      (.error e, db')) :
    db' = db ∨ e = .accountNotFound creator ∧ db.hasAccount creator = false ∧
      (∃ id, db.IsFresh group id name ∧
        db' = db.withGroup group id name description (owner.getD group) createdOn) ∧
      ∀ (calls : List Call) (again : GroupUuid) (description : Option String)
        (owner : Option GroupUuid) (creator : AccountId) (later laterStill : Instant),
        (Store.createGroup again name description owner creator later laterStill).run
          (callAll db' calls) = (.error (.store .database), callAll db' calls) := by
  rcases Store.createGroup_cases h hcreated with hcase | ⟨id, fresh, ⟨-, hcase⟩ | ⟨hmissing, hcase⟩⟩ <;>
    rw [hcase] at hfail <;> cases hfail
  · exact .inl rfl
  · refine .inr ⟨rfl, hmissing, ⟨id, fresh, rfl⟩, ?_⟩
    intro calls again description' owner' creator' later laterStill
    have hadded : ⟨some group, .integer id.toNat, name, description, owner.getD group, .integer 0,
        createdOn.column⟩ ∈
          (db.withGroup group id name description (owner.getD group) createdOn).groups :=
      List.mem_append_right _ (List.mem_singleton_self _)
    have htaken := (grows_callAll _ calls).groups.subset hadded
    exact Store.run_createGroup_of_refused
      (Database.insertGroup_of_taken ⟨_, htaken, rfl⟩ again description' _ later)

/-- Account 1 is missing when the group is founded, and registers too late. -/
theorem missing_founder_takes_name :
    let db' := Database.empty.withGroup ⟨"g"⟩ 1 "devs" none ⟨"g"⟩ .start
    (Store.createGroup ⟨"g"⟩ "devs" none none ⟨1⟩ .start .start).run .empty =
        (.error (.accountNotFound ⟨1⟩), db') ∧
      let registered := callAll db' [⟨.createAccount none none none, .start⟩]
      (Store.createGroup ⟨"h"⟩ "devs" none none ⟨1⟩ .start .start).run registered =
        (.error (.store .database), registered) := by
  intro db'
  have hfail : (Store.createGroup ⟨"g"⟩ "devs" none none ⟨1⟩ .start .start).run .empty =
      (.error (.accountNotFound ⟨1⟩), db') := by
    rfl
  refine ⟨hfail, ?_⟩
  rcases failed_founding_takes_name .empty (by decide +kernel) hfail with
    hsame | ⟨-, -, -, htaken⟩
  · have hgroups := congrArg (fun db => db.groups.length) hsame
    cases hgroups
  · exact htaken [⟨.createAccount none none none, .start⟩] ⟨"h"⟩ none none ⟨1⟩ .start .start

/-- A group cannot be founded in the empty database, and is there afterwards. -/
theorem founding_is_not_all_or_nothing :
    ¬∀ (db db' : Database), Reachable db → ∀ (group : GroupUuid) (name : String)
      (description : Option String) (owner : Option GroupUuid) (creator : AccountId)
      (createdOn addedOn : Instant) (e : Failure),
      (Store.createGroup group name description owner creator createdOn addedOn).run db =
        (.error e, db') → db' = db := by
  intro hall
  have hsame := hall .empty (Database.empty.withGroup ⟨"g"⟩ 1 "devs" none ⟨"g"⟩ .start) .empty
    ⟨"g"⟩ "devs" none none ⟨1⟩ .start .start (.accountNotFound ⟨1⟩) rfl
  have hgroups := congrArg (fun db => db.groups.length) hsame
  cases hgroups

end AccessLedger
