import AccessLedger.Proofs.Audit.Reading
import AccessLedger.Proofs.Audit.Traffic

/-!
# What the log fails by

Behind its gate the audit log is an `Unfailing` program: all that can fail are
the questions that it asks, and a database fails to answer them for one reason
only, which is that something stored cannot be read (`FailsByStore`).
-/

namespace AccessLedger

/-! ## Programs that do not fail by themselves -/

namespace Program

variable {Q : Type → Type} {ε α β : Type}

/-- All failures of a program are those of its questions. -/
def Unfailing : Program Q ε α → Prop
  | done _ => True
  | fail _ => False
  | ask _ next => ∀ b, (next b).Unfailing

theorem unfailing_query (q : Q α) : (query q : Program Q ε α).Unfailing := fun _ => trivial

theorem unfailing_bind {p : Program Q ε α} {f : α → Program Q ε β} (hp : p.Unfailing)
    (hf : ∀ a, (f a).Unfailing) : (p >>= f).Unfailing := by
  rw [bind_eq_andThen]
  induction p with
  | done a => exact hf a
  | fail e => exact hp.elim
  | ask q next ih => exact fun b => ih b (hp b)

/-- Such a program fails only where a question is answered by a failure. -/
theorem Unfailing.exists_error {value : {β : Type} → Q β → Except ε β} {p : Program Q ε α}
    (hp : p.Unfailing) {e : ε} (he : p.eval value = .error e) :
    ∃ (β : Type) (q : Q β), value q = .error e := by
  induction p with
  | done a => cases he
  | fail e => exact hp.elim
  | ask q next ih =>
    simp only [eval] at he
    cases hq : value q with
    | error e' =>
      rw [hq] at he
      cases he
      exact ⟨_, q, hq⟩
    | ok b =>
      rw [hq] at he
      exact ih b (hp b) he

end Program

theorem unfailing_ownerName (memo : GroupMemo) (g : InternalGroup) :
    (ownerName memo g).Unfailing := by
  unfold ownerName
  split
  · trivial
  · split
    · trivial
    · exact Program.unfailing_bind (Program.unfailing_query _) fun _ => trivial

theorem unfailing_describeGroup (memo : GroupMemo) (uuid : GroupUuid) :
    (describeGroup memo uuid).Unfailing := by
  refine Program.unfailing_bind (Program.unfailing_query _) fun found => ?_
  cases found with
  | some g => exact Program.unfailing_bind (unfailing_ownerName memo g) fun _ => trivial
  | none =>
    refine Program.unfailing_bind (Program.unfailing_query _) fun d => ?_
    cases d <;> trivial

theorem unfailing_describeOnce (memo : GroupMemo) (uuid : GroupUuid) :
    (describeOnce memo uuid).Unfailing := by
  unfold describeOnce
  split
  · trivial
  · exact Program.unfailing_bind (unfailing_describeGroup memo uuid) fun _ => trivial

theorem unfailing_allSubgroupEvents (l : IdentityLoader) (memo : GroupMemo)
    (rs : List SubgroupAuditRecord) : (allSubgroupEvents l memo rs).Unfailing := by
  induction rs generalizing l memo with
  | nil => trivial
  | cons r rs ih =>
    refine Program.unfailing_bind (unfailing_describeOnce memo _) fun described => ?_
    exact Program.unfailing_bind (ih _ _) fun _ => trivial

theorem unfailing_fill (l : IdentityLoader) : (IdentityLoader.fill.keep l).Unfailing := by
  rw [IdentityLoader.keep_fill]
  split
  · trivial
  · exact fun _ => trivial

/-- What the audit log does once the caller has been let in. -/
def logOfGroup (internal : InternalGroup) : BackendProgram (List AuditEvent) := do
  let members ← Program.query (Backend.membersAudit internal.uuid)
  let subgroups ← Program.query (Backend.subgroupsAudit internal.uuid)
  logOfRecords members subgroups

theorem unfailing_logOfGroup (internal : InternalGroup) : (logOfGroup internal).Unfailing := by
  refine Program.unfailing_bind (Program.unfailing_query _) fun members => ?_
  refine Program.unfailing_bind (Program.unfailing_query _) fun subgroups => ?_
  refine Program.unfailing_bind (unfailing_allSubgroupEvents _ _ _) fun made => ?_
  exact Program.unfailing_bind (unfailing_fill _) fun _ => trivial

/-! ## What the store fails by -/

/-- A failure is one of the store. -/
def FailsByStore {α : Type} (r : Except Failure α) : Prop :=
  ∀ e, r = .error e → ∃ fault, e = .store fault

namespace FailsByStore

variable {α β : Type}

theorem ok (a : α) : FailsByStore (.ok a) := nofun

theorem error (fault : StoreFault) : FailsByStore (.error (.store fault) : Except Failure α) := by
  intro e he
  cases he
  exact ⟨fault, rfl⟩

theorem bind {r : Except Failure α} {f : α → Except Failure β} (hr : FailsByStore r)
    (hf : ∀ a, FailsByStore (f a)) : FailsByStore (r >>= f) := by
  cases r with
  | ok a => exact hf a
  | error e =>
    obtain ⟨fault, rfl⟩ := hr e rfl
    exact error fault

theorem mapM {f : α → Except Failure β} (hf : ∀ a, FailsByStore (f a)) (l : List α) :
    FailsByStore (l.mapM f) := by
  induction l with
  | nil => exact ok _
  | cons a l ih =>
    rw [List.mapM_cons]
    exact (hf a).bind fun b => ih.bind fun bs => ok _

theorem decodeTimestamp (s : String) : FailsByStore (decodeTimestamp s) := by
  unfold AccessLedger.decodeTimestamp
  split
  · exact ok _
  · exact error _

theorem decodeRemoval (removedBy : Option AccountId) (removedOn : Option String) :
    FailsByStore (decodeRemoval removedBy removedOn) := by
  unfold AccessLedger.decodeRemoval
  split
  · next on => exact (decodeTimestamp on).bind fun _ => ok _
  · exact ok _

theorem decodeGroup (g : StoredGroup) : FailsByStore g.decode :=
  (decodeTimestamp _).bind fun _ => ok _

theorem decodeMemberAudit (r : StoredMemberAudit) : FailsByStore r.decode :=
  (decodeTimestamp _).bind fun _ => (decodeRemoval _ _).bind fun _ => ok _

theorem decodeIncludeAudit (r : StoredIncludeAudit) : FailsByStore r.decode :=
  (decodeTimestamp _).bind fun _ => (decodeRemoval _ _).bind fun _ => ok _

/-- A statement that reads fails by the store, if it fails. -/
theorem perform {q : Statement α} (h : q.isRead = true) (db : Database) :
    FailsByStore (db.perform q).1 := by
  have hanswer {β : Type} (b : Option β) : FailsByStore (db.answer b).1 := by
    cases b with
    | none => exact error _
    | some b => exact ok b
  cases q with
  | group uuid =>
    simp only [Database.perform]
    split
    · exact ok _
    · exact hanswer _
  | memberAudits group => exact hanswer _
  | includeAudits group => exact hanswer _
  | accounts ids =>
    simp only [Database.perform]
    split
    · exact ok _
    · exact error _
  | description | isOwner | accountExists | knownGroups | project | ownedSections => exact ok _
  | _ => cases h

theorem run_bind {p : StoreProgram α} {f : α → StoreProgram β} {db : Database}
    (hp : FailsByStore (p.run db).1) (hf : ∀ a db', FailsByStore ((f a).run db').1) :
    FailsByStore (StoreProgram.run (p >>= f) db).1 := by
  match hrun : p.run db with
  | (.ok a, db') =>
    rw [run_bind_of_ok hrun]
    exact hf a db'
  | (.error e, db') =>
    rw [run_bind_of_error hrun]
    rw [hrun] at hp
    obtain ⟨fault, rfl⟩ := hp e rfl
    exact error fault

theorem run_query {q : Statement α} (h : q.isRead = true) (db : Database) :
    FailsByStore (StoreProgram.run (Program.query q) db).1 := by
  rw [StoreProgram.run, Program.run_query]
  exact perform h db

theorem run_ofExcept {r : Except Failure α} (h : FailsByStore r) (db : Database) :
    FailsByStore (StoreProgram.run (Program.ofExcept r) db).1 := by
  rw [StoreProgram.run, Program.run_ofExcept]
  exact h

end FailsByStore

/-- A question to a database fails by the store, if it fails. -/
theorem Database.failsByStore_reply (db : Database) {β : Type} (q : Backend β) :
    FailsByStore (db.reply q) := by
  cases q with
  | internalGroup uuid =>
    refine .run_bind (.run_query rfl db) fun found db' => ?_
    cases found with
    | none => exact .ok _
    | some g => exact .run_bind (.run_ofExcept (.decodeGroup g) db') fun _ _ => .ok _
  | groupDescription uuid => exact .ok _
  | isOwner uuid account => exact .ok _
  | membersAudit uuid =>
    exact .run_bind (.run_query rfl db) fun rows => .run_ofExcept (.mapM .decodeMemberAudit rows)
  | subgroupsAudit uuid =>
    exact .run_bind (.run_query rfl db) fun rows => .run_ofExcept (.mapM .decodeIncludeAudit rows)
  | accounts ids =>
    refine .run_bind ?_ fun _ _ => .ok _
    unfold Store.accounts
    split
    · exact .ok _
    · exact .run_query rfl db

/-- So does a computation that has no failures of its own. -/
theorem Program.Unfailing.failsByStore_ask {α : Type} {p : BackendProgram α} (hp : p.Unfailing)
    (db : Database) : FailsByStore ((Store.ask p).run db).1 := by
  intro e he
  rw [Store.run_ask] at he
  obtain ⟨β, q, hq⟩ := hp.exists_error he
  exact db.failsByStore_reply q e hq

end AccessLedger
