import AccessLedger.Audit.Log

/-!
# Events and the batch of their accounts

The events of a record can be told directly, with a book in which the accounts
are looked up (`MemberAuditRecord.events`, `SubgroupAuditRecord.events`).  The
program makes events first that have slots in the place of accounts, while the
batch of accounts is still growing.  A slot keeps its place in it
(`IdentityLoader.Collects.stands`), so it is shown what the book says of its
account (`IdentityLoader.resolve_fillFrom`), and what the program makes of some
records comes to the events that are told directly (`IdentityLoader.Makes`).
-/

namespace AccessLedger

/-! ## Events told directly -/

/-- What a book shows of an account: an entry under another number does not count. -/
def AccountBook.shown (book : AccountBook) (id : AccountId) : AccountInfo :=
  ((book id).filter (·.id = id)).getD (AccountInfo.stub id)

/-- What a book has for an account: its entry, unless that is of another one; a stub without one. -/
def AccountBook.entry? (book : AccountBook) (id : AccountId) : Option AccountInfo :=
  match book id with
  | none => some (.stub id)
  | some info => if info.id = id then some info else none

/-- The events of a period: its begin and, once it is over, its end. -/
def AccountBook.periodEvents (book : AccountBook) (subject : AuditSubject)
    (begins ends : AuditEventKind) (addedBy : AccountId) (addedOn : Instant)
    (removal : Option Removal) : List AuditEvent :=
  ⟨begins, book.shown addedBy, subject, addedOn⟩ ::
    (removal.map fun r => ⟨ends, book.shown r.removedBy, subject, r.removedOn⟩).toList

/-- The events of a membership. -/
def MemberAuditRecord.events (book : AccountBook) (r : MemberAuditRecord) : List AuditEvent :=
  book.periodEvents (.account (book.shown r.account)) .addUser .removeUser r.addedBy r.addedOn
    r.removal

/-- The events of an inclusion, given what is shown of the included group. -/
def SubgroupAuditRecord.events (book : AccountBook) (info : GroupInfo) (r : SubgroupAuditRecord) :
    List AuditEvent :=
  book.periodEvents (.group info) .addGroup .removeGroup r.addedBy r.key.addedOn r.removal

/-- Who began a period and who ended it. -/
def periodAccounts (addedBy : AccountId) (removal : Option Removal) : List AccountId :=
  addedBy :: (removal.map Removal.removedBy).toList

/-- The accounts of a record. -/
def MemberAuditRecord.accounts (r : MemberAuditRecord) : List AccountId :=
  r.account :: periodAccounts r.addedBy r.removal

/-- The accounts of a record. -/
def SubgroupAuditRecord.accounts (r : SubgroupAuditRecord) : List AccountId :=
  periodAccounts r.addedBy r.removal

/-- The accounts of some records, each once, in the order in which they occur first. -/
def auditedIds (members : List MemberAuditRecord) (subgroups : List SubgroupAuditRecord) :
    List AccountId :=
  (members.flatMap MemberAuditRecord.accounts ++
    subgroups.flatMap SubgroupAuditRecord.accounts).eraseDups

/-- The events of some records, one record after the other. -/
def logEvents (members : List MemberAuditRecord) (subgroups : List SubgroupAuditRecord)
    (book : AccountBook) (shown : GroupUuid → GroupInfo) : List AuditEvent :=
  members.flatMap (·.events book) ++ subgroups.flatMap fun r => r.events book (shown r.key.included)

/-! ## Slots and batches -/

/-- The place of a slot in a batch is that of its account. -/
def Slot.Stands (l : IdentityLoader) (slot : Slot) : Prop := l.ids[slot.index]? = some slot.id

/-- A batch holds these accounts, each once, in the order in which they occur first. -/
def IdentityLoader.Collects (l : IdentityLoader) (accounts : List AccountId) : Prop :=
  l.ids = accounts.eraseDups

theorem nodup_eraseDups {α : Type} [BEq α] [LawfulBEq α] : ∀ l : List α, l.eraseDups.Nodup
  | [] => by simp
  | a :: l => by
    rw [List.eraseDups_cons, List.nodup_cons, List.mem_eraseDups, List.mem_filter]
    exact ⟨by simp, nodup_eraseDups _⟩
termination_by l => l.length
decreasing_by exact Nat.lt_succ_of_le (List.length_filter_le _ l)

theorem eraseDups_append_singleton (accounts : List AccountId) (id : AccountId) :
    (accounts ++ [id]).eraseDups =
      if id ∈ accounts.eraseDups then accounts.eraseDups else accounts.eraseDups ++ [id] := by
  rw [List.eraseDups_append]
  by_cases hid : id ∈ accounts <;> simp [List.removeAll, hid, List.eraseDups_cons]

theorem getElem?_of_idxOf? {ids : List AccountId} {id : AccountId} {i : Nat}
    (h : ids.idxOf? id = some i) : ids[i]? = some id := by
  obtain ⟨hlt, heq, -⟩ := List.findIdx?_eq_some_iff_getElem.mp h
  rw [List.getElem?_eq_getElem hlt, eq_of_beq heq]

namespace IdentityLoader

variable {l : IdentityLoader} {accounts : List AccountId}

/-- An account that is there has its slot in the index; another one is added in the next place. -/
theorem register_cases (l : IdentityLoader) (id : AccountId) :
    (∃ i, l.ids[i]? = some id ∧ l.register id = (⟨i, id⟩, l)) ∨
      ∃ hnew : l.index.lookup id = none,
        id ∉ l.ids ∧ l.register id = (⟨l.ids.length, id⟩, l.append id hnew) := by
  unfold register
  split
  · next slot hfound =>
    obtain ⟨i, hi, rfl⟩ := Option.map_eq_some_iff.mp ((l.indexes id).symm.trans hfound)
    exact .inl ⟨i, getElem?_of_idxOf? hi, rfl⟩
  · next hnew =>
    have hnone := Option.map_eq_none_iff.mp ((l.indexes id).symm.trans hnew)
    exact .inr ⟨hnew, List.idxOf?_eq_none_iff.mp hnone, rfl⟩

@[simp]
theorem id_register (l : IdentityLoader) (id : AccountId) : (l.register id).1.id = id := by
  rcases l.register_cases id with ⟨i, -, h⟩ | ⟨_, -, h⟩ <;> rw [h]

/-- Registering changes neither what has been found nor whether anything has been looked up. -/
@[simp]
theorem resolved_register (l : IdentityLoader) (id : AccountId) :
    (l.register id).2.resolved = l.resolved := by
  rcases l.register_cases id with ⟨i, -, h⟩ | ⟨_, -, h⟩ <;> simp [h, append]

@[simp]
theorem filled_register (l : IdentityLoader) (id : AccountId) :
    (l.register id).2.filled = l.filled := by
  rcases l.register_cases id with ⟨i, -, h⟩ | ⟨_, -, h⟩ <;> simp [h, append]

theorem collects_empty : empty.Collects [] := rfl

/-- A registered account has its place in the batch. -/
theorem stands_register (l : IdentityLoader) (id : AccountId) :
    (l.register id).1.Stands (l.register id).2 := by
  rcases l.register_cases id with ⟨i, hi, h⟩ | ⟨_, -, h⟩ <;> rw [h]
  · exact hi
  · simp [Slot.Stands, append]

theorem Collects.register (h : l.Collects accounts) (id : AccountId) :
    (l.register id).2.Collects (accounts ++ [id]) := by
  rw [Collects] at h
  rw [Collects, eraseDups_append_singleton, ← h]
  rcases l.register_cases id with ⟨i, hi, heq⟩ | ⟨_, hnew, heq⟩ <;> rw [heq]
  · rw [if_pos (List.mem_of_getElem? hi)]
  · rw [if_neg hnew, append]

/-- A slot keeps its place while more accounts are registered. -/
theorem Collects.stands {l' : IdentityLoader} {more : List AccountId} (h : l.Collects accounts)
    (h' : l'.Collects (accounts ++ more)) {slot : Slot} (hslot : slot.Stands l) :
    slot.Stands l' := by
  rw [Slot.Stands] at hslot ⊢
  rw [h', List.eraseDups_append, ← h]
  exact List.getElem?_append_left (List.getElem?_eq_some_iff.mp hslot).1 ▸ hslot

/-- A batch that has been filled from a book has for a slot what the book has for its account. -/
theorem get_of_stands {book : AccountBook}
    (hfound : l.resolved = l.ids.map fun id => (book id).getD (.stub id)) {slot : Slot}
    (hslot : slot.Stands l) :
    l.get slot = book.entry? slot.id := by
  rw [Slot.Stands] at hslot
  rw [get, hfound, List.getElem?_map, hslot, Option.map_some, Option.filter_some,
    AccountBook.entry?]
  cases book slot.id <;> simp [AccountInfo.stub]

/-- What is shown of a slot is what the book shows of its account. -/
theorem resolve_fillFrom (book : AccountBook) {slot : Slot} (hslot : slot.Stands l) :
    (l.fillFrom book).resolve slot = book.shown slot.id := by
  have hget : (l.fillFrom book).get slot = book.entry? slot.id := get_of_stands rfl hslot
  rw [resolve, hget, AccountBook.entry?, AccountBook.shown]
  cases book slot.id with
  | none => rfl
  | some info => simp [Option.filter_some]

end IdentityLoader

/-! ## Events that wait for their accounts -/

/-- The accounts of a coming event have their places in a batch. -/
def PendingSubject.Stands (l : IdentityLoader) : PendingSubject → Prop
  | account slot => slot.Stands l
  | group _ => True

/-- What a coming event will be about. -/
def PendingSubject.shown (book : AccountBook) : PendingSubject → AuditSubject
  | account slot => .account (book.shown slot.id)
  | group info => .group info

/-- The accounts of a coming event have their places in a batch. -/
def PendingEvent.Stands (l : IdentityLoader) (e : PendingEvent) : Prop :=
  e.actor.Stands l ∧ e.subject.Stands l

/-- What a coming event will be. -/
def PendingEvent.shown (book : AccountBook) (e : PendingEvent) : AuditEvent :=
  ⟨e.kind, book.shown e.actor.id, e.subject.shown book, e.date⟩

namespace IdentityLoader

/--
What is made of records that name `accounts`, after others that name `before`:
a batch of all of them, and events that have their places in it.
-/
structure Makes (before accounts : List AccountId) (events : AccountBook → List AuditEvent)
    (made : List PendingEvent × IdentityLoader) : Prop where
  collects : made.2.Collects (before ++ accounts)
  stands : ∀ e ∈ made.1, e.Stands made.2
  shown : ∀ book : AccountBook, made.1.map (PendingEvent.shown book) = events book

variable {l l' : IdentityLoader} {before accounts more : List AccountId}

theorem Collects.stands_subject (h : l.Collects before) (h' : l'.Collects (before ++ more))
    {subject : PendingSubject} (hsubject : subject.Stands l) : subject.Stands l' := by
  cases subject with
  | account slot => exact h.stands h' hsubject
  | group info => trivial

theorem Collects.stands_event (h : l.Collects before) (h' : l'.Collects (before ++ more))
    {e : PendingEvent} (he : e.Stands l) : e.Stands l' :=
  ⟨h.stands h' he.1, h.stands_subject h' he.2⟩

/-- The events of some records and then those of others. -/
theorem Makes.append {events events' : AccountBook → List AuditEvent}
    {made made' : List PendingEvent × IdentityLoader} (h : Makes before accounts events made)
    (h' : Makes (before ++ accounts) more events' made') :
    Makes before (accounts ++ more) (fun book => events book ++ events' book)
      (made.1 ++ made'.1, made'.2) where
  collects := List.append_assoc before accounts more ▸ h'.collects
  stands e he := by
    rcases List.mem_append.mp he with hold | hnew
    · exact h.collects.stands_event h'.collects (h.stands e hold)
    · exact h'.stands e hnew
  shown book := by rw [List.map_append, h.shown, h'.shown]

theorem Collects.periodEvents (h : l.Collects before) {subject : PendingSubject}
    (hsubject : subject.Stands l) (begins ends : AuditEventKind) (addedBy : AccountId)
    (addedOn : Instant) (removal : Option Removal) :
    Makes before (periodAccounts addedBy removal)
      (fun book => book.periodEvents (subject.shown book) begins ends addedBy addedOn removal)
      (l.periodEvents subject begins ends addedBy addedOn removal) := by
  have hadder := h.register addedBy
  have hstands := l.stands_register addedBy
  have hbegin := h.stands_subject hadder hsubject
  cases removal with
  | none =>
    refine ⟨hadder, fun e he => ?_, fun book => ?_⟩
    · cases List.mem_singleton.mp he
      exact ⟨hstands, hbegin⟩
    · simp [IdentityLoader.periodEvents, AccountBook.periodEvents, PendingEvent.shown]
  | some r =>
    have hremover := hadder.register r.removedBy
    refine ⟨List.append_assoc before [addedBy] [r.removedBy] ▸ hremover, fun e he => ?_,
      fun book => ?_⟩
    · rcases List.mem_cons.mp he with rfl | he
      · exact ⟨hadder.stands hremover hstands, hadder.stands_subject hremover hbegin⟩
      · cases List.mem_singleton.mp he
        exact ⟨stands_register _ _, hadder.stands_subject hremover hbegin⟩
    · simp [IdentityLoader.periodEvents, AccountBook.periodEvents, PendingEvent.shown]

theorem Collects.memberEvents (h : l.Collects before) (r : MemberAuditRecord) :
    Makes before r.accounts (fun book => r.events book) (l.memberEvents r) := by
  have hmember : Makes before [r.account] (fun _ => []) ([], (l.register r.account).2) :=
    ⟨h.register r.account, fun _ he => (nomatch he), fun _ => rfl⟩
  have hsubject : (PendingSubject.account (l.register r.account).1).Stands
      (l.register r.account).2 := l.stands_register r.account
  have hperiod := hmember.collects.periodEvents hsubject .addUser .removeUser r.addedBy r.addedOn
    r.removal
  simp only [PendingSubject.shown, id_register] at hperiod
  exact hmember.append hperiod

theorem Collects.allMemberEvents (h : l.Collects before) (rs : List MemberAuditRecord) :
    Makes before (rs.flatMap MemberAuditRecord.accounts) (fun book => rs.flatMap (·.events book))
      (l.allMemberEvents rs) := by
  induction rs generalizing l before with
  | nil => exact ⟨(List.append_nil before).symm ▸ h, fun _ he => (nomatch he), fun _ => rfl⟩
  | cons r rs ih =>
    have hr := h.memberEvents r
    exact hr.append (ih hr.collects)

theorem Collects.subgroupEvents (h : l.Collects before) (info : GroupInfo)
    (r : SubgroupAuditRecord) :
    Makes before r.accounts (fun book => r.events book info) (l.subgroupEvents info r) := by
  have hsubject : (PendingSubject.group info).Stands l := trivial
  exact h.periodEvents hsubject .addGroup .removeGroup r.addedBy r.key.addedOn r.removal

end IdentityLoader

end AccessLedger
