import AccessLedger.Proofs.Audit.Specification
import AccessLedger.Proofs.Transcript

/-!
# What the audit log asks of a backend

Whatever a backend answers, and however its answers change from one question to
the next, the audit log asks little of it.  At the gate there are two questions
at most (`Gate`).  Then come the audit records, every included group when it
occurs for the first time, and one question for all accounts.  A group that was
looked up is remembered, and so is the name of an owner (`Lookups`).
-/

namespace AccessLedger

/-- A question to a backend and what came back. -/
abbrev BackendExchange := Exchange Backend Failure

/-- The internal group that is looked up. -/
def Exchange.internal? (x : BackendExchange) : Option GroupUuid :=
  match x.β, x.question with
  | _, .internalGroup uuid => some uuid
  | _, _ => none

/-- The group whose description is looked up. -/
def Exchange.described? (x : BackendExchange) : Option GroupUuid :=
  match x.β, x.question with
  | _, .groupDescription uuid => some uuid
  | _, _ => none

/-- The accounts that are looked up. -/
def Exchange.accounts? (x : BackendExchange) : Option (List AccountId) :=
  match x.β, x.question with
  | _, .accounts ids => some ids
  | _, _ => none

/-- Whether a group is looked up. -/
def Exchange.isLookup (x : BackendExchange) : Bool := x.internal?.isSome || x.described?.isSome

theorem Exchange.accounts?_of_isLookup {x : BackendExchange} (h : x.isLookup = true) :
    x.accounts? = none := by
  obtain ⟨question, found⟩ := x
  cases question <;> first | rfl | cases h

/-! ## Included groups -/

/-- The identifiers under which something is remembered. -/
def keys {υ : Type} (known : List (GroupUuid × υ)) : List GroupUuid := known.map Prod.fst

theorem not_mem_keys {υ : Type} {known : List (GroupUuid × υ)} {uuid : GroupUuid}
    (h : known.lookup uuid = none) : uuid ∉ keys known := by
  intro hin
  obtain ⟨⟨u, x⟩, hx, rfl⟩ := List.mem_map.mp hin
  have hne := List.lookup_eq_none_iff.mp h _ hx
  simp at hne

theorem mem_keys {υ : Type} {known : List (GroupUuid × υ)} {uuid : GroupUuid} {x : υ}
    (h : known.lookup uuid = some x) : uuid ∈ keys known := by
  obtain ⟨before, after, rfl, -⟩ := List.lookup_eq_some_iff.mp h
  simp [keys]

/--
Groups are looked up while the names of the owners `known` are remembered.
Descriptions are looked up of groups that turn out not to be internal, and of
the groups `owners`, each once, which own an internal one.
-/
structure Lookups (known owners : List GroupUuid) (calls : List BackendExchange) : Prop where
  only : ∀ x ∈ calls, x.isLookup = true
  described : ∃ own : List GroupUuid,
    (calls.filterMap Exchange.described?).Perm (own ++ owners) ∧
      own.Sublist (calls.filterMap Exchange.internal?) ∧
      ∀ u ∈ own, ⟨.internalGroup u, .ok none⟩ ∈ calls
  nodup : owners.Nodup
  fresh : ∀ u ∈ owners, u ∉ known
  owned : ∀ u ∈ owners, ∃ w g, ⟨.internalGroup w, .ok (some g)⟩ ∈ calls ∧ g.owner = u

namespace Lookups

variable {known owners owners' : List GroupUuid} {calls calls' : List BackendExchange}

theorem nil (known : List GroupUuid) : Lookups known [] [] where
  only := by simp
  described := ⟨[], by simp⟩
  nodup := .nil
  fresh := by simp
  owned := by simp

/-- What is looked up later is not what was remembered, nor what has been since. -/
theorem append (h : Lookups known owners calls) (h' : Lookups (owners ++ known) owners' calls') :
    Lookups known (owners ++ owners') (calls ++ calls') where
  only x hx := (List.mem_append.mp hx).elim (h.only x) (h'.only x)
  described := by
    obtain ⟨own, hperm, hsub, hmissing⟩ := h.described
    obtain ⟨own', hperm', hsub', hmissing'⟩ := h'.described
    refine ⟨own ++ own', ?_, ?_, fun u hu => ?_⟩
    · rw [List.filterMap_append]
      refine (hperm.append hperm').trans (List.perm_iff_count.mpr fun u => ?_)
      simp only [List.count_append]
      omega
    · rw [List.filterMap_append]
      exact hsub.append hsub'
    · rcases List.mem_append.mp hu with hu | hu
      · exact List.mem_append_left _ (hmissing u hu)
      · exact List.mem_append_right _ (hmissing' u hu)
  nodup := by
    refine List.nodup_append.mpr ⟨h.nodup, h'.nodup, fun u hu v hv huv => ?_⟩
    exact h'.fresh v hv (List.mem_append_left _ (huv ▸ hu))
  fresh u hu := by
    rcases List.mem_append.mp hu with hu | hu
    · exact h.fresh u hu
    · exact fun hin => h'.fresh u hu (List.mem_append_right _ hin)
  owned u hu := by
    rcases List.mem_append.mp hu with hu | hu
    · obtain ⟨w, g, hin, howner⟩ := h.owned u hu
      exact ⟨w, g, List.mem_append_left _ hin, howner⟩
    · obtain ⟨w, g, hin, howner⟩ := h'.owned u hu
      exact ⟨w, g, List.mem_append_right _ hin, howner⟩

/-- A group is looked up, and that is all. -/
theorem internal (known : List GroupUuid) (uuid : GroupUuid)
    (found : Except Failure (Option InternalGroup)) :
    Lookups known [] [⟨.internalGroup uuid, found⟩] where
  only := by simp [Exchange.isLookup, Exchange.internal?]
  described := ⟨[], .refl [], List.nil_sublist _, by simp⟩
  nodup := .nil
  fresh := by simp
  owned := by simp

/-- A group is not internal, so its own description is looked up. -/
theorem own (known : List GroupUuid) (uuid : GroupUuid)
    (found : Except Failure (Option GroupDescription)) :
    Lookups known [] [⟨.internalGroup uuid, .ok none⟩, ⟨.groupDescription uuid, found⟩] where
  only := by simp [Exchange.isLookup, Exchange.internal?, Exchange.described?]
  described := ⟨[uuid], .refl [uuid], .refl [uuid], by simp⟩
  nodup := .nil
  fresh := by simp
  owned := by simp

/-- A group is internal, and the name of its owner is not remembered. -/
theorem owner {known : List GroupUuid} {g : InternalGroup} (hfresh : g.owner ∉ known)
    (uuid : GroupUuid) (found : Except Failure (Option GroupDescription)) :
    Lookups known [g.owner]
      [⟨.internalGroup uuid, .ok (some g)⟩, ⟨.groupDescription g.owner, found⟩] where
  only := by simp [Exchange.isLookup, Exchange.internal?, Exchange.described?]
  described := ⟨[], .refl [g.owner], List.nil_sublist _, by simp⟩
  nodup := List.pairwise_singleton _ _
  fresh := by simpa using hfresh
  owned u hu := ⟨uuid, g, by simp, (List.mem_singleton.mp hu).symm⟩

end Lookups

section

variable {memo memo' : GroupMemo} {calls : List BackendExchange}

theorem talks_ownerName {g : InternalGroup} {r : Except Failure (Option String × GroupMemo)}
    (h : (ownerName memo g).Talks calls r) :
    calls = [] ∧ (∃ name, r = .ok (name, memo)) ∨
      g.owner ∉ keys memo.ownerNames ∧ (∃ found, calls = [⟨.groupDescription g.owner, found⟩]) ∧
        ∀ name memo', r = .ok (name, memo') →
          memo'.groups = memo.groups ∧ keys memo'.ownerNames = g.owner :: keys memo.ownerNames := by
  unfold ownerName at h
  split at h
  · cases h
    exact .inl ⟨rfl, _, rfl⟩
  · split at h
    · cases h
      exact .inl ⟨rfl, _, rfl⟩
    · next hunknown =>
      refine .inr ⟨not_mem_keys hunknown, ?_⟩
      rcases h.query_bind_cases with ⟨e, rfl, rfl⟩ | ⟨d, after, rfl, hafter⟩
      · exact ⟨⟨_, rfl⟩, fun name memo' hr => by cases hr⟩
      · cases hafter
        refine ⟨⟨_, rfl⟩, fun name memo' hr => ?_⟩
        cases hr
        exact ⟨rfl, rfl⟩

theorem talks_describeGroup {uuid : GroupUuid} {r : Except Failure (GroupInfo × GroupMemo)}
    (h : (describeGroup memo uuid).Talks calls r) :
    calls.filterMap Exchange.internal? = [uuid] ∧
      ∃ owners, Lookups (keys memo.ownerNames) owners calls ∧
        ∀ info memo', r = .ok (info, memo') →
          memo'.groups = memo.groups ∧ keys memo'.ownerNames = owners ++ keys memo.ownerNames := by
  rcases h.query_bind_cases with ⟨e, rfl, rfl⟩ | ⟨found, after, rfl, hafter⟩
  · exact ⟨rfl, [], .internal _ _ _, fun info memo' hr => by cases hr⟩
  cases found with
  | none =>
    rcases hafter.query_bind_cases with ⟨e, rfl, rfl⟩ | ⟨d, rest, rfl, hrest⟩
    · exact ⟨rfl, [], .own _ _ _, fun info memo' hr => by cases hr⟩
    · cases d <;> cases hrest <;>
      · refine ⟨rfl, [], .own _ _ _, fun info memo' hr => ?_⟩
        cases hr
        exact ⟨rfl, rfl⟩
  | some g =>
    rcases hafter.bind_cases with ⟨e, hname, rfl⟩ | ⟨⟨name, named⟩, before, rest, rfl, hname, hrest⟩
    · rcases talks_ownerName hname with ⟨-, _, hok⟩ | ⟨hfresh, ⟨found, rfl⟩, -⟩
      · cases hok
      · exact ⟨rfl, [g.owner], .owner hfresh _ _, fun info memo' hr => by cases hr⟩
    · cases hrest
      rcases talks_ownerName hname with ⟨rfl, _, hok⟩ | ⟨hfresh, ⟨found, rfl⟩, hmemo⟩
      · cases hok
        refine ⟨rfl, [], .internal _ _ _, fun info memo' hr => ?_⟩
        cases hr
        exact ⟨rfl, rfl⟩
      · refine ⟨rfl, [g.owner], .owner hfresh _ _, fun info memo' hr => ?_⟩
        cases hr
        exact hmemo name named rfl

/-- A group is looked up unless it is remembered. -/
theorem talks_describeOnce {uuid : GroupUuid} {r : Except Failure (GroupInfo × GroupMemo)}
    (h : (describeOnce memo uuid).Talks calls r) :
    uuid ∈ keys memo.groups ∧ calls = [] ∧ (∃ info, r = .ok (info, memo)) ∨
      uuid ∉ keys memo.groups ∧ calls.filterMap Exchange.internal? = [uuid] ∧
        ∃ owners, Lookups (keys memo.ownerNames) owners calls ∧
          ∀ info memo', r = .ok (info, memo') → keys memo'.groups = uuid :: keys memo.groups ∧
            keys memo'.ownerNames = owners ++ keys memo.ownerNames := by
  unfold describeOnce at h
  cases hknown : memo.groups.lookup uuid with
  | some info =>
    simp only [hknown] at h
    cases h
    exact .inl ⟨mem_keys hknown, rfl, info, rfl⟩
  | none =>
    simp only [hknown] at h
    obtain ⟨value, hdescribe, hvalue⟩ := h.map_cases
    obtain ⟨hasked, owners, hlookups, hmemo⟩ := talks_describeGroup hdescribe
    refine .inr ⟨not_mem_keys hknown, hasked, owners, hlookups, fun info memo' hr => ?_⟩
    obtain ⟨described, rfl, hmade⟩ := hvalue _ hr
    cases hmade
    obtain ⟨hgroups, hnames⟩ := hmemo _ _ rfl
    exact ⟨congrArg (uuid :: keys ·) hgroups, hnames⟩

end

/-- The groups of a list that are not known, each once, in the order in which they occur first. -/
def unknownGroups (known included : List GroupUuid) : List GroupUuid :=
  (included.filter (· ∉ known)).eraseDups

theorem unknownGroups_cons_of_mem {known : List GroupUuid} {uuid : GroupUuid} (h : uuid ∈ known)
    (included : List GroupUuid) :
    unknownGroups known (uuid :: included) = unknownGroups known included := by
  rw [unknownGroups, List.filter_cons_of_neg (by simpa using h), unknownGroups]

theorem unknownGroups_cons_of_not_mem {known : List GroupUuid} {uuid : GroupUuid}
    (h : uuid ∉ known) (included : List GroupUuid) :
    unknownGroups known (uuid :: included) =
      uuid :: unknownGroups (uuid :: known) included := by
  rw [unknownGroups, List.filter_cons_of_pos (by simpa using h), List.eraseDups_cons,
    List.filter_filter, unknownGroups]
  congr 2
  refine List.filter_congr fun u _ => ?_
  by_cases hu : u = uuid <;> simp [hu]

open IdentityLoader in
theorem talks_allSubgroupEvents {l : IdentityLoader} {before : List AccountId}
    (hl : l.Collects before) {memo : GroupMemo} {rs : List SubgroupAuditRecord}
    {calls : List BackendExchange} {r : Except Failure (List PendingEvent × IdentityLoader)}
    (h : (allSubgroupEvents l memo rs).Talks calls r) :
    let asked := unknownGroups (keys memo.groups) (rs.map (·.key.included))
    (∃ owners, Lookups (keys memo.ownerNames) owners calls) ∧
      calls.filterMap Exchange.internal? <+: asked ∧
      ∀ made, r = .ok made → calls.filterMap Exchange.internal? = asked ∧
        made.2.Collects (before ++ rs.flatMap SubgroupAuditRecord.accounts) := by
  induction rs generalizing l before memo calls r with
  | nil =>
    cases h
    refine ⟨⟨[], .nil _⟩, List.prefix_refl _, fun made hmade => ?_⟩
    cases hmade
    exact ⟨rfl, (List.append_nil before).symm ▸ hl⟩
  | cons record rs ih =>
    rw [List.map_cons, List.flatMap_cons, ← List.append_assoc]
    rcases h.bind_cases with ⟨e, hdescribe, rfl⟩ | ⟨⟨info, memo'⟩, first, rest, rfl, hdescribe, hrest⟩
    -- the group of this record cannot be described, so it is the last one that is asked for
    · rcases talks_describeOnce hdescribe with ⟨-, -, _, hok⟩ | ⟨hnew, hasked, owners, hlookups, -⟩
      · cases hok
      · rw [unknownGroups_cons_of_not_mem hnew, hasked]
        exact ⟨⟨owners, hlookups⟩, by simp, fun made hmade => by cases hmade⟩
    · obtain ⟨value, hmore, hvalue⟩ : ∃ value,
          (allSubgroupEvents (l.subgroupEvents info record).2 memo' rs).Talks rest value ∧
            ∀ made, r = .ok made → ∃ made', value = .ok made' ∧
              made = ((l.subgroupEvents info record).1 ++ made'.1, made'.2) :=
        hrest.map_cases
      have hcollects := (hl.subgroupEvents info record).collects
      obtain ⟨⟨owners', hlookups'⟩, hprefix, hdone⟩ := ih hcollects hmore
      -- either this group is remembered, or it is the first one that is asked for
      rcases talks_describeOnce hdescribe with
        ⟨hknown, rfl, _, hok⟩ | ⟨hnew, hasked, owners, hlookups, hmemo⟩
      · cases hok
        rw [unknownGroups_cons_of_mem hknown]
        refine ⟨⟨owners', hlookups'⟩, hprefix, fun made hmade => ?_⟩
        obtain ⟨made', rfl, rfl⟩ := hvalue made hmade
        exact hdone made' rfl
      · obtain ⟨hgroups, hnames⟩ := hmemo _ _ rfl
        rw [hgroups] at hprefix hdone
        rw [hnames] at hlookups'
        rw [unknownGroups_cons_of_not_mem hnew, List.filterMap_append, hasked]
        refine ⟨⟨_, hlookups.append hlookups'⟩, List.cons_prefix_cons.mpr ⟨rfl, hprefix⟩,
          fun made hmade => ?_⟩
        obtain ⟨made', rfl, rfl⟩ := hvalue made hmade
        obtain ⟨hall, hcollects⟩ := hdone made' rfl
        exact ⟨congrArg (record.key.included :: ·) hall, hcollects⟩

/-! ## The gate -/

/-- What is asked of a backend before a caller is refused. -/
inductive Refused (group : GroupUuid) (caller : AccountId) : List BackendExchange → Prop
  | failed (e : Failure) : Refused group caller [⟨.internalGroup group, .error e⟩]
  | notInternal (found : Except Failure (Option GroupDescription)) :
      Refused group caller [⟨.internalGroup group, .ok none⟩, ⟨.groupDescription group, found⟩]
  | notOwner (internal : InternalGroup) (owns : Except Failure Bool) (h : owns ≠ .ok true) :
      Refused group caller
        [⟨.internalGroup group, .ok (some internal)⟩, ⟨.isOwner internal.uuid caller, owns⟩]

section

variable {group uuid : GroupUuid} {caller : AccountId} {calls : List BackendExchange}

theorem talks_requireInternal {r : Except Failure InternalGroup}
    (h : (requireInternal group).Talks calls r) (caller : AccountId) :
    match r with
    | .ok internal => calls = [⟨.internalGroup group, .ok (some internal)⟩]
    | .error _ => Refused group caller calls := by
  rcases h.query_bind_cases with ⟨e, rfl, rfl⟩ | ⟨found, after, rfl, hafter⟩
  · exact .failed e
  cases found with
  | some internal =>
    cases hafter
    rfl
  | none =>
    rcases hafter.query_bind_cases with ⟨e, rfl, rfl⟩ | ⟨d, rest, rfl, hrest⟩
    · exact .notInternal _
    · cases d <;> cases hrest <;> exact .notInternal _

theorem talks_requireOwnership {r : Except Failure Unit}
    (h : (requireOwnership uuid caller).Talks calls r) :
    match r with
    | .ok _ => calls = [⟨.isOwner uuid caller, .ok true⟩]
    | .error _ => ∃ owns, calls = [⟨.isOwner uuid caller, owns⟩] ∧ owns ≠ .ok true := by
  rcases h.query_bind_cases with ⟨e, rfl, rfl⟩ | ⟨owns, after, rfl, hafter⟩
  · exact ⟨_, rfl, by simp⟩
  · cases owns with
    | true =>
      cases hafter
      rfl
    | false =>
      cases hafter
      exact ⟨_, rfl, by simp⟩

/-- A batch is looked up by one question, or by none if it is empty. -/
theorem talks_fill {l : IdentityLoader} {r : Except Failure (Unit × IdentityLoader)}
    (h : (IdentityLoader.fill.keep l).Talks calls r) :
    l.ids = [] ∧ calls = [] ∨ l.ids ≠ [] ∧ ∃ found, calls = [⟨.accounts l.ids, found⟩] := by
  rw [IdentityLoader.keep_fill] at h
  split at h
  · next hempty =>
    cases h
    exact .inl ⟨hempty, rfl⟩
  · next hsome =>
    refine .inr ⟨hsome, ?_⟩
    cases h with
    | failed => exact ⟨_, rfl⟩
    | answered h =>
      cases h
      exact ⟨_, rfl⟩

end

/-! ## The whole log -/

/-- Each account of a record is looked up, and no others. -/
theorem mem_auditedIds {members : List MemberAuditRecord} {subgroups : List SubgroupAuditRecord}
    {id : AccountId} : id ∈ auditedIds members subgroups ↔
      (∃ r ∈ members, id ∈ r.accounts) ∨ ∃ r ∈ subgroups, id ∈ r.accounts := by
  rw [auditedIds, List.mem_eraseDups, List.mem_append, List.mem_flatMap, List.mem_flatMap]

/-- There is an account to look up if there is a record. -/
theorem auditedIds_eq_nil_iff {members : List MemberAuditRecord}
    {subgroups : List SubgroupAuditRecord} :
    auditedIds members subgroups = [] ↔ members = [] ∧ subgroups = [] := by
  constructor
  · intro h
    have hnone (id : AccountId) : id ∉ auditedIds members subgroups := by
      rw [h]
      exact List.not_mem_nil
    refine ⟨List.eq_nil_iff_forall_not_mem.mpr fun r hr => hnone r.account ?_,
      List.eq_nil_iff_forall_not_mem.mpr fun r hr => hnone r.addedBy ?_⟩
    · exact mem_auditedIds.mpr (.inl ⟨r, hr, List.mem_cons_self⟩)
    · exact mem_auditedIds.mpr (.inr ⟨r, hr, List.mem_cons_self⟩)
  · rintro ⟨rfl, rfl⟩
    rfl

/--
What is asked once the audit records have been read: first the included groups,
in the order in which they occur first, and then all accounts at once.
-/
structure Finish (members : List MemberAuditRecord) (subgroups : List SubgroupAuditRecord)
    (lookups batch : List BackendExchange) : Prop where
  nodup : (auditedIds members subgroups).Nodup
  occurs : ∀ id, id ∈ auditedIds members subgroups ↔
    (∃ r ∈ members, id ∈ r.accounts) ∨ ∃ r ∈ subgroups, id ∈ r.accounts
  described : ∃ owners, Lookups [] owners lookups
  inOrder : lookups.filterMap Exchange.internal? <+: (subgroups.map (·.key.included)).eraseDups
  batch : batch = [] ∨ ¬(members = [] ∧ subgroups = []) ∧
    ∃ found, batch = [⟨.accounts (auditedIds members subgroups), found⟩]

/-- Everything is asked that there is to ask. -/
structure Finish.Complete (members : List MemberAuditRecord) (subgroups : List SubgroupAuditRecord)
    (lookups batch : List BackendExchange) : Prop where
  lookups : lookups.filterMap Exchange.internal? = (subgroups.map (·.key.included)).eraseDups
  batch : batch = [] → members = [] ∧ subgroups = []

/-- What is asked once a caller has been let in, if it comes to this outcome. -/
inductive Reading (uuid : GroupUuid) (outcome : Except Failure (List AuditEvent)) :
    List BackendExchange → Prop
  | noMembers (e : Failure) : Reading uuid outcome [⟨.membersAudit uuid, .error e⟩]
  | noSubgroups (members : List MemberAuditRecord) (e : Failure) :
      Reading uuid outcome [⟨.membersAudit uuid, .ok members⟩, ⟨.subgroupsAudit uuid, .error e⟩]
  | read (members : List MemberAuditRecord) (subgroups : List SubgroupAuditRecord)
      {lookups batch : List BackendExchange} (finish : Finish members subgroups lookups batch)
      (complete : ∀ events, outcome = .ok events →
        Finish.Complete members subgroups lookups batch) :
      Reading uuid outcome (⟨.membersAudit uuid, .ok members⟩ ::
        ⟨.subgroupsAudit uuid, .ok subgroups⟩ :: (lookups ++ batch))

/-- What the audit log does with the records of a group. -/
def logOfRecords (members : List MemberAuditRecord) (subgroups : List SubgroupAuditRecord) :
    BackendProgram (List AuditEvent) := do
  let (memberEvents, loader) := IdentityLoader.empty.allMemberEvents members
  let (subgroupEvents, loader) ← allSubgroupEvents loader .empty subgroups
  let (_, loader) ← IdentityLoader.fill.keep loader
  let events := (memberEvents ++ subgroupEvents).map (PendingEvent.resolve loader)
  return events.mergeSort AuditEvent.isNotOlder

theorem auditLog_eq (group : GroupUuid) (caller : AccountId) :
    auditLog group caller = (do
      let internal ← requireInternal group
      requireOwnership internal.uuid caller
      let members ← Program.query (Backend.membersAudit internal.uuid)
      let subgroups ← Program.query (Backend.subgroupsAudit internal.uuid)
      logOfRecords members subgroups) := rfl

section

variable {members : List MemberAuditRecord} {subgroups : List SubgroupAuditRecord}
  {calls : List BackendExchange} {r : Except Failure (List AuditEvent)}

theorem talks_logOfRecords (h : (logOfRecords members subgroups).Talks calls r) :
    ∃ lookups batch, calls = lookups ++ batch ∧ Finish members subgroups lookups batch ∧
      ∀ events, r = .ok events → Finish.Complete members subgroups lookups batch := by
  have hmembers := (IdentityLoader.collects_empty.allMemberEvents members).collects
  have hunknown : unknownGroups (keys GroupMemo.empty.groups) (subgroups.map (·.key.included)) =
      (subgroups.map (·.key.included)).eraseDups := by
    rw [unknownGroups, List.filter_eq_self.mpr fun u _ => by simp [keys, GroupMemo.empty]]
  have hfinish {lookups batch : List BackendExchange} :=
    @Finish.mk members subgroups lookups batch (nodup_eraseDups _) fun _ => mem_auditedIds
  rcases h.bind_cases with ⟨e, hlookups, rfl⟩ | ⟨made, lookups, rest, rfl, hlookups, hrest⟩
  · obtain ⟨hdescribed, hprefix, -⟩ := talks_allSubgroupEvents hmembers hlookups
    rw [hunknown] at hprefix
    exact ⟨calls, [], (List.append_nil calls).symm, hfinish hdescribed hprefix (.inl rfl),
      fun events hr => by cases hr⟩
  · obtain ⟨hdescribed, hprefix, hdone⟩ := talks_allSubgroupEvents hmembers hlookups
    obtain ⟨hall, hcollects⟩ := hdone made rfl
    rw [hunknown] at hprefix hall
    have hids : made.2.ids = auditedIds members subgroups := hcollects
    obtain ⟨value, hfill, -⟩ := hrest.map_cases
    have hbatch := talks_fill hfill
    rw [hids, Ne, auditedIds_eq_nil_iff] at hbatch
    refine ⟨lookups, rest, rfl, hfinish hdescribed hprefix (hbatch.imp And.right id),
      fun events _ => ⟨hall, ?_⟩⟩
    rintro rfl
    rcases hbatch with ⟨hempty, -⟩ | ⟨-, found, hfound⟩
    · exact hempty
    · cases hfound

/-- Groups are looked up without asking for accounts. -/
theorem Finish.length_accounts_le {lookups batch : List BackendExchange}
    (h : Finish members subgroups lookups batch) :
    ((lookups ++ batch).filterMap Exchange.accounts?).length ≤ 1 := by
  obtain ⟨owners, hlookups⟩ := h.described
  have hnone : lookups.filterMap Exchange.accounts? = [] :=
    List.filterMap_eq_nil_iff.mpr fun x hx => Exchange.accounts?_of_isLookup (hlookups.only x hx)
  rw [List.filterMap_append, hnone, List.nil_append]
  refine Nat.le_trans (List.length_filterMap_le _ _) ?_
  rcases h.batch with rfl | ⟨-, found, rfl⟩
  · exact Nat.zero_le 1
  · exact Nat.le_refl 1

/-- Whoever is refused has not caused more questions than the gate asks. -/
theorem talks_auditLog {group : GroupUuid} {caller : AccountId}
    (h : (auditLog group caller).Talks calls r) :
    Refused group caller calls ∨ ∃ internal rest,
      calls = ⟨.internalGroup group, .ok (some internal)⟩ ::
        ⟨.isOwner internal.uuid caller, .ok true⟩ :: rest ∧ Reading internal.uuid r rest := by
  rw [auditLog_eq] at h
  rcases h.bind_cases with ⟨e, hgate, rfl⟩ | ⟨internal, gate, after, rfl, hgate, hafter⟩
  · exact .inl (talks_requireInternal hgate caller)
  have hfirst : gate = [⟨.internalGroup group, .ok (some internal)⟩] :=
    talks_requireInternal hgate caller
  subst hfirst
  rcases hafter.bind_cases with ⟨e, howner, rfl⟩ | ⟨_, owner, rest, rfl, howner, hrest⟩
  · obtain ⟨owns, rfl, hnot⟩ := talks_requireOwnership howner
    exact .inl (.notOwner internal owns hnot)
  have hsecond : owner = [⟨.isOwner internal.uuid caller, .ok true⟩] :=
    talks_requireOwnership howner
  subst hsecond
  refine .inr ⟨internal, rest, rfl, ?_⟩
  rcases hrest.query_bind_cases with ⟨e, rfl, rfl⟩ | ⟨members, unread, rfl, hunread⟩
  · exact .noMembers e
  rcases hunread.query_bind_cases with ⟨e, rfl, rfl⟩ | ⟨subgroups, todo, rfl, htodo⟩
  · exact .noSubgroups members e
  obtain ⟨lookups, batch, rfl, hfinish, hcomplete⟩ := talks_logOfRecords htodo
  exact .read members subgroups hfinish hcomplete

theorem Refused.length_accounts_le {group : GroupUuid} {caller : AccountId}
    (h : Refused group caller calls) : (calls.filterMap Exchange.accounts?).length ≤ 1 := by
  cases h <;> exact Nat.zero_le 1

theorem Reading.length_accounts_le {uuid : GroupUuid} (h : Reading uuid r calls) :
    (calls.filterMap Exchange.accounts?).length ≤ 1 := by
  cases h with
  | noMembers e => exact Nat.zero_le 1
  | noSubgroups members e => exact Nat.zero_le 1
  | read members subgroups finish complete => exact finish.length_accounts_le

end

/--
Someone answers the audit log, in whatever way, and may fail at any question.
Callers who do not own an internal group of this identifier are refused before
anything else is asked.  For the others the records are read, each included
group is looked up once, in the order in which they occur first, and all
accounts at once, if there are any.  A description is asked for at most once
because the group itself is not internal, and at most once because the group
owns an internal one.  After a failure nothing is asked, and it is the outcome.
-/
theorem audit_log_traffic_is_bounded {σ : Type}
    (answer : {β : Type} → Backend β → σ → Except Failure β × σ) (group : GroupUuid)
    (caller : AccountId) (s : σ) :
    let calls := (auditLog group caller).transcript answer s
    let outcome := ((auditLog group caller).run answer s).1
    (Refused group caller calls ∨ ∃ internal rest,
      calls = ⟨.internalGroup group, .ok (some internal)⟩ ::
        ⟨.isOwner internal.uuid caller, .ok true⟩ :: rest ∧ Reading internal.uuid outcome rest) ∧
    (calls.filterMap Exchange.accounts?).length ≤ 1 ∧
    ∀ before x after e, calls = before ++ x :: after → x.answer = .error e →
      after = [] ∧ outcome = .error e := by
  intro calls outcome
  have htalks : (auditLog group caller).Talks calls outcome :=
    Program.talks_transcript answer (auditLog group caller) s
  have hcases := talks_auditLog htalks
  refine ⟨hcases, ?_, fun before x after e hcalls hx => htalks.failure hcalls hx⟩
  rcases hcases with hrefused | ⟨internal, rest, hcalls, hreading⟩
  · exact hrefused.length_accounts_le
  · rw [hcalls]
    exact hreading.length_accounts_le

/-- The small backend, which breaks down after so many questions have been answered. -/
def failingBackend {β : Type} (q : Backend β) : Nat → Except Failure β × Nat
  | 0 => (.error (.store .database), 0)
  | n + 1 => (.ok (smallBackend q), n)

/--
Seven questions are answered, so the eighth is the last one: the group `h` has
been asked for as the owner of `i`, and is asked for again since it is included.
-/
theorem broken_traffic_is_bounded :
    let calls := (auditLog ⟨"g"⟩ ⟨1⟩).transcript failingBackend 7
    calls.filterMap Exchange.internal? = [⟨"g"⟩, ⟨"i"⟩, ⟨"h"⟩] ∧
      calls.filterMap Exchange.described? = [⟨"h"⟩, ⟨"h"⟩] ∧
      (calls.filterMap Exchange.accounts?).length ≤ 1 ∧
      ((auditLog ⟨"g"⟩ ⟨1⟩).run failingBackend 7).1 = .error (.store .database) := by
  intro calls
  obtain ⟨-, haccounts, hfailure⟩ :=
    audit_log_traffic_is_bounded failingBackend ⟨"g"⟩ ⟨1⟩ 7
  have hlast : calls = calls.take 7 ++
      ⟨.groupDescription ⟨"h"⟩, .error (.store .database)⟩ :: [] := by
    rfl
  refine ⟨by decide +kernel, by decide +kernel, haccounts, ?_⟩
  exact (hfailure _ _ [] _ hlast rfl).2

/-- With all questions answered, the accounts stand in the order of the records. -/
example : ((auditLog ⟨"g"⟩ ⟨1⟩).transcript failingBackend 11).filterMap Exchange.accounts? =
    [[⟨2⟩, ⟨1⟩, ⟨3⟩]] := by
  decide +kernel

end AccessLedger
