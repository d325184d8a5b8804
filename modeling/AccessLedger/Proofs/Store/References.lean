import AccessLedger.Proofs.Store.Effects

/-!
# Rows that refer to rows

Groups and accounts are numbered without repetition (`Database.Numbered`), and
a member, an included group or an audit row is one of a group that is there
(`Database.Linked`).  The operations check this before they write, and no
group or account is ever lost (`Database.Grows`), so it holds of every
reachable database (`Reachable.numbered`, `Reachable.linked`).
-/

namespace AccessLedger

namespace Database

/-- Groups and accounts are only added. -/
structure Grows (db db' : Database) : Prop where
  groups : db.groups <+: db'.groups
  accounts : db.accounts <+: db'.accounts

/-- No number is given twice. -/
structure Numbered (db : Database) : Prop where
  groupIds : (db.groups.map GroupRow.id).Nodup
  accountIds : (db.accounts.map AccountRow.id).Nodup

/-- Members and included groups, present and past, are those of groups that are there. -/
structure Linked (db : Database) : Prop where
  members : ∀ r ∈ db.members,
    db.hasGroup r.group = true ∧ ∃ a ∈ db.accounts, r.account = .integer a.id
  memberAudits : ∀ r ∈ db.memberAudits, db.hasGroup r.group = true
  includes : ∀ r ∈ db.includes, db.hasGroup r.group = true
  includeAudits : ∀ r ∈ db.includeAudits, db.hasGroup r.group = true

variable {db db' : Database}

/-! ## Groups and accounts that stay -/

theorem Grows.refl (db : Database) : db.Grows db := ⟨List.prefix_rfl, List.prefix_rfl⟩

theorem Grows.trans {db'' : Database} (h : db.Grows db') (h' : db'.Grows db'') : db.Grows db'' :=
  ⟨h.groups.trans h'.groups, h.accounts.trans h'.accounts⟩

theorem grows_of_change {β : Type} {q : Statement β} (h : Change db q db') : db.Grows db' := by
  cases h with
  | account => exact ⟨List.prefix_rfl, List.prefix_append _ _⟩
  | group => exact ⟨List.prefix_append _ _, List.prefix_rfl⟩
  | _ => exact ⟨List.prefix_rfl, List.prefix_rfl⟩

theorem kept_grows (db : Database) : Kept db.Grows :=
  Kept.of_perform fun q db' h => h.trans (grows_of_change (db'.change_perform q))

/-- Operations lose no group and no account. -/
theorem grows_after {α : Type} (operation : Operation α) (now : Instant) (db : Database) :
    db.Grows (operation.after now db) :=
  (kept_grows db).after operation now (.refl db)

theorem hasGroup_iff {uuid : GroupUuid} :
    db.hasGroup uuid = true ↔ ∃ r ∈ db.groups, r.uuid = some uuid := by
  simp [hasGroup, group?]

theorem Grows.hasGroup (h : db.Grows db') {uuid : GroupUuid} (hthere : db.hasGroup uuid = true) :
    db'.hasGroup uuid = true := by
  rw [hasGroup_iff] at hthere ⊢
  obtain ⟨r, hr, huuid⟩ := hthere
  exact ⟨r, h.groups.subset hr, huuid⟩

/-! ## Numbers -/

theorem numbered_empty : empty.Numbered := ⟨.nil, .nil⟩

/-- One more row with a key that no row has. -/
theorem nodup_map_concat {ρ κ : Type} {key : ρ → κ} {rows : List ρ} {row : ρ}
    (h : (rows.map key).Nodup) (hfresh : ∀ r ∈ rows, key r ≠ key row) :
    ((rows ++ [row]).map key).Nodup := by
  rw [List.map_append, List.nodup_append]
  refine ⟨h, by simp, fun a ha b hb => ?_⟩
  obtain ⟨r, hr, rfl⟩ := List.mem_map.mp ha
  simp only [List.map_cons, List.map_nil, List.mem_singleton] at hb
  subst hb
  exact hfresh r hr

theorem Numbered.change {β : Type} {q : Statement β} (h : db.Numbered) (hchange : Change db q db') :
    db'.Numbered := by
  cases hchange with
  | account _ _ _ _ id fresh => exact ⟨h.groupIds, nodup_map_concat h.accountIds fresh⟩
  | group _ _ _ _ _ id fresh =>
    exact ⟨nodup_map_concat h.groupIds fun r hr => (fresh r hr).2.1, h.accountIds⟩
  | _ => exact ⟨h.groupIds, h.accountIds⟩

theorem kept_numbered : Kept Numbered :=
  Kept.of_perform fun q db h => h.change (db.change_perform q)

/-! ## Members and included groups -/

namespace Linked

variable {group : GroupUuid} {now : Instant}

theorem empty : Database.empty.Linked := by
  constructor <;> intro r hr <;> cases hr

/-- Rows of members and included groups that stay refer to what stays. -/
theorem of_grows (h : db.Linked) (hgrows : db.Grows db') (hmembers : db'.members = db.members)
    (hmemberAudits : db'.memberAudits = db.memberAudits) (hincludes : db'.includes = db.includes)
    (hincludeAudits : db'.includeAudits = db.includeAudits) : db'.Linked where
  members r hr := by
    obtain ⟨hgroup, a, ha, haccount⟩ := h.members r (hmembers ▸ hr)
    exact ⟨hgrows.hasGroup hgroup, a, hgrows.accounts.subset ha, haccount⟩
  memberAudits r hr := hgrows.hasGroup (h.memberAudits r (hmemberAudits ▸ hr))
  includes r hr := hgrows.hasGroup (h.includes r (hincludes ▸ hr))
  includeAudits r hr := hgrows.hasGroup (h.includeAudits r (hincludeAudits ▸ hr))

theorem join (h : db.Linked) {member : AccountId} (addedBy : AccountId)
    (hgroup : db.hasGroup group = true) (haccount : db.hasAccount member = true) :
    (db.join group member addedBy now).Linked where
  members r hr := by
    rcases List.mem_append.mp hr with hold | hnew
    · exact h.members r hold
    · cases List.mem_singleton.mp hnew
      obtain ⟨a, ha, hid⟩ := List.any_eq_true.mp haccount
      refine ⟨hgroup, a, ha, ?_⟩
      rw [of_decide_eq_true hid]
      rfl
  memberAudits r hr := by
    rcases List.mem_append.mp hr with hold | hnew
    · exact h.memberAudits r hold
    · cases List.mem_singleton.mp hnew
      exact hgroup
  includes := h.includes
  includeAudits := h.includeAudits

theorem leave (h : db.Linked) (member removedBy : AccountId) :
    (db.leave group member removedBy now).Linked where
  members r hr := h.members r (List.mem_filter.mp hr).1
  memberAudits r hr := by
    obtain ⟨s, hs, rfl⟩ := List.mem_map.mp hr
    rw [group_close_member]
    exact h.memberAudits s hs
  includes := h.includes
  includeAudits := h.includeAudits

theorem attach (h : db.Linked) (included : GroupUuid) (addedBy : AccountId)
    (hgroup : db.hasGroup group = true) : (db.attach group included addedBy now).Linked where
  members := h.members
  memberAudits := h.memberAudits
  includes r hr := by
    rcases List.mem_append.mp hr with hold | hnew
    · exact h.includes r hold
    · cases List.mem_singleton.mp hnew
      exact hgroup
  includeAudits r hr := by
    rcases List.mem_append.mp hr with hold | hnew
    · exact h.includeAudits r hold
    · cases List.mem_singleton.mp hnew
      exact hgroup

theorem detach (h : db.Linked) (included : GroupUuid) (removedBy : AccountId) :
    (db.detach group included removedBy now).Linked where
  members := h.members
  memberAudits := h.memberAudits
  includes r hr := h.includes r (List.mem_filter.mp hr).1
  includeAudits r hr := by
    obtain ⟨s, hs, rfl⟩ := List.mem_map.mp hr
    rw [group_close_include]
    exact h.includeAudits s hs

/-- A new group has no rows that refer to it yet. -/
theorem withGroup (h : db.Linked) (id : UInt32) (name : String) (description : Option String)
    (owner : GroupUuid) (createdOn : Instant) :
    (db.withGroup group id name description owner createdOn).Linked :=
  have hgrows : db.Grows (db.withGroup group id name description owner createdOn) :=
    ⟨List.prefix_append _ _, List.prefix_rfl⟩
  h.of_grows hgrows rfl rfl rfl rfl

/-- Every operation checks what its rows refer to. -/
theorem step (h : db.Linked) (hgrows : db.Grows db') (hstep : db.GroupStep now db') :
    db'.Linked := by
  cases hstep with
  | same hsame =>
    exact h.of_grows hgrows hsame.members hsame.memberAudits hsame.includes hsame.includeAudits
  | founded group id name description owner createdOn =>
    exact h.withGroup id name description owner createdOn
  | foundedWith group id name description owner createdOn creator found registered =>
    exact (h.withGroup id name description owner createdOn).join creator found registered
  | join group member addedBy found registered => exact h.join addedBy found registered
  | leave group member removedBy => exact h.leave member removedBy
  | attach group included addedBy found => exact h.attach included addedBy found
  | detach group included removedBy => exact h.detach included removedBy

end Linked

end Database

theorem Reachable.numbered {db : Database} (h : Reachable db) : db.Numbered :=
  h.keeps Database.numbered_empty Database.kept_numbered

theorem Reachable.linked {db : Database} (h : Reachable db) : db.Linked := by
  induction h with
  | empty => exact .empty
  | @step db _ operation now _ ih =>
    exact ih.step (Database.grows_after operation now db) (operation.groupStep now db)

end AccessLedger
