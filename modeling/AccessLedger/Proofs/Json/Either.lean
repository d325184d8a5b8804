import AccessLedger.Proofs.Json.Laws

/-!
# Values of one of two types

A value of either of two types is written without a word on which it is, and
the second type is only tried where the first one fails.  So it is read back
(`Codec.Lawful.either`) if the first type takes nothing that the second one
writes.  Records tell themselves apart by a field that they must be given and
the others do not have (`Fields.decode_members_of_missing`).
-/

namespace AccessLedger

/-! ## Depth -/

namespace Codec

variable {α β : Type}

/-- All that is written is sound and nested at most `depth` deep. -/
def WritesWithin (depth : Nat) (c : Codec α) : Prop := ∀ a, (c.encode a).isSound depth = true

variable {depth : Nat}

theorem writesWithin_string : string.WritesWithin depth := fun _ => by
  simp [string, Json.isSound]

theorem writesWithin_bool : bool.WritesWithin depth := fun _ => by
  simp [bool, Json.isSound]

theorem writesWithin_uint32 : uint32.WritesWithin depth := by
  intro n
  have hbound := n.toNat_lt
  have hsmall : n.toNat < Json.wordBound := by
    unfold Json.wordBound
    omega
  simp [uint32, Json.isSound, Json.isHuge, hsmall]

theorem writesWithin_spelled {write : α → String} {read : String → Option α} :
    (spelled write read).WritesWithin depth := fun _ => by
  simp [spelled, Json.isSound]

theorem WritesWithin.option {c : Codec α} (h : c.WritesWithin depth) :
    c.option.WritesWithin depth := by
  intro a
  cases a with
  | none => simp [Codec.option, Json.isSound]
  | some a => exact h a

theorem WritesWithin.imap {c : Codec α} (h : c.WritesWithin depth) {into : α → β} {out : β → α} :
    (c.imap into out).WritesWithin depth := fun b => h (out b)

end Codec

namespace Fields

variable {α β τ : Type} {depth : Nat}

/-- All that the fields of a record are written as is sound and nested at most `depth` deep. -/
def WriteWithin (depth : Nat) : {τ : Type} → Fields τ → Prop
  | _, .nil => True
  | _, .cons field rest => field.codec.WritesWithin depth ∧ rest.WriteWithin depth

theorem soundMembers_of_writeWithin {fs : Fields τ} (h : fs.WriteWithin depth) (r : τ) :
    Json.soundMembers depth (named (fs.members r)) = true := by
  induction fs with
  | nil => rfl
  | cons field rest ih =>
    obtain ⟨a, r⟩ := r
    have htail := ih h.2 r
    rw [members_cons]
    split
    · exact htail
    · have hhead := h.1 a
      simp only [named, List.map_cons, Json.soundMembers, hhead] at htail ⊢
      simpa using htail

/-- A record is nested one deeper than its fields. -/
theorem WriteWithin.record {fs : Fields τ} (h : fs.WriteWithin depth) :
    fs.record.WritesWithin (depth + 1) := by
  intro r
  have hmembers := soundMembers_of_writeWithin h r
  simp only [named] at hmembers
  simp only [Fields.record, Json.ofMembers, Json.isSound, hmembers]

/-! ## Missing fields -/

/-- Members of other names give a field no value. -/
theorem fst_of_placeAll {field : Field α} {rest : Fields β} {ms : List (String × Json)}
    (hne : ∀ m ∈ ms, m.1 ≠ field.name) {given given' : (Fields.cons field rest).Given}
    (h : (Fields.cons field rest).placeAll given (named ms) = .ok given') :
    given'.1 = given.1 := by
  induction ms generalizing given with
  | nil =>
    cases h
    rfl
  | cons m ms ih =>
    obtain ⟨name, j⟩ := m
    have hname : field.name ≠ name := (hne (name, j) List.mem_cons_self).symm
    have htail : ∀ g, (Fields.cons field rest).placeAll g (named ms) = .ok given' →
        given'.1 = g.1 := fun g => ih fun m hm => hne m (List.mem_cons_of_mem _ hm)
    rw [placeAll_named_cons, place_cons_of_ne hname] at h
    cases hp : rest.place given.2 name j with
    | error e =>
      rw [hp] at h
      cases h
    | ok placed =>
      rw [hp] at h
      cases placed with
      | some values =>
        -- the member has given a value to another field
        simp only [Except.map, Option.map] at h
        exact htail (given.1, values) h
      | none =>
        simp only [Except.map, Option.map] at h
        split at h
        · exact htail given h
        · cases h

/-- An object without a field that must be given is no such record. -/
theorem decode_members_of_missing {field : Field α} {rest : Fields β}
    (hneeded : field.absent = .refused) {fs : Fields τ} (hmissing : field.name ∉ fs.names) (r : τ) :
    ∃ e, (Fields.cons field rest).record.decode (fs.record.encode r) = .error e := by
  have hne : ∀ m ∈ fs.members r, m.1 ≠ field.name := by
    intro m hm hname
    exact hmissing (hname ▸ mem_names_of_mem_members hm)
  simp only [Fields.record, Json.ofMembers]
  cases hplace : (Fields.cons field rest).placeAll (Fields.cons field rest).noneGiven
      (named (fs.members r)) with
  | error e =>
    simp only [named] at hplace
    exact ⟨e, by rw [hplace]⟩
  | ok given =>
    -- all members have been taken in, and the field is still without a value
    have hnone : given.1 = none := fst_of_placeAll hne hplace
    simp only [named] at hplace
    refine ⟨.mismatch, ?_⟩
    rw [hplace]
    simp only [complete, hnone, hneeded]

end Fields

namespace Codec

variable {α β : Type}

theorem decode_imap_of_error {c : Codec α} {into : α → β} {out : β → α} {j : Json} {e : Fault}
    (h : c.decode j = .error e) : (c.imap into out).decode j = .error e := by
  simp only [Codec.imap, h, Except.map]

/-- What either of two types writes is read back if the first one does not take it for its own. -/
theorem Lawful.either {depth : Nat} {c : Codec α} {d : Codec β} (hc : c.Lawful) (hd : d.Lawful)
    (hcdepth : c.WritesWithin depth) (hddepth : d.WritesWithin depth)
    (hapart : ∀ b, ∃ e, c.decode (d.encode b) = .error e) : (either depth c d).Lawful where
  decode_encode s := by
    cases s with
    | inl a =>
      have hsound := hcdepth a
      simp only [Codec.either, hsound, if_true, hc.decode_encode]
    | inr b =>
      have hsound := hddepth b
      obtain ⟨e, hfails⟩ := hapart b
      simp only [Codec.either, hsound, if_true, hfails, hd.decode_encode]
  isPlain_encode s := by
    cases s with
    | inl a => exact hc.isPlain_encode a
    | inr b => exact hd.isPlain_encode b

end Codec

end AccessLedger
