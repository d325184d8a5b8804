import AccessLedger.Json.Record
import AccessLedger.Proofs.Json.Written

/-!
# Laws of codecs

A codec is lawful if it reads back what it writes and writes plain trees only.
Then its texts are read back as well (`Codec.Lawful.read_write`), so they tell
values apart (`Codec.Lawful.write_injective`).  The law holds of texts, truth
values, integers, words and forms that are read back, and is kept by lists,
sets and records, whatever fields of these may be missing.
-/

namespace AccessLedger

namespace Codec

variable {α β : Type}

/-- What a codec writes it reads back, and it writes plain trees. -/
structure Lawful (c : Codec α) : Prop where
  decode_encode (a : α) : c.decode (c.encode a) = .ok a
  isPlain_encode (a : α) : (c.encode a).isPlain = true

theorem Lawful.read_write {c : Codec α} (h : c.Lawful) (a : α) : c.read (c.write a) = .ok a := by
  have hr : Json.readFront (c.write a).toList = (c.encode a, some []) := by
    rw [write, Json.compact, String.toList_ofList]
    exact Json.readFront_write (h.isPlain_encode a)
  rw [read, hr]
  simp only [h.decode_encode]
  rfl

theorem Lawful.encode_injective {c : Codec α} (h : c.Lawful) {a b : α}
    (e : c.encode a = c.encode b) : a = b := by
  have hb := h.decode_encode b
  rw [← e, h.decode_encode] at hb
  exact Except.ok.inj hb

theorem Lawful.write_injective {c : Codec α} (h : c.Lawful) {a b : α} (e : c.write a = c.write b) :
    a = b := by
  have hb := h.read_write b
  rw [← e, h.read_write a] at hb
  exact Except.ok.inj hb

/-- Whatever is written is read back as it was. -/
def RoundTrips (c : Codec α) : Prop := ∀ a, c.read (c.write a) = .ok a

theorem Lawful.roundTrips {c : Codec α} (h : c.Lawful) : c.RoundTrips := h.read_write

/-- What is no value of one codec is no text of it either, where a lawful codec wrote it. -/
theorem Lawful.read_write_of_error {c : Codec α} {d : Codec β} (h : d.Lawful) {b : β} {e : Fault}
    (hfails : c.decode (d.encode b) = .error e) : c.read (d.write b) = .error e := by
  have hr : Json.readFront (d.write b).toList = (d.encode b, some []) := by
    rw [write, Json.compact, String.toList_ofList]
    exact Json.readFront_write (h.isPlain_encode b)
  rw [read, hr]
  simp only [hfails]
  rfl

theorem lawful_string : string.Lawful := ⟨fun _ => rfl, fun _ => rfl⟩

theorem lawful_bool : bool.Lawful := ⟨fun _ => rfl, fun _ => rfl⟩

theorem lawful_int32 : int32.Lawful where
  decode_encode n := by simp [int32]
  isPlain_encode _ := rfl

@[simp]
theorem encode_uint32 (n : UInt32) : uint32.encode n = .integer n.toNat := rfl

theorem encode_uint32_ne_null (n : UInt32) : uint32.encode n ≠ .null := by
  rw [encode_uint32]
  intro h
  cases h

theorem decode_uint32 {i : Int} {n : UInt32} (h : uint32? i = some n) :
    uint32.decode (.integer i) = .ok n := by
  simp only [uint32, h]

theorem lawful_uint32 : uint32.Lawful where
  decode_encode n := by
    rw [encode_uint32]
    exact decode_uint32 (uint32?_toNat n)
  isPlain_encode _ := rfl

/-- A form of its own is lawful if it is read back. -/
theorem lawful_spelled {write : α → String} {read : String → Option α}
    (h : ∀ a, read (write a) = some a) : (spelled write read).Lawful where
  decode_encode a := by simp only [spelled, h]
  isPlain_encode _ := rfl

theorem encode_spelled_ne_null {write : α → String} {read : String → Option α} (a : α) :
    (spelled write read).encode a ≠ .null := nofun

theorem mapM_decode_encode {c : Codec α} (h : c.Lawful) (as : List α) :
    (as.map c.encode).mapM c.decode = .ok as := by
  induction as with
  | nil => rfl
  | cons a as ih =>
    rw [List.map_cons, List.mapM_cons, h.decode_encode, ih]
    rfl

theorem plainItems_encode {c : Codec α} (h : c.Lawful) (as : List α) :
    Json.plainItems (as.map c.encode) = true := by
  induction as with
  | nil => rfl
  | cons a as ih => rw [List.map_cons, Json.plainItems, h.isPlain_encode, ih, Bool.and_self]

theorem Lawful.list {c : Codec α} (h : c.Lawful) : c.list.Lawful where
  decode_encode := mapM_decode_encode h
  isPlain_encode as := by
    rw [Codec.list, Json.isPlain]
    exact plainItems_encode h as

/-- What may be missing is told from what is there if that is never written as `null`. -/
theorem Lawful.option {c : Codec α} (h : c.Lawful) (hnull : ∀ a, c.encode a ≠ .null) :
    c.option.Lawful where
  decode_encode a := by
    cases a with
    | none => rfl
    | some a =>
      simp only [Codec.option]
      split
      · next hencode => exact absurd hencode (hnull a)
      · rw [h.decode_encode]
        rfl
  isPlain_encode a := by
    cases a with
    | none => rfl
    | some a => exact h.isPlain_encode a

theorem Lawful.imap {c : Codec α} (h : c.Lawful) {into : α → β} {out : β → α}
    (hinto : ∀ b, into (out b) = b) : (c.imap into out).Lawful where
  decode_encode b := by
    simp only [Codec.imap, h.decode_encode, Except.map, hinto]
  isPlain_encode b := h.isPlain_encode (out b)

theorem lawful_nameSet : nameSet.Lawful := lawful_string.list.imap NameSet.ofList_names

/-- Words are lawful if every value has one and finds its way back from it. -/
theorem lawful_word [DecidableEq α] {words : List (α × String)}
    (h : ∀ a, ∃ w, words.find? (·.1 = a) = some (a, w) ∧ words.find? (·.2 = w) = some (a, w)) :
    (word words).Lawful where
  decode_encode a := by
    obtain ⟨w, ha, hw⟩ := h a
    simp only [word, ha, word.named, hw]
  isPlain_encode a := by
    obtain ⟨w, ha, _⟩ := h a
    simp only [word, ha, Json.isPlain, Option.isSome_some]

end Codec

namespace Fields

/-- The names of the fields of a record. -/
def names : {τ : Type} → Fields τ → List String
  | _, .nil => []
  | _, .cons field rest => field.name :: rest.names

/--
Fields whose names differ and whose codecs are lawful, and of which only
those are left out whose absence says the same.
-/
inductive Lawful : {τ : Type} → Fields τ → Prop where
  | nil : Lawful .nil
  | cons {α β : Type} {field : Field α} {rest : Fields β} (hcodec : field.codec.Lawful)
      (hhidden : ∀ a, field.hidden a = true →
        field.absent = .anywhere a ∨ field.absent = .fromObject a)
      (hname : field.name ∉ rest.names) (hrest : rest.Lawful) : Lawful (.cons field rest)

variable {α β τ : Type}

/-- Members in the form in which an object is read. -/
def named (ms : List (String × Json)) : List (Option String × Json) :=
  ms.map fun (k, j) => (some k, j)

section

variable {field : Field α} {rest : Fields β}

theorem members_cons (a : α) (r : β) : (Fields.cons field rest).members (a, r) =
    if field.hidden a then rest.members r
    else (field.name, field.codec.encode a) :: rest.members r := rfl

theorem noneGiven_cons : (Fields.cons field rest).noneGiven = (none, rest.noneGiven) := rfl

theorem place_cons_of_ne {name : String} (h : field.name ≠ name)
    (given : (Fields.cons field rest).Given) (j : Json) :
    (Fields.cons field rest).place given name j =
      (rest.place given.2 name j).map (·.map fun values => (given.1, values)) := if_neg h

theorem place_cons_self (values : rest.Given) (j : Json) :
    (Fields.cons field rest).place (none, values) field.name j =
      (field.codec.decode j).map fun a => some (some a, values) := if_pos rfl

theorem complete_cons_some (a : α) (values : rest.Given) :
    (Fields.cons field rest).complete (some a, values) =
      (rest.complete values).map (a, ·) := rfl

end

theorem placeAll_named_cons (fs : Fields τ) (given : fs.Given) (name : String) (j : Json)
    (ms : List (String × Json)) : fs.placeAll given (named ((name, j) :: ms)) =
      match fs.place given name j with
      | .ok (some given) => fs.placeAll given (named ms)
      | .ok none => if j.skippable then fs.placeAll given (named ms) else .error .malformed
      | .error e => .error e := rfl

theorem mem_names_of_mem_members {fs : Fields τ} {r : τ} {m : String × Json}
    (h : m ∈ fs.members r) : m.1 ∈ fs.names := by
  induction fs with
  | nil => cases h
  | cons field rest ih =>
    obtain ⟨a, r⟩ := r
    rw [members_cons] at h
    split at h
    · exact List.mem_cons_of_mem _ (ih h)
    · rcases List.mem_cons.mp h with rfl | h
      · exact List.mem_cons_self
      · exact List.mem_cons_of_mem _ (ih h)

/-- Members of other names pass a field by. -/
theorem placeAll_cons_of_ne {field : Field α} {rest : Fields β} {ms : List (String × Json)}
    (hne : ∀ m ∈ ms, m.1 ≠ field.name) (v : Option α) (given given' : rest.Given)
    (h : rest.placeAll given (named ms) = .ok given') :
    (Fields.cons field rest).placeAll (v, given) (named ms) = .ok (v, given') := by
  induction ms generalizing given with
  | nil =>
    cases h
    rfl
  | cons m ms ih =>
    obtain ⟨name, j⟩ := m
    have hname : field.name ≠ name := (hne (name, j) List.mem_cons_self).symm
    have htail := fun g hg => ih (fun m hm => hne m (List.mem_cons_of_mem _ hm)) g hg
    rw [placeAll_named_cons] at h ⊢
    rw [place_cons_of_ne hname]
    cases hp : rest.place given name j with
    | error e => simp only [hp] at h; cases h
    | ok placed =>
      cases placed with
      | some g =>
        simp only [hp] at h
        exact htail g h
      | none =>
        simp only [hp, Except.map, Option.map] at h ⊢
        split at h
        · next hs => rw [if_pos hs]; exact htail given h
        · cases h

/-- What a record is written with leads back to the record. -/
theorem Lawful.placeAll_members {fs : Fields τ} (h : fs.Lawful) (r : τ) :
    ∃ given, fs.placeAll fs.noneGiven (named (fs.members r)) = .ok given ∧
      fs.complete given = .ok r := by
  induction h with
  | nil => exact ⟨(), rfl, rfl⟩
  | @cons α β field rest hcodec hhidden hname hrest ih =>
    obtain ⟨a, r⟩ := r
    obtain ⟨given, hplace, hcomplete⟩ := ih r
    have hne : ∀ m ∈ rest.members r, m.1 ≠ field.name := by
      intro m hm e
      exact hname (e ▸ mem_names_of_mem_members hm)
    rw [members_cons]
    cases hh : field.hidden a with
    | true =>
      rw [if_pos rfl]
      refine ⟨(none, given), placeAll_cons_of_ne hne none _ _ hplace, ?_⟩
      rcases hhidden a hh with e | e <;> simp only [complete, e, hcomplete, Except.map]
    | false =>
      rw [if_neg (by decide)]
      refine ⟨(some a, given), ?_, by rw [complete_cons_some, hcomplete]; rfl⟩
      have hfirst : (Fields.cons field rest).place (none, rest.noneGiven) field.name
          (field.codec.encode a) = .ok (some (some a, rest.noneGiven)) := by
        rw [place_cons_self, hcodec.decode_encode]
        rfl
      have htail := placeAll_cons_of_ne hne (some a) _ _ hplace
      rw [noneGiven_cons, placeAll_named_cons, hfirst]
      exact htail

theorem Lawful.plainMembers {fs : Fields τ} (h : fs.Lawful) (r : τ) :
    Json.plainMembers (named (fs.members r)) = true := by
  induction h with
  | nil => rfl
  | cons hcodec hhidden hname hrest ih =>
    obtain ⟨a, r⟩ := r
    rw [members_cons]
    split
    · exact ih r
    · have ht := ih r
      simp only [named, List.map_cons, Json.plainMembers, hcodec.isPlain_encode] at ht ⊢
      simpa using ht

theorem Lawful.record {fs : Fields τ} (h : fs.Lawful) : fs.record.Lawful where
  decode_encode r := by
    obtain ⟨given, hplace, hcomplete⟩ := h.placeAll_members r
    simp only [named] at hplace
    simp only [Fields.record, Json.ofMembers, hplace, hcomplete]
  isPlain_encode r := by
    have hp := h.plainMembers r
    simp only [named] at hp
    simp only [Fields.record, Json.ofMembers, Json.isPlain, hp]

theorem encode_record_ne_null (fs : Fields τ) (r : τ) : fs.record.encode r ≠ .null := nofun

/-- A field that is always written. -/
theorem Lawful.required {name : String} {c : Codec α} {rest : Fields β} (hc : c.Lawful)
    (hname : name ∉ rest.names) (hrest : rest.Lawful) :
    (Fields.cons (.required name c) rest).Lawful :=
  .cons hc (fun _ h => by cases h) hname hrest

/-- A field with a default value, which is written as well. -/
theorem Lawful.withDefault {name : String} {c : Codec α} {value : α} {rest : Fields β}
    (hc : c.Lawful) (hname : name ∉ rest.names) (hrest : rest.Lawful) :
    (Fields.cons (.withDefault name c value) rest).Lawful :=
  .cons hc (fun _ h => by cases h) hname hrest

/-- A field that is left out where it has no value. -/
theorem Lawful.optional {name : String} {c : Codec α} {rest : Fields β} (hc : c.Lawful)
    (hnull : ∀ a, c.encode a ≠ .null) (hname : name ∉ rest.names) (hrest : rest.Lawful) :
    (Fields.cons (.optional name c) rest).Lawful := by
  refine .cons (hc.option hnull) (fun a hhidden => .inl ?_) hname hrest
  cases a with
  | none => rfl
  | some a => cases hhidden

/-- A field that is written as `null` where it has no value. -/
theorem Lawful.nullable {name : String} {c : Codec α} {rest : Fields β} (hc : c.Lawful)
    (hnull : ∀ a, c.encode a ≠ .null) (hname : name ∉ rest.names) (hrest : rest.Lawful) :
    (Fields.cons (.nullable name c) rest).Lawful :=
  .cons (hc.option hnull) (fun _ h => by cases h) hname hrest

end Fields

end AccessLedger
