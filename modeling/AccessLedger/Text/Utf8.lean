/-!
# The bytes of a text

`bytes` gives the UTF-8 form of a text and `ofBytes?` reads it back, refusing
what is not UTF-8 (`ofBytes?_bytes`).
-/

namespace AccessLedger.Text

/-- The UTF-8 bytes of a text. -/
def bytes (s : String) : List UInt8 := s.toUTF8.data.toList

/-- The text with these UTF-8 bytes, if there is one. -/
def ofBytes? (bs : List UInt8) : Option String := String.fromUTF8? ⟨bs.toArray⟩

@[simp]
theorem ofBytes?_bytes (s : String) : ofBytes? (bytes s) = some s := by
  have h : ByteArray.mk (bytes s).toArray = s.toByteArray := by simp [bytes]
  rw [ofBytes?, h, String.fromUTF8?, dif_pos s.isValidUTF8]
  rfl

/-- Only the bytes of a text are read back as that text. -/
theorem ofBytes?_eq_some_iff {bs : List UInt8} {s : String} :
    ofBytes? bs = some s ↔ bs = bytes s := by
  constructor
  · intro h
    unfold ofBytes? String.fromUTF8? at h
    split at h
    · cases h
      simp [bytes, String.fromUTF8]
    · cases h
  · rintro rfl
    exact ofBytes?_bytes s

theorem bytes_injective {s t : String} (h : bytes s = bytes t) : s = t := by
  have := congrArg ofBytes? h
  rwa [ofBytes?_bytes, ofBytes?_bytes, Option.some.injEq] at this

/-- The bytes of a text are those of its characters. -/
theorem bytes_ofList (cs : List Char) :
    bytes (String.ofList cs) = cs.flatMap String.utf8EncodeChar := by
  simp [bytes, List.utf8Encode]

/-- A character below U+0080 is one byte. -/
theorem bytes_ofList_ascii {cs : List Char} (h : ∀ c ∈ cs, c.toNat < 0x80) :
    bytes (String.ofList cs) = cs.map fun c => UInt8.ofNat c.toNat := by
  rw [bytes_ofList]
  induction cs with
  | nil => rfl
  | cons c r ih =>
    have hc : c.val.toNat ≤ 127 := Nat.le_of_lt_succ (h c List.mem_cons_self)
    rw [List.flatMap_cons, List.map_cons, ih fun x hx => h x (List.mem_cons_of_mem c hx)]
    simp only [String.utf8EncodeChar, hc, if_true, List.singleton_append]
    rfl

end AccessLedger.Text
