import AccessLedger.Proofs.Json.Laws
import AccessLedger.Store.Revision

/-!
# Stored sections are read back

The codecs of rules, permissions and sections are lawful, so a section that
has been stored is read back as it was (`AccessSection.ofStored_toStored`),
and the text behind a revision tells lists of sections apart
(`sectionsText_injective`).
-/

namespace AccessLedger

theorem GroupUuid.lawful_codec : GroupUuid.codec.Lawful :=
  Codec.lawful_string.imap fun _ => rfl

theorem RuleAction.lawful_codec : RuleAction.codec.Lawful :=
  Codec.lawful_word fun a => by cases a <;> exact ⟨_, rfl, by decide⟩

theorem GroupReference.lawful_codec : GroupReference.codec.Lawful := by
  refine Codec.Lawful.imap (Fields.Lawful.record ?_) fun _ => rfl
  apply Fields.Lawful.required GroupUuid.lawful_codec (by decide)
  exact Fields.Lawful.required Codec.lawful_string (by decide) .nil

theorem PermissionRule.lawful_codec : PermissionRule.codec.Lawful := by
  refine Codec.Lawful.imap (Fields.Lawful.record ?_) fun _ => rfl
  apply Fields.Lawful.required GroupReference.lawful_codec (by decide)
  apply Fields.Lawful.withDefault RuleAction.lawful_codec (by decide)
  apply Fields.Lawful.withDefault Codec.lawful_bool (by decide)
  apply Fields.Lawful.withDefault Codec.lawful_int32 (by decide)
  exact Fields.Lawful.withDefault Codec.lawful_int32 (by decide) .nil

theorem Permission.lawful_codec : Permission.codec.Lawful := by
  refine Codec.Lawful.imap (Fields.Lawful.record ?_) fun _ => rfl
  apply Fields.Lawful.required Codec.lawful_string (by decide)
  apply Fields.Lawful.withDefault Codec.lawful_bool (by decide)
  exact Fields.Lawful.withDefault PermissionRule.lawful_codec.list (by decide) .nil

theorem AccessSection.lawful_codec : AccessSection.codec.Lawful := by
  refine Codec.Lawful.imap (Fields.Lawful.record ?_) fun _ => rfl
  apply Fields.Lawful.required Codec.lawful_string (by decide)
  exact Fields.Lawful.withDefault Permission.lawful_codec.list (by decide) .nil

namespace AccessSection

/-- A stored section is read back as it was. -/
@[simp]
theorem ofStored_toStored (s : AccessSection) : ofStored s.toStored = .ok s := by
  simp only [ofStored, toStored, Permission.lawful_codec.list.read_write]

theorem toStored_injective {s t : AccessSection} (h : s.toStored = t.toStored) : s = t := by
  have ht := ofStored_toStored t
  rw [← h, ofStored_toStored s] at ht
  exact Except.ok.inj ht

@[simp]
theorem mapM_ofStored_toStored (ss : List AccessSection) :
    (ss.map toStored).mapM ofStored = .ok ss := by
  induction ss with
  | nil => rfl
  | cons s ss ih =>
    simp only [List.map_cons, List.mapM_cons, ofStored_toStored, ih]
    rfl

end AccessSection

/-- Lists of sections with one text are one list. -/
theorem sectionsText_injective {a b : List AccessSection} (h : sectionsText a = sectionsText b) :
    a = b :=
  AccessSection.lawful_codec.list.write_injective h

end AccessLedger
