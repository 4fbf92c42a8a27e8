import LogIntake.Proofs.Gelf.Decoding
import LogIntake.Proofs.Gelf.Fields
import LogIntake.Proofs.Json.Printing

/-!
# Where additional fields come from

Every additional field of a message comes from an entry of its document that may be
an additional field. Its name is the name that the entry gives, without blanks at its
ends, which the policy admits; and its value is what the value of the entry amounts
to as the value of a field.

No field is lost either: an entry that may be an additional field leaves a field under
its name, its own or that of another entry, as long as the policy admits the name, the
name is that of a field without a slot, and the value amounts to something.
-/

namespace LogIntake.Gelf

/-! ## Entries and their values -/

/-- Keys of entries that may be additional fields. -/
structure IsEligible (key : Text) : Prop where
  notWellKnown :
    key ∉ ["version".toList, "full_message".toList, "file".toList, "line".toList,
      "level".toList, "facility".toList]
  notShortMessage : fieldName key ≠ "short_message".toList
  notHost : fieldName key ≠ "host".toList

theorem isEligible_iff {key : Text} : IsEligible key ↔ isAdditional key = true := by
  simp only [isAdditional, Bool.and_eq_true, Bool.not_eq_true', bne_iff_ne,
    List.contains_eq_mem, decide_eq_false_iff_not]
  constructor
  · rintro ⟨notWellKnown, notShortMessage, notHost⟩
    exact ⟨⟨notWellKnown, notShortMessage⟩, notHost⟩
  · rintro ⟨⟨notWellKnown, notShortMessage⟩, notHost⟩
    exact ⟨notWellKnown, notShortMessage, notHost⟩

/-- What the value of an entry amounts to as the value of a field. -/
inductive AmountsTo : Json → Field.Value → Prop
  | integer {n : Int} (least : -Int.pow 2 63 ≤ n) (greatest : n < Int.pow 2 63) :
      AmountsTo (.number (.integer n)) (.integer n)
  | wide {n : Int} (beyond : n < -Int.pow 2 63 ∨ Int.pow 2 63 ≤ n) :
      AmountsTo (.number (.integer n)) (.double (.ofInt n))
  | double (x : Binary64) : AmountsTo (.number (.double x)) (.double x)
  | string {s : Text} (filled : s.isBlank = false) : AmountsTo (.string s) (.text s.trim)
  | array (elements : List Json) : AmountsTo (.array elements) (.text (Json.array elements).toText)
  | object (members : Json.Members) :
      AmountsTo (.object members) (.text (Json.object members).toText)

/-- Values that amount to something: numbers, containers and texts that are not
blank. -/
def IsStorable : Json → Prop
  | .number _ | .array _ | .object _ => True
  | .string s => s.isBlank = false
  | .null | .bool _ => False

theorem exists_amountsTo {json : Json} (storable : IsStorable json) :
    ∃ value, AmountsTo json value := by
  cases json with
  | null | bool _ => contradiction
  | number n =>
      cases n with
      | double x => exact ⟨_, .double x⟩
      | integer n =>
          by_cases within : -Int.pow 2 63 ≤ n ∧ n < Int.pow 2 63
          · exact ⟨_, .integer within.1 within.2⟩
          · exact ⟨_, .wide (by omega)⟩
  | string s => exact ⟨_, .string storable⟩
  | array elements => exact ⟨_, .array elements⟩
  | object members => exact ⟨_, .object members⟩

/-- A text between two characters that are no blanks is stored as it is. -/
theorem isPlain_enclosed {opening closing : Char} (inner : Text)
    (opens : Text.isBlankChar opening = false) (closes : Text.isBlankChar closing = false) :
    Field.IsPlain (opening :: (inner ++ [closing])) := by
  refine ⟨List.cons_ne_nil _ _, fun c head => ?_, fun c last => ?_⟩
  · cases head
    exact opens
  · rw [← List.cons_append, List.getLast?_concat] at last
    cases last
    exact closes

theorem isPlain_toText_array (elements : List Json) :
    Field.IsPlain (Json.array elements).toText := by
  cases elements with
  | nil => exact isPlain_enclosed [] (by decide) (by decide)
  | cons element elements =>
      rw [Json.toText_array]
      exact isPlain_enclosed _ (by decide) (by decide)

theorem isPlain_toText_object (members : Json.Members) :
    Field.IsPlain (Json.object members).toText := by
  cases members with
  | nil => exact isPlain_enclosed [] (by decide) (by decide)
  | cons member members =>
      rw [Json.toText_object]
      exact isPlain_enclosed _ (by decide) (by decide)

theorem fitsInt64_iff {n : Int} :
    Text.fitsInt64 n = true ↔ -Int.pow 2 63 ≤ n ∧ n < Int.pow 2 63 := by
  rw [Text.fitsInt64, Bool.and_eq_true, decide_eq_true_eq, decide_eq_true_eq, Text.minInt64,
    Text.maxInt64]
  omega

/-- What the value of an entry amounts to is what is stored for it. -/
theorem AmountsTo.stored_eq {json : Json} {value : Field.Value} (amounts : AmountsTo json value)
    (name : Text) : (fieldValue? name json).value.bind Field.Value.normalized? = some value := by
  cases amounts with
  | @integer n least greatest =>
      have fits := fitsInt64_iff.mpr ⟨least, greatest⟩
      simp [fieldValue?, fits, Field.Value.normalized?]
  | @wide n beyond =>
      have misfits : ¬ Text.fitsInt64 n = true := by
        rw [fitsInt64_iff]
        omega
      simp [fieldValue?, misfits, Field.Value.normalized?]
  | double x => rfl
  | string filled => simp [fieldValue?, filled, Field.Value.normalized?]
  | array elements => exact (isPlain_toText_array elements).normalized?_eq
  | object members => exact (isPlain_toText_object members).normalized?_eq

theorem amountsTo_iff {name : Text} {json : Json} {value : Field.Value} :
    AmountsTo json value ↔
      (fieldValue? name json).value.bind Field.Value.normalized? = some value := by
  refine ⟨fun amounts => amounts.stored_eq name, fun stored => ?_⟩
  have storable : IsStorable json := by
    cases json with
    | null | bool _ => contradiction
    | number _ | array _ | object _ => trivial
    | string s =>
        cases blank : s.isBlank with
        | true => simp [fieldValue?, blank, Field.Value.normalized?] at stored
        | false => exact blank
  obtain ⟨other, amounts⟩ := exists_amountsTo storable
  rwa [Option.some.inj ((amounts.stored_eq name).symm.trans stored)] at amounts

/-! ## What entries offer to additional fields -/

variable {policy : Field.Policy} {name : Text}

/-- An entry offers a value to an additional field when it may be one, its name is that
of the field up to blanks at its ends, the policy admits the name with these blanks and
without them, and the value is what the value of the entry amounts to. -/
theorem offerTo?_eq_some_iff (notSlot : Slot.ofName? name = none) {key : Text} {json : Json}
    {value : Field.Value} :
    offerTo? policy name (key, json) = some value ↔
      IsEligible key ∧ (fieldName key).trim = name ∧ policy.admits (fieldName key) = true ∧
        policy.admits name = true ∧ Field.isName name = true ∧ AmountsTo json value := by
  have held_eq (stored : Field.Value) : Message.held? name stored = some stored := by
    rw [Message.held?, notSlot]
  simp only [offerTo?, offered?, Option.ite_none_right_eq_some, Bool.and_eq_true,
    Option.bind_eq_some_iff, Message.accepted?_eq_some_iff, isEligible_iff,
    @amountsTo_iff (fieldName key)]
  constructor
  · rintro ⟨rfl, ⟨additional, admitted⟩, given, given_eq, named, nameAdmitted, stored, normalized,
      held⟩
    rw [held_eq, Option.some.injEq] at held
    exact ⟨additional, rfl, admitted, nameAdmitted, named, given, given_eq, held ▸ normalized⟩
  · rintro ⟨additional, rfl, admitted, nameAdmitted, named, given, given_eq, normalized⟩
    exact ⟨rfl, ⟨additional, admitted⟩, given, given_eq, named, nameAdmitted, value, normalized,
      held_eq value⟩

/-! ## Additional fields of messages -/

/-- Every additional field of a decoded message comes from an entry that may be one: the
entry gives its name up to blanks at the ends, the policy admits this name, and the value
is what the value of the entry amounts to. Conversely, an entry that may be an
additional field leaves a field under its name, as long as the policy admits the name
with and without blanks at its ends, no slot has the name, and there is something to be
stored. -/
theorem additional_fields_come_from_entries (decoder : Decoder) (raw : RawMessage)
    {message : Message} (decoded : (decoder.decode raw).value = .ok message) :
    ∃ text document,
      (Payload.toText raw.payload decoder.limit decoder.charset).value = .ok text ∧
        Json.Document.ofText text = .ok document ∧
        (∀ name value, (name, value) ∈ message.additional.entries →
          ∃ key json, (key, json) ∈ document.value.members ∧ IsEligible key ∧
            (fieldName key).trim = name ∧ decoder.policy.admits name = true ∧
            Field.isName name = true ∧ AmountsTo json value) ∧
        ∀ key json, (key, json) ∈ document.value.members → IsEligible key →
          decoder.policy.admits (fieldName key) = true →
          decoder.policy.admits (fieldName key).trim = true →
          Field.isName (fieldName key).trim = true →
          (∀ slot : Slot, slot.name ≠ (fieldName key).trim) → IsStorable json →
          message.additional.contains (fieldName key).trim = true := by
  obtain ⟨text, document, text_eq, read_eq, -, message_eq⟩ := exists_document_of_decode decoded
  rw [value_toMessage] at message_eq
  have startTidy : (startMessage decoder.policy raw document.value.members).Tidy :=
    tidy_startMessage
  refine ⟨text, document, text_eq, read_eq, ?_, ?_⟩
  · -- no field but those in slots is set before the entries are added
    intro name value member
    have tidy : message.Tidy := message_eq ▸ tidy_addEntries _ _ startTidy
    obtain ⟨notSlot, held⟩ := tidy.get?_of_mem member
    rw [message_eq] at held
    rcases get?_addEntries_cases startTidy held with before | ⟨⟨key, json⟩, entry, offer⟩
    · rw [get?_startMessage_of_notSlot notSlot] at before
      contradiction
    · obtain ⟨eligible, name_eq, -, admitted, named, amounts⟩ :=
        (offerTo?_eq_some_iff notSlot).mp offer
      exact ⟨key, json, entry, eligible, name_eq, admitted, named, amounts⟩
  · intro key json entry eligible keyAdmitted admitted named noSlot storable
    have notSlot : Slot.ofName? (fieldName key).trim = none := Slot.ofName?_eq_none_iff.mpr noSlot
    obtain ⟨value, amounts⟩ := exists_amountsTo storable
    have offer := (offerTo?_eq_some_iff notSlot).mpr
      ⟨eligible, rfl, keyAdmitted, admitted, named, amounts⟩
    have held := isSome_get?_addEntries startTidy entry (Option.isSome_of_mem offer)
    rw [← message_eq, Message.get?, notSlot] at held
    rw [NameMap.contains_eq_isSome_get?]
    exact held

/-- A document with a padded name, a container and a name that the standard policy
protects. -/
def mixedDocument : Text :=
  "\x7b\"short_message\":\"m\",\"_ y \":\" t \",\"z\":[1,null],\"__id\":5\x7d".toList

/-- The entries of the mixed document. -/
def mixedMembers : Json.Members :=
  [(shortMessageKey, .string ['m']), ("_ y ".toList, .string " t ".toList),
    (['z'], .array [.number (.integer 1), .null]), ("__id".toList, .number (.integer 5))]

theorem ofText_mixedDocument :
    Json.Document.ofText mixedDocument = .ok ⟨.object mixedMembers, false⟩ :=
  Json.toOption_eq_some_iff.mp (by decide +kernel)

/-- The mixed document leaves the field with the padded name, no text but that of the
container under its name, and nothing under the protected name. -/
theorem additional_fields_of_mixedDocument :
    ∃ message,
      ((⟨64, .utf8, .standard⟩ : Decoder).decode (rawOf mixedDocument)).value = .ok message ∧
      message.additional.contains ['y'] = true ∧
      (∀ value, (['z'], value) ∈ message.additional.entries → value = .text "[1,null]".toList) ∧
      ∀ value, ("_id".toList, value) ∉ message.additional.entries := by
  have mixed := @value_toText_rawOf mixedDocument (by decide +kernel) 64
  have decoded := @decode_of_checked _ ⟨64, .utf8, .standard⟩ _ _ mixed ofText_mixedDocument rfl
  obtain ⟨text, document, text_eq, read_eq, sources, kept⟩ :=
    additional_fields_come_from_entries _ _ decoded
  cases mixed.symm.trans text_eq
  cases ofText_mixedDocument.symm.trans read_eq
  refine ⟨_, decoded, ?_, fun value held => ?_, fun value held => ?_⟩
  · exact kept "_ y ".toList (.string " t ".toList) (by simp [mixedMembers, Json.members])
      (isEligible_iff.mpr (by decide)) (by decide) (by decide)
      (by decide) (Slot.ofName?_eq_none_iff.mp (by decide))
      (by decide : Text.isBlank " t ".toList = false)
  · obtain ⟨key, json, entry, -, name_eq, -, -, amounts⟩ := sources _ _ held
    simp only [Json.members, mixedMembers, List.mem_cons, Prod.mk.injEq, List.not_mem_nil,
      or_false] at entry
    rcases entry with ⟨rfl, rfl⟩ | ⟨rfl, rfl⟩ | ⟨rfl, rfl⟩ | ⟨rfl, rfl⟩
    · exact absurd name_eq (by decide)
    · exact absurd name_eq (by decide)
    · cases amounts
      rfl
    · exact absurd name_eq (by decide)
  · obtain ⟨-, -, -, -, -, admitted, -⟩ := sources _ _ held
    exact absurd admitted (by decide)

end LogIntake.Gelf
