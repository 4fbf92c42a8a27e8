import LogIntake.Proofs.Charset.Utf8
import LogIntake.Proofs.Gelf.Decoding
import LogIntake.Proofs.Gelf.Fields
import LogIntake.Proofs.Gelf.Record

/-!
# Decoding what was encoded

The document of a record, printed as compact text in UTF-8, decodes to the message
that says the same, in whatever order its entries come. No value is altered on the
way: the text is read back, the well-known entries fill their slots, and each further
field is offered once, under its own name.
-/

namespace LogIntake.Gelf

open Record

/-! ## Plain payloads -/

theorem utf8EncodeChar_ne_nil (c : Char) : String.utf8EncodeChar c ≠ [] := by
  intro empty
  have length_eq := String.length_utf8EncodeChar c
  rw [empty] at length_eq
  have positive := Char.utf8Size_pos c
  rw [← length_eq] at positive
  contradiction

/-- The text of an object is told from compressed payloads and chunks by its brace. -/
theorem ofPayload?_object (members : Json.Members) :
    Framing.ofPayload? ((Json.object members).toText.flatMap String.utf8EncodeChar) =
      some .uncompressed := by
  have two (c : Char) (text : Text) :
      Framing.ofPayload? (('\x7b' :: c :: text).flatMap String.utf8EncodeChar) =
        some .uncompressed := by
    have brace : String.utf8EncodeChar '\x7b' = [0x7B] := by decide
    obtain ⟨byte, bytes, encoded⟩ := List.exists_cons_of_ne_nil (utf8EncodeChar_ne_nil c)
    rw [List.flatMap_cons, List.flatMap_cons, brace, encoded]
    rfl
  cases members with
  | nil => exact two _ _
  | cons member members =>
      rw [Json.toText_object]
      exact two _ _

/-! ## Well-known entries -/

theorem admits_slotName (slot : Slot) : Field.Policy.standard.admits slot.name = true := by
  cases slot <;> decide

section Slots

variable {raw : RawMessage} {members : Json.Members} {slot : Slot}

theorem get?_startMessage_stored {value? : Option Field.Value}
    (known : (slot, value?) ∈ knownFields members)
    (stored : ∀ value ∈ value?, value.normalized? = some value ∧ slot.held? value = some value) :
    (startMessage .standard raw members).get? slot.name = value? := by
  rw [get?_startMessage known]
  cases value? with
  | none => rfl
  | some value =>
      obtain ⟨normalized, held⟩ := stored value rfl
      rw [Option.bind_some, Message.accepted?_eq slot.isName_name (admits_slotName slot)
        normalized, Message.held?_slotName, held]

theorem get?_startMessage_text {text? : Option Text}
    (known : (slot, text?.map .text) ∈ knownFields members)
    (plain : ∀ text ∈ text?, Field.IsPlain text)
    (held : ∀ text, slot.held? (.text text) = some (.text text)) :
    (startMessage .standard raw members).get? slot.name = text?.map .text := by
  apply get?_startMessage_stored known
  intro value isText
  rcases Option.map_eq_some_iff.mp isText with ⟨text, isSome, rfl⟩
  exact ⟨(plain text isSome).normalized?_eq, held text⟩

theorem get?_startMessage_integer {n? : Option Int}
    (known : (slot, n?.map .integer) ∈ knownFields members)
    (held : ∀ n, slot.held? (.integer n) = some (.integer n)) :
    (startMessage .standard raw members).get? slot.name = n?.map .integer := by
  apply get?_startMessage_stored known
  intro value isInteger
  rcases Option.map_eq_some_iff.mp isInteger with ⟨n, -, rfl⟩
  exact ⟨rfl, held n⟩

end Slots

section Known

variable {record : Record} {version? : Option Json} {document : Json.Members}
  (perm : document.Perm (record.entries version?))

include perm

theorem textAt?_of_mem {key : Text} {text? : Option Text}
    (known : (key, text?.map Json.string) ∈ record.knownEntries version?) :
    textAt? document key = text? := by
  rw [textAt?, find?_of_mem perm known]
  cases text? <;> rfl

theorem integerAt?_of_mem {key : Text} {n? : Option Int} {greatest : Int}
    (known : (key, n?.map fun n => Json.number (.integer n)) ∈ record.knownEntries version?)
    (within : ∀ n ∈ n?, 0 ≤ n ∧ n ≤ greatest) (greatest_le : greatest ≤ Text.maxInt64) :
    integerAt? document key greatest = n? := by
  rw [integerAt?, find?_of_mem perm known]
  cases n? with
  | none => rfl
  | some n =>
      have fits := fits_of_le (within n rfl) greatest_le
      obtain ⟨least, le_greatest⟩ := within n rfl
      simp [integer?, numberInteger, fits, least, le_greatest]

theorem mandatory_document :
    check document = .ok () ∧ mainText document = record.shortMessage ∧
      textAt? document hostKey = some record.host := by
  apply check_of_mandatory
  · exact find?_of_mem perm (by simp [knownEntries])
  · exact record.hostFilled
  · exact find?_of_mem perm (by simp [knownEntries])
  · exact record.shortMessageFilled

theorem timestamp_document (raw : RawMessage) : (timestamp raw document).value = raw.received := by
  have absent : document.find? timestampKey = none :=
    find?_of_notMem perm (by decide) (by decide)
  simp [timestamp, absent]

theorem knownFields_document :
    knownFields document =
      [(.fullMessage, record.fullMessage?.map .text), (.file, record.file?.map .text),
        (.line, record.line?.map .integer), (.level, record.level?.map .integer),
        (.facility, record.facility?.map .text)] := by
  have filled {text? : Option Text} (plain : ∀ text ∈ text?, Field.IsPlain text) :
      (text?.filter fun text => !text.isEmpty) = text? := by
    cases text? with
    | none => rfl
    | some text => simp [(plain text rfl).1]
  have fullMessage : textAt? document Slot.fullMessage.name = record.fullMessage? :=
    textAt?_of_mem perm (by simp [knownEntries])
  have file : textAt? document Slot.file.name = record.file? :=
    textAt?_of_mem perm (by simp [knownEntries])
  have facility : textAt? document Slot.facility.name = record.facility? :=
    textAt?_of_mem perm (by simp [knownEntries])
  have line : integerAt? document Slot.line.name maxLine = record.line? :=
    integerAt?_of_mem perm (by simp [knownEntries]) record.lineFits (Int.le_refl _)
  have level : integerAt? document Slot.level.name maxLevel = record.level? :=
    integerAt?_of_mem perm (by simp [knownEntries]) record.levelFits (by decide)
  simp only [knownFields, fullMessage, file, line, level, facility, filled record.filePlain,
    filled record.facilityPlain]

/-- The slots of the message are filled before its further fields are added. -/
theorem get?_startMessage_document (raw : RawMessage) (slot : Slot) :
    (startMessage .standard raw document).get? slot.name =
      (record.message raw.received).slotValue? slot := by
  have known := knownFields_document perm
  obtain ⟨-, mainText_eq, host_eq⟩ := mandatory_document perm
  cases slot with
  | message =>
      rw [get?_message_startMessage, mainText_eq]
      rfl
  | source =>
      rw [get?_source_startMessage, host_eq]
      simp [Option.filter, record.hostFilled, Message.slotValue?, Record.message]
  | timestamp =>
      rw [get?_startMessage_of_ne (by decide), Message.get?_slotName]
      simp [Message.slotValue?, Message.create, Record.message, timestamp_document perm]
  | fullMessage =>
      apply get?_startMessage_text (by simp [known]) record.fullMessagePlain
      exact fun _ => rfl
  | file =>
      apply get?_startMessage_text (by simp [known]) record.filePlain
      exact fun _ => rfl
  | line =>
      apply get?_startMessage_integer (by simp [known, Record.message])
      exact fun _ => rfl
  | level =>
      apply get?_startMessage_integer (by simp [known, Record.message])
      exact fun _ => rfl
  | facility =>
      apply get?_startMessage_text (by simp [known]) record.facilityPlain
      exact fun _ => rfl

end Known

/-! ## Further fields -/

theorem IsPlainValue.value_fieldValue? {value : Field.Value} (plain : IsPlainValue value)
    (name : Text) : (fieldValue? name value.toJson).value = some value := by
  cases value with
  | text text => rfl
  | integer n =>
      have fits : Text.fitsInt64 n = true := plain
      simp [fieldValue?, Field.Value.toJson, fits]
  | double x => contradiction

section Further

variable {field : Text × Field.Value} (further : IsFurther field.1 field.2)

include further

theorem fieldName_fieldEntry : fieldName (fieldEntry field).1 = field.1 := by
  rcases field with ⟨name, value⟩
  cases name with
  | nil => exact absurd rfl (Field.isName_iff.mp further.named).1
  | cons c name => rfl

theorem isPadded_fieldEntry : isPadded (fieldEntry field) = false := by
  rw [isPadded, fieldName_fieldEntry further, (Field.trimmed_of_isName further.named).trim_eq,
    bne_self_eq_false]

theorem isAdditional_fieldEntry : isAdditional (fieldEntry field).1 = true := by
  have handled : ∀ key ∈ handledKeys, key.head? ≠ some '_' := by decide
  have notHandled : (fieldEntry field).1 ∉ handledKeys := fun member => handled _ member rfl
  have notShort : field.1 ≠ shortMessageKey := by
    intro same
    exact further.other (same ▸ by decide)
  have notHost : field.1 ≠ hostKey := by
    intro same
    exact further.other (same ▸ by decide)
  simp [isAdditional, fieldName_fieldEntry further, notHandled, notShort, notHost]

/-- The entry of a further field offers its value to this field. -/
theorem offered?_fieldEntry : offered? .standard (fieldEntry field) = some field.2 := by
  rw [offered?, fieldName_fieldEntry further, isAdditional_fieldEntry further, further.admitted,
    Bool.and_true, if_pos rfl]
  rw [fieldEntry, further.plain.value_fieldValue?, Option.bind_some,
    Message.accepted?_eq further.named further.admitted further.plain.normalized?_eq,
    Message.held?, further.ofName?_eq_none]

theorem offerTo?_fieldEntry (name : Text) :
    offerTo? .standard name (fieldEntry field) = if field.1 = name then some field.2 else none := by
  rw [offerTo?, offered?_fieldEntry further, fieldName_fieldEntry further,
    (Field.trimmed_of_isName further.named).trim_eq]

end Further

/-! ## Messages -/

section Decoded

variable {record : Record} {version? : Option Json} {document : Json.Members}
  (perm : document.Perm (record.entries version?))

theorem Record.tidy_message (record : Record) (received : Instant) :
    (record.message received).Tidy := by
  have further {name : Text} (held : (record.fields.get? name).isSome) :
      ∃ value, IsFurther name value := by
    rcases Option.isSome_iff_exists.mp held with ⟨value, found⟩
    exact ⟨value, record.fieldsFurther _ (NameMap.get?_eq_some_iff.mp found)⟩
  constructor
  · intro name held
    obtain ⟨value, isFurther⟩ := further held
    exact (Field.trimmed_of_isName isFurther.named).trim_eq
  · intro name held
    obtain ⟨value, isFurther⟩ := further held
    exact isFurther.ofName?_eq_none

theorem isAdditional_knownKeys : ∀ key ∈ knownKeys, isAdditional key = false := by
  decide

include perm

/-- The offers of a document are its further fields. -/
theorem get?_eq_of_offerTo? {entry : Text × Json} (member : entry ∈ document) {name : Text}
    {value : Field.Value} (offers : offerTo? .standard name entry = some value) :
    isPadded entry = false ∧ record.fields.get? name = some value := by
  rcases mem_entries (perm.mem_iff.mp member) with known | ⟨field, isField, rfl⟩
  · have isKnown : entry.1 ∈ knownKeys := by
      rw [← map_knownEntries record version?]
      exact List.mem_map_of_mem known
    simp [offerTo?, offered?, isAdditional_knownKeys _ isKnown] at offers
  · have further := record.fieldsFurther field isField
    rw [offerTo?_fieldEntry further] at offers
    split at offers
    · rename_i same
      cases offers
      subst same
      exact ⟨isPadded_fieldEntry further, NameMap.get?_eq_some_iff.mpr isField⟩
    · contradiction

theorem lastPadded?_document (name : Text) : lastPadded? .standard name document = none := by
  rw [lastPadded?, List.findSome?_eq_none_iff]
  intro entry member
  rw [List.mem_reverse, List.mem_filter] at member
  rcases member with ⟨member, padded⟩
  cases offers : offerTo? .standard name entry with
  | none => rfl
  | some value =>
      rw [(get?_eq_of_offerTo? perm member offers).1] at padded
      contradiction

/-- Each further field is offered once, so its first offer is its value. -/
theorem firstUnpadded?_document (name : Text) :
    firstUnpadded? .standard name document = record.fields.get? name := by
  unfold firstUnpadded?
  cases first : (document.filter (!isPadded ·)).findSome? (offerTo? .standard name) with
  | some value =>
      obtain ⟨entry, member, offers⟩ := List.exists_of_findSome?_eq_some first
      exact (get?_eq_of_offerTo? perm (List.mem_filter.mp member).1 offers).2.symm
  | none =>
      cases found : record.fields.get? name with
      | none => rfl
      | some value =>
          have isField := NameMap.get?_eq_some_iff.mp found
          have further := record.fieldsFurther _ isField
          have member : fieldEntry (name, value) ∈ document := by
            rw [perm.mem_iff]
            exact List.mem_append_right _ (List.mem_map_of_mem isField)
          have unpadded : fieldEntry (name, value) ∈ document.filter (!isPadded ·) := by
            simp [member, isPadded_fieldEntry further]
          have offers := List.findSome?_eq_none_iff.mp first _ unpadded
          rw [offerTo?_fieldEntry further, if_pos rfl] at offers
          contradiction

theorem value_toMessage_document (raw : RawMessage) :
    (toMessage .standard raw document).value = record.message raw.received := by
  rw [value_toMessage]
  have startTidy : (startMessage .standard raw document).Tidy := tidy_startMessage
  apply Message.eq_of_get?_eq (tidy_addEntries .standard document startTidy)
    (record.tidy_message raw.received)
  · rw [timestamp_addEntries, timestamp_startMessage, timestamp_document perm]
    rfl
  · intro name
    rw [get?_addEntries .standard startTidy, lastPadded?_document perm, Option.none_or,
      firstUnpadded?_document perm]
    cases found : Slot.ofName? name with
    | none =>
        rw [get?_startMessage_of_notSlot found, Option.none_or, Message.get?, found]
        rfl
    | some slot =>
        have none_eq : record.fields.get? name = none :=
          (record.tidy_message raw.received).additional_eq_none found
        rw [none_eq, Option.or_none, ← Slot.ofName?_eq_some_iff.mp found,
          get?_startMessage_document perm, Message.get?_slotName]

end Decoded

/-! ## Decoding -/

/-- Decoding undoes encoding. The document of a record is printed with its entries in
any order, with or without a version of any kind that can be printed without loss.
The UTF-8 of this text decodes to the message that says the same as the record,
received when the raw message was. -/
theorem decode_encoded_record (record : Record) (version? : Option Json)
    (versionPrintable : ∀ version ∈ version?, Json.Printable (Json.depthLimit - 1) version)
    {document : Json.Members} (perm : document.Perm (record.entries version?))
    (limit : Nat) (raw : RawMessage)
    (payload_eq : raw.payload = (Json.object document).toText.flatMap String.utf8EncodeChar) :
    ((⟨limit, .utf8, .standard⟩ : Decoder).decode raw).value =
      .ok (record.message raw.received) := by
  let decoder : Decoder := ⟨limit, .utf8, .standard⟩
  have text_eq : (Payload.toText raw.payload decoder.limit decoder.charset).value =
      .ok (Json.object document).toText := by
    rw [payload_eq, value_toText_of_uncompressed _ _ (ofPayload?_object document),
      Charset.decode, Charset.Utf8.decode_flatMap]
  have printable : Json.Printable Json.depthLimit (.object document) :=
    printable_document perm versionPrintable
  have read_eq := Json.Document.ofText_toText printable (by simp)
  obtain ⟨value_eq, -⟩ := decode_of_document text_eq read_eq
  rw [value_eq, value_decodeDocument]
  simp only [Json.members, (mandatory_document perm).1]
  exact congrArg Except.ok (value_toMessage_document perm raw)

/-- A record with characters that are escaped, and with a field whose name looks like
a key of the protocol. -/
def sampleRecord : Record where
  host := "h".toList
  shortMessage := " \"m\"\n".toList
  fullMessage? := none
  file? := some "\\".toList
  line? := some 7
  level? := none
  facility? := none
  fields := ⟨[("_host".toList, .integer (-1)), ("version".toList, .text "v".toList)], by decide⟩
  hostFilled := by decide
  shortMessageFilled := by decide
  fullMessagePlain := nofun
  filePlain := by
    rintro text ⟨⟩
    exact ⟨by decide, Text.trimmed_iff.mpr (by decide)⟩
  lineFits := by
    rintro n ⟨⟩
    decide
  levelFits := nofun
  facilityPlain := nofun
  fieldsFurther := by
    have plain : Field.IsPlain "v".toList := ⟨by decide, Text.trimmed_iff.mpr (by decide)⟩
    have fits : Text.fitsInt64 (-1) = true := by decide
    rw [List.forall_mem_cons, List.forall_mem_singleton]
    exact ⟨⟨by decide, by decide, by decide, fits⟩, ⟨by decide, by decide, by decide, plain⟩⟩

/-- The document of the sample, with the fields first. -/
theorem decode_encoded_sampleRecord :
    let version : Json := .string "1.1".toList
    let document := (sampleRecord.entries (some version)).reverse
    let raw : RawMessage :=
      ⟨.nil, (Json.object document).toText.flatMap String.utf8EncodeChar, none, ⟨0, 0⟩⟩
    (Json.object document).toText =
        ("\x7b\"_version\":\"v\",\"__host\":-1,\"line\":7,\"file\":\"\\\\\"," ++
          "\"short_message\":\" \\\"m\\\"\\n\",\"host\":\"h\",\"version\":\"1.1\"\x7d").toList ∧
      ((⟨0, .utf8, .standard⟩ : Decoder).decode raw).value = .ok (sampleRecord.message ⟨0, 0⟩) := by
  intro version document raw
  constructor
  · decide +kernel
  · refine decode_encoded_record sampleRecord (some version) ?_ (List.reverse_perm _) 0 raw rfl
    rintro _ ⟨⟩
    exact .string _

end LogIntake.Gelf
