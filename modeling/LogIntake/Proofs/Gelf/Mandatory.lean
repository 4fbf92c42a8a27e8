import LogIntake.Proofs.Gelf.Decoding
import LogIntake.Proofs.Gelf.Fields
import LogIntake.Proofs.Json.Scanning

/-!
# Mandatory entries

Which documents decode is a matter of three entries: the host may be missing but is a
text otherwise, and the short message is a text unless a message stands in for it. A
blank short message needs a message that is a number, a boolean or a text with
something in it; without a short message, only a text will do.

Decoding fails in the stage in which its input is found wrong, and in no other. What
it gives has a text that is not blank, and so is the source if there is one: further
entries may replace both, but values that are stored are never blank.
-/

namespace LogIntake.Gelf

/-! ## Admissible documents -/

/-- A string with a character that is not a blank. -/
def IsFilledString (value : Json) : Prop :=
  ∃ text, value = .string text ∧ text.isBlank = false

/-- What makes up for a blank short message. -/
def IsSubstitute (value : Json) : Prop :=
  IsFilledString value ∨ (∃ n, value = .number n) ∨ ∃ truth, value = .bool truth

/-- A host is missing or a text with something in it. -/
def HostAdmissible (host? : Option Json) : Prop :=
  ∀ host, host? = some host → IsFilledString host

/-- A short message is a text with something in it, or a blank one with a substitute;
without a short message, the message is a text with something in it. -/
def MessageAdmissible (shortMessage? message? : Option Json) : Prop :=
  (∃ shortMessage, shortMessage? = some (.string shortMessage) ∧
    (shortMessage.isBlank = false ∨ ∃ message, message? = some message ∧ IsSubstitute message)) ∨
  (shortMessage? = none ∧ ∃ message, message? = some message ∧ IsFilledString message)

/-- The documents that decode. -/
def Admissible (value : Json) : Prop :=
  ∃ members : Json.Members, value = .object members ∧ HostAdmissible (members.find? hostKey) ∧
    MessageAdmissible (members.find? shortMessageKey) (members.find? messageKey)

/-! ## The check -/

theorem isBlank_of_unbroken {text : Text} (unbroken : Text.Unbroken text) :
    text.isBlank = false :=
  unbroken.isPlain.isBlank_eq

/-- Numbers and booleans always have a text. -/
theorem isBlank_scalarText_iff {value : Json} :
    (scalarText value).isBlank = false ↔ IsSubstitute value := by
  unfold IsSubstitute IsFilledString
  cases value with
  | string text => simp [scalarText]
  | number n => simp [scalarText, isBlank_of_unbroken n.unbroken_toText]
  | bool truth => cases truth <;> simp [scalarText, Text.isBlank, Text.isBlankChar]
  | null => simp [scalarText, Text.isBlank]
  | array elements => simp [scalarText, Text.isBlank]
  | object members => simp [scalarText, Text.isBlank]

theorem isFilled_iff {message? : Option Json} :
    isFilled message? = true ↔ ∃ message, message? = some message ∧ IsSubstitute message := by
  cases message? with
  | none => simp [isFilled]
  | some message => simp [isFilled, isBlank_scalarText_iff]

theorem checkHost_eq_ok_iff {host? : Option Json} :
    checkHost host? = .ok () ↔ HostAdmissible host? := by
  unfold HostAdmissible IsFilledString
  cases host? with
  | none => simp [checkHost]
  | some host =>
      cases host with
      | string text => cases blank : text.isBlank <;> simp [checkHost, blank]
      | _ => simp [checkHost]

theorem checkMessage_eq_ok_iff {shortMessage? message? : Option Json} :
    checkMessage shortMessage? message? = .ok () ↔ MessageAdmissible shortMessage? message? := by
  unfold MessageAdmissible
  rw [← isFilled_iff]
  cases shortMessage? with
  | some shortMessage =>
      cases shortMessage with
      | string text =>
          cases blank : text.isBlank <;> cases filled : isFilled message? <;>
            simp [checkMessage, blank, filled]
      | _ => simp [checkMessage]
  | none =>
      cases message? with
      | none => simp [checkMessage]
      | some message =>
          cases message with
          | string text =>
              cases blank : text.isBlank <;> simp [checkMessage, blank, IsFilledString]
          | _ => simp [checkMessage, IsFilledString]

theorem check_eq_ok_iff {members : Json.Members} :
    check members = .ok () ↔ HostAdmissible (members.find? hostKey) ∧
      MessageAdmissible (members.find? shortMessageKey) (members.find? messageKey) := by
  rw [← checkHost_eq_ok_iff, ← checkMessage_eq_ok_iff]
  unfold check
  cases checkHost (members.find? hostKey) <;> simp [bind, Except.bind]

/-- A document that is no object has no mandatory entries. -/
theorem check_members_eq_ok_iff {value : Json} :
    check value.members = .ok () ↔ Admissible value := by
  unfold Admissible
  cases value with
  | object members => simp [Json.members, check_eq_ok_iff]
  | _ =>
      rw [check_eq_ok_iff]
      simp [Json.members, Json.Members.find?, MessageAdmissible]

/-! ## Texts and sources -/

variable {policy : Field.Policy} {raw : RawMessage} {members : Json.Members}

/-- Every entry but null has a text. -/
theorem textAt?_eq_some {key : Text} {value : Json} (has : members.find? key = some value)
    (notNull : value ≠ .null) : textAt? members key = some (scalarText value) := by
  unfold textAt?
  rw [has]
  cases value <;> first | rfl | contradiction

/-- The main text of a document that passes the check is not blank. -/
theorem isBlank_mainText (checked : check members = .ok ()) :
    (mainText members).isBlank = false := by
  obtain ⟨-, short | missing⟩ := check_eq_ok_iff.mp checked
  · obtain ⟨shortMessage, hasShort, filled⟩ := short
    have shortText := textAt?_eq_some hasShort Json.noConfusion
    cases blank : shortMessage.isBlank with
    | false => simp [mainText, shortText, scalarText, Option.filter, blank]
    | true =>
        obtain ⟨message, hasMessage, substitute⟩ := filled.resolve_left (by simp [blank])
        have notBlank := isBlank_scalarText_iff.mpr substitute
        have notNull : message ≠ .null := by
          rintro rfl
          contradiction
        simp only [mainText, shortText, scalarText, Option.filter, blank,
          textAt?_eq_some hasMessage notNull, Option.getD_some]
        exact notBlank
  · obtain ⟨noShort, message, hasMessage, text, rfl, filled⟩ := missing
    have noText : textAt? members shortMessageKey = none := by simp [textAt?, noShort]
    have messageText := textAt?_eq_some hasMessage Json.noConfusion
    simp [mainText, noText, messageText, scalarText, filled]

/-- A text of a field is not blank, whether it is there from the start or has been
offered by an entry. -/
theorem isBlank_of_get?_toMessage {name text : Text}
    (startFilled : ∀ text, (startMessage policy raw members).get? name = some (.text text) →
      text.isBlank = false)
    (present : (toMessage policy raw members).value.get? name = some (.text text)) :
    text.isBlank = false := by
  rw [value_toMessage] at present
  rcases get?_addEntries_cases tidy_startMessage present with start | ⟨entry, -, offer⟩
  · exact startFilled text start
  · exact (isPlain_of_offerTo? offer).isBlank_eq

/-- The text of a message from a document that passes the check is not blank, and
neither is its source. -/
theorem isBlank_toMessage (checked : check members = .ok ()) :
    (toMessage policy raw members).value.text.isBlank = false ∧
      ∀ source, (toMessage policy raw members).value.source? = some source →
        source.isBlank = false := by
  have slotHeld := Message.get?_slotName (toMessage policy raw members).value
  constructor
  · refine isBlank_of_get?_toMessage (fun text start => ?_) (slotHeld .message)
    rw [get?_message_startMessage] at start
    cases start
    exact isBlank_mainText checked
  · intro source isSource
    have sourceHeld := slotHeld .source
    simp only [Message.slotValue?, isSource, Option.map_some] at sourceHeld
    refine isBlank_of_get?_toMessage (fun text start => ?_) sourceHeld
    rw [get?_source_startMessage, Option.map_eq_some_iff] at start
    obtain ⟨host, filtered, same⟩ := start
    cases same
    simpa using (Option.filter_eq_some_iff.mp filtered).2

/-! ## Outcomes -/

/-- Decoding fails in the given stage. -/
def FailsIn (outcome : Except DecodingError Message) (stage : Stage) : Prop :=
  ∃ error, outcome = .error error ∧ error.stage = stage

variable (decoder : Decoder) (raw)

theorem failsIn_payload_iff :
    FailsIn (decoder.decode raw).value .payload ↔
      ∃ fault, (Payload.toText raw.payload decoder.limit decoder.charset).value = .error fault := by
  rcases decode_cases decoder raw with
    ⟨_, text_eq, failed⟩ | ⟨_, _, text_eq, -, failed⟩ | ⟨_, _, _, text_eq, -, -, failed⟩ |
      ⟨_, _, text_eq, -, -, decoded⟩
  · simp [FailsIn, text_eq, failed, DecodingError.payload]
  · simp [FailsIn, text_eq, failed, DecodingError.parsing]
  · simp [FailsIn, text_eq, failed, DecodingError.validation]
  · simp [FailsIn, text_eq, decoded]

theorem failsIn_parsing_iff :
    FailsIn (decoder.decode raw).value .parsing ↔
      ∃ text fault,
        (Payload.toText raw.payload decoder.limit decoder.charset).value = .ok text ∧
          Json.Document.ofText text = .error fault := by
  rcases decode_cases decoder raw with
    ⟨_, text_eq, failed⟩ | ⟨_, _, text_eq, read_eq, failed⟩ |
      ⟨_, _, _, text_eq, read_eq, -, failed⟩ | ⟨_, _, text_eq, read_eq, -, decoded⟩
  · simp [FailsIn, text_eq, failed, DecodingError.payload]
  · simp [FailsIn, text_eq, read_eq, failed, DecodingError.parsing]
  · simp [FailsIn, text_eq, read_eq, failed, DecodingError.validation]
  · simp [FailsIn, text_eq, read_eq, decoded]

/-- Errors name the raw message and hold the text of the payload if there is one. -/
theorem context_of_error {error : DecodingError}
    (failed : (decoder.decode raw).value = .error error) :
    error.id = raw.id ∧ error.remote? = raw.remote? ∧
      error.rawText? =
        (Payload.toText raw.payload decoder.limit decoder.charset).value.toOption ∧
      (error.stage = .payload ↔ error.rawText? = none) := by
  rcases decode_cases decoder raw with
    ⟨_, text_eq, outcome⟩ | ⟨_, _, text_eq, -, outcome⟩ | ⟨_, _, _, text_eq, -, -, outcome⟩ |
      ⟨_, _, _, -, -, outcome⟩
  · cases failed.symm.trans outcome
    simp [DecodingError.payload, text_eq, Except.toOption]
  · cases failed.symm.trans outcome
    simp [DecodingError.parsing, text_eq, Except.toOption]
  · cases failed.symm.trans outcome
    simp [DecodingError.validation, text_eq, Except.toOption]
  · cases failed.symm.trans outcome

variable {decoder raw}

/-- A text with a document decodes if the document is admissible, and fails for what it
says otherwise. -/
theorem decodes_iff_admissible {text : Text} {document : Json.Document}
    (text_eq : (Payload.toText raw.payload decoder.limit decoder.charset).value = .ok text)
    (read_eq : Json.Document.ofText text = .ok document) :
    ((∃ message, (decoder.decode raw).value = .ok message) ↔ Admissible document.value) ∧
      (FailsIn (decoder.decode raw).value .validation ↔ ¬ Admissible document.value) := by
  rw [← check_members_eq_ok_iff, (decode_of_document text_eq read_eq).1, value_decodeDocument]
  cases check document.value.members with
  | error violation => simp [FailsIn, DecodingError.validation]
  | ok _ => simp [FailsIn]

/-- Decoding fails for the payload when it has no text, for the form when the text has
no document, and otherwise decodes exactly the admissible documents. Errors name the
raw message and hold the text that was decoded from the payload, if it came to that.
What is decoded has a text, and a source if any, with something in it. -/
theorem outcome_by_mandatory_entries (decoder : Decoder) (raw : RawMessage) :
    let text? := (Payload.toText raw.payload decoder.limit decoder.charset).value
    let outcome := (decoder.decode raw).value
    (FailsIn outcome .payload ↔ ∃ fault, text? = .error fault) ∧
      (FailsIn outcome .parsing ↔
        ∃ text fault, text? = .ok text ∧ Json.Document.ofText text = .error fault) ∧
      (∀ text document, text? = .ok text → Json.Document.ofText text = .ok document →
        ((∃ message, outcome = .ok message) ↔ Admissible document.value) ∧
          (FailsIn outcome .validation ↔ ¬ Admissible document.value)) ∧
      (∀ error, outcome = .error error → error.id = raw.id ∧ error.remote? = raw.remote? ∧
        (error.stage = .payload → error.rawText? = none) ∧
        (error.stage ≠ .payload → ∃ framing bytes,
          Payload.framing raw.payload = .ok framing ∧
            Payload.inflated framing decoder.limit raw.payload = .ok bytes ∧
            error.rawText? = some (decoder.charset.decode bytes))) ∧
      ∀ message, outcome = .ok message → message.text.isBlank = false ∧
        ∀ source, message.source? = some source → source.isBlank = false := by
  intro text? outcome
  refine ⟨failsIn_payload_iff raw decoder, failsIn_parsing_iff raw decoder,
    fun _ _ => decodes_iff_admissible, fun error failed => ?_, fun message decoded => ?_⟩
  · obtain ⟨id_eq, remote_eq, rawText_eq, withoutText⟩ := context_of_error raw decoder failed
    refine ⟨id_eq, remote_eq, withoutText.mp, fun later => ?_⟩
    cases text_eq : text? with
    | error fault =>
        have noText : error.rawText? = none := by
          rw [rawText_eq]
          exact congrArg Except.toOption text_eq
        exact absurd (withoutText.mpr noText) later
    | ok text =>
        obtain ⟨framing, bytes, framing_eq, inflated_eq, rfl⟩ := toText_eq_ok_iff.mp text_eq
        exact ⟨framing, bytes, framing_eq, inflated_eq,
          rawText_eq.trans (congrArg Except.toOption text_eq)⟩
  · obtain ⟨_, _, -, -, checked, rfl⟩ := exists_document_of_decode decoded
    exact isBlank_toMessage checked

/-- A number makes up for a blank short message, and the host may be missing. -/
theorem outcome_of_substituted_message :
    let document : Text := "\x7b\"short_message\":\" \",\"message\":5\x7d".toList
    let raw : RawMessage := ⟨.nil, document.map fun c => UInt8.ofNat c.toNat, none, ⟨0, 0⟩⟩
    ∃ message, ((⟨64, .utf8, .standard⟩ : Decoder).decode raw).value = .ok message ∧
      message.text.isBlank = false := by
  intro document raw
  have text_eq : (Payload.toText raw.payload 64 .utf8).value = .ok document :=
    Json.toOption_eq_some_iff.mp (by decide +kernel)
  have read_eq : Json.Document.ofText document = .ok
      ⟨.object [(shortMessageKey, .string [' ']), (messageKey, .number (.integer 5))], false⟩ :=
    Json.toOption_eq_some_iff.mp (by decide +kernel)
  obtain ⟨-, -, decides, -, filled⟩ :=
    outcome_by_mandatory_entries ⟨64, .utf8, .standard⟩ raw
  obtain ⟨message, decoded⟩ := (decides document _ text_eq read_eq).1.mpr
    ⟨_, rfl, nofun, .inl ⟨[' '], rfl, .inr ⟨_, rfl, .inr (.inl ⟨_, rfl⟩)⟩⟩⟩
  exact ⟨message, decoded, (filled message decoded).1⟩

end LogIntake.Gelf
