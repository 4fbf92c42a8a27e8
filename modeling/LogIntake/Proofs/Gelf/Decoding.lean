import LogIntake.Gelf.Decoder
import LogIntake.Proofs.Charset.Utf8
import LogIntake.Proofs.Logged

/-!
# What decoding gives and notes

A payload with a first document decodes as this document: to a message, or to the
first violation of its mandatory entries. Decoding notes the loss of a document once
if another one follows the first, and never otherwise.
-/

namespace LogIntake.Gelf

/-! ## Events other than losses -/

/-- Nothing that a computation notes is the loss of a document. -/
abbrev Lossless {α : Type} (logged : Logged α) : Prop :=
  logged.Notes fun event => event.isDrop = false

variable {policy : Field.Policy} {raw : RawMessage} {members : Json.Members}

theorem Lossless.filter_events {α : Type} {logged : Logged α} (lossless : Lossless logged) :
    logged.events.filter Event.isDrop = [] := by
  rw [List.filter_eq_nil_iff]
  exact fun event member => by simp [lossless event member]

theorem lossless_addField (name : Text) (value : Field.Value) (message : Message) :
    Lossless (addField policy name value message) := by
  unfold addField
  split
  · exact Logged.notes_pure _
  · rename_i refusal _
    cases refusal <;> simp [Logged.Notes, Event.ofRefusal?, Event.isDrop]

theorem lossless_fieldValue? (name : Text) (value : Json) : Lossless (fieldValue? name value) := by
  unfold fieldValue?
  split
  all_goals first
    | exact Logged.notes_pure _
    | exact Logged.Notes.note_bind rfl (Logged.notes_pure _)

theorem lossless_addEntry (message : Message) (entry : Text × Json) :
    Lossless (addEntry policy message entry) := by
  unfold addEntry
  dsimp only
  split
  · refine (lossless_fieldValue? _ _).bind ?_
    split
    · exact lossless_addField _ _ _
    · exact Logged.notes_pure _
  · exact Logged.notes_pure _

theorem lossless_seconds? (value : Json) : Lossless (seconds? value) := by
  unfold seconds?
  split
  · exact Logged.notes_pure _
  · split
    · exact Logged.notes_pure _
    · exact Logged.Notes.note_bind rfl (Logged.notes_pure _)
  · exact Logged.notes_pure _

theorem lossless_timestamp : Lossless (timestamp raw members) := by
  unfold timestamp
  refine Logged.Notes.bind ?_ ?_
  · cases members.find? timestampKey with
    | none => exact Logged.notes_pure _
    | some value => exact lossless_seconds? value
  · split
    · exact Logged.notes_pure _
    · split
      · exact Logged.notes_pure _
      · exact Logged.Notes.note_bind rfl (Logged.notes_pure _)

theorem lossless_toMessage : Lossless (toMessage policy raw members) := by
  unfold toMessage
  refine lossless_timestamp.bind (Logged.Notes.bind ?_ ?_)
  · refine Logged.Notes.foldlM (fun message known _ => ?_) _
    rcases known with ⟨slot, value?⟩
    cases value? with
    | none => exact Logged.notes_pure _
    | some value => exact lossless_addField _ _ _
  · exact Logged.Notes.foldlM (fun message entry _ => lossless_addEntry message entry) _

theorem lossless_examine : Lossless (examine raw members) := by
  unfold examine
  refine Logged.Notes.bind ?_ ?_
  · unfold noteHost
    split
    · exact Logged.notes_note.mpr rfl
    · exact Logged.notes_pure _
  · split
    · exact Logged.notes_pure _
    · refine Logged.Notes.bind ?_ (Logged.notes_pure _)
      unfold noteTimestamp
      split
      all_goals first
        | exact Logged.notes_pure _
        | exact Logged.notes_note.mpr rfl

theorem lossless_toText (payload : List UInt8) (limit : Nat) (charset : Charset) :
    Lossless (Payload.toText payload limit charset) := by
  unfold Payload.toText
  split
  · exact Logged.notes_pure _
  · exact Logged.Notes.note_bind rfl (Logged.notes_pure _)

/-! ## What decoding gives -/

/-- A payload has a text if its framing can be told and its bytes can be had, and the
text is what these hold in the charset. -/
theorem toText_eq_ok_iff {payload : List UInt8} {limit : Nat} {charset : Charset} {text : Text} :
    (Payload.toText payload limit charset).value = .ok text ↔
      ∃ framing bytes, Payload.framing payload = .ok framing ∧
        Payload.inflated framing limit payload = .ok bytes ∧ charset.decode bytes = text := by
  unfold Payload.toText
  cases Payload.framing payload with
  | error error => simp
  | ok framing =>
      cases inflated_eq : Payload.inflated framing limit payload <;> simp [Except.map, inflated_eq]

/-- Plain payloads are not bounded. -/
theorem value_toText_of_uncompressed {payload : List UInt8} (limit : Nat) (charset : Charset)
    (framing_eq : Framing.ofPayload? payload = some .uncompressed) :
    (Payload.toText payload limit charset).value = .ok (charset.decode payload) := by
  simp [Payload.toText, Payload.framing, framing_eq, Payload.inflated, Except.map]

theorem value_examine : (examine raw members).value = check members := by
  unfold examine
  cases check members <;> simp

/-- Documents with a host and a short message pass the check, and these are what the
message starts from. -/
theorem check_of_mandatory {host shortMessage : Text}
    (hasHost : members.find? hostKey = some (.string host))
    (hostFilled : host.isBlank = false)
    (hasShort : members.find? shortMessageKey = some (.string shortMessage))
    (shortFilled : shortMessage.isBlank = false) :
    check members = .ok () ∧ mainText members = shortMessage ∧
      textAt? members hostKey = some host := by
  refine ⟨?_, ?_, ?_⟩
  · simp [check, hasHost, checkHost, hostFilled, hasShort, checkMessage, shortFilled, bind,
      Except.bind]
  · simp [mainText, textAt?, hasShort, scalarText, Option.filter, shortFilled]
  · simp [textAt?, hasHost, scalarText]

/-- A document decodes to a message, or to the first violation of its mandatory
entries. -/
theorem value_decodeDocument (text : Text) (document : Json.Document) :
    (decodeDocument policy raw text document).value =
      match check document.value.members with
      | .error violation => .error (.validation raw (violation.message raw) text)
      | .ok () => .ok (toMessage policy raw document.value.members).value := by
  unfold decodeDocument
  cases document.isFollowed <;>
    · simp only [if_true, Bool.false_eq_true, if_false, Logged.value_bind, value_examine]
      cases check document.value.members <;> rfl

/-- Decoding a document counts a loss when another one follows. -/
theorem filter_events_decodeDocument (text : Text) (document : Json.Document) :
    (decodeDocument policy raw text document).events.filter Event.isDrop =
      if document.isFollowed then [.fragmentDropped raw] else [] := by
  have decoded : Lossless (do
      match ← examine raw document.value.members with
      | .error violation =>
        pure (.error (DecodingError.validation raw (violation.message raw) text))
      | .ok () => do
        let message ← toMessage policy raw document.value.members
        pure (.ok message) : Logged (Except DecodingError Message)) := by
    apply lossless_examine.bind
    split
    · exact Logged.notes_pure _
    · exact lossless_toMessage.bind (Logged.notes_pure _)
  unfold decodeDocument
  cases document.isFollowed with
  | true => exact congrArg (Event.fragmentDropped raw :: ·) decoded.filter_events
  | false => exact decoded.filter_events

/-- The time of receipt is all that a timestamp takes from a raw message. -/
theorem value_timestamp_congr {other : RawMessage} (received_eq : other.received = raw.received) :
    (timestamp other members).value = (timestamp raw members).value := by
  unfold timestamp
  simp only [Logged.value_bind]
  split
  · exact received_eq
  · split
    · rfl
    · exact received_eq

theorem value_toMessage_congr {other : RawMessage} (received_eq : other.received = raw.received) :
    (toMessage policy other members).value = (toMessage policy raw members).value := by
  unfold toMessage
  simp only [Logged.value_bind, value_timestamp_congr received_eq]

/-- The payload plays no part in what a document decodes to. -/
theorem value_decodeDocument_congr {other : RawMessage}
    (same : other = { raw with payload := other.payload }) (text : Text)
    (document : Json.Document) :
    (decodeDocument policy other text document).value =
      (decodeDocument policy raw text document).value := by
  have received_eq : other.received = raw.received := by
    rw [same]
  have error_eq (violation : Violation) :
      DecodingError.validation other (violation.message other) text =
        .validation raw (violation.message raw) text := by
    rw [same]
    rfl
  simp only [value_decodeDocument, error_eq, value_toMessage_congr received_eq]

/-- The three stages of decoding, of which each fails with an error of its own. -/
theorem value_decode (decoder : Decoder) (raw : RawMessage) :
    (decoder.decode raw).value =
      match (Payload.toText raw.payload decoder.limit decoder.charset).value with
      | .error error => .error (.payload raw error.message)
      | .ok text =>
        match Json.Document.ofText text with
        | .error error => .error (.parsing raw (syntaxReason error) text)
        | .ok document => (decodeDocument decoder.policy raw text document).value := by
  unfold Decoder.decode decodeText
  rw [Logged.value_bind]
  cases (Payload.toText raw.payload decoder.limit decoder.charset).value with
  | error error => rfl
  | ok text =>
      dsimp only
      rw [Logged.value_bind]
      cases Json.Document.ofText text <;> rfl

/-- A payload with a text that has a first document decodes as this document. -/
theorem decode_of_document {decoder : Decoder} {text : Text} {document : Json.Document}
    (text_eq : (Payload.toText raw.payload decoder.limit decoder.charset).value = .ok text)
    (read_eq : Json.Document.ofText text = .ok document) :
    (decoder.decode raw).value = (decodeDocument decoder.policy raw text document).value ∧
      (decoder.decode raw).events.filter Event.isDrop =
        (decodeDocument decoder.policy raw text document).events.filter Event.isDrop := by
  constructor
  · simp only [value_decode, text_eq, read_eq]
  · unfold Decoder.decode decodeText
    simp only [Logged.events_bind, text_eq, read_eq, List.filter_append,
      (lossless_toText _ _ _).filter_events, List.nil_append]
    rfl

/-- A payload with a document that passes the check decodes to the message of the
document. -/
theorem decode_of_checked {decoder : Decoder} {text : Text} {document : Json.Document}
    (text_eq : (Payload.toText raw.payload decoder.limit decoder.charset).value = .ok text)
    (read_eq : Json.Document.ofText text = .ok document)
    (checked : check document.value.members = .ok ()) :
    (decoder.decode raw).value =
      .ok (toMessage decoder.policy raw document.value.members).value := by
  rw [(decode_of_document text_eq read_eq).1, value_decodeDocument, checked]

/-- A text without a document is an error in the form of the text. -/
theorem decode_of_unreadable {decoder : Decoder} {text : Text} {error : Json.Document.Error}
    (text_eq : (Payload.toText raw.payload decoder.limit decoder.charset).value = .ok text)
    (read_eq : Json.Document.ofText text = .error error) :
    (decoder.decode raw).value = .error (.parsing raw (syntaxReason error) text) := by
  simp only [value_decode, text_eq, read_eq]

/-- Payloads of fewer than two bytes have no text. -/
theorem decode_of_short {decoder : Decoder} (short : raw.payload.length < 2) :
    (decoder.decode raw).value = .error (.payload raw Payload.Error.tooShort.message) := by
  have text_eq : (Payload.toText raw.payload decoder.limit decoder.charset).value =
      .error .tooShort := by
    match raw.payload, short with
    | [], _ | [_], _ => rfl
  simp only [value_decode, text_eq]

/-- Decoding ends in one of four ways, by what is found in its three stages. -/
theorem decode_cases (decoder : Decoder) (raw : RawMessage) :
    let text? := (Payload.toText raw.payload decoder.limit decoder.charset).value
    let outcome := (decoder.decode raw).value
    (∃ fault, text? = .error fault ∧ outcome = .error (.payload raw fault.message)) ∨
      (∃ text fault, text? = .ok text ∧ Json.Document.ofText text = .error fault ∧
        outcome = .error (.parsing raw (syntaxReason fault) text)) ∨
      (∃ text document violation, text? = .ok text ∧
        Json.Document.ofText text = .ok document ∧
        check document.value.members = .error violation ∧
        outcome = .error (.validation raw (violation.message raw) text)) ∨
      ∃ text document, text? = .ok text ∧ Json.Document.ofText text = .ok document ∧
        check document.value.members = .ok () ∧
        outcome = .ok (toMessage decoder.policy raw document.value.members).value := by
  intro text? outcome
  have outcome_eq : outcome = _ := value_decode decoder raw
  cases text_eq : (Payload.toText raw.payload decoder.limit decoder.charset).value with
  | error fault =>
      rw [text_eq] at outcome_eq
      exact .inl ⟨fault, text_eq, outcome_eq⟩
  | ok text =>
      simp only [text_eq] at outcome_eq
      cases read_eq : Json.Document.ofText text with
      | error fault =>
          rw [read_eq] at outcome_eq
          exact .inr (.inl ⟨text, fault, text_eq, read_eq, outcome_eq⟩)
      | ok document =>
          simp only [read_eq, value_decodeDocument] at outcome_eq
          cases checked : check document.value.members with
          | error violation =>
              rw [checked] at outcome_eq
              exact .inr (.inr (.inl ⟨text, document, violation, text_eq, read_eq, checked,
                outcome_eq⟩))
          | ok _ =>
              rw [checked] at outcome_eq
              exact .inr (.inr (.inr ⟨text, document, text_eq, read_eq, checked, outcome_eq⟩))

/-- A payload that is decoded has a text with a document that passes the check. -/
theorem exists_document_of_decode {decoder : Decoder} {message : Message}
    (decoded : (decoder.decode raw).value = .ok message) :
    ∃ text document,
      (Payload.toText raw.payload decoder.limit decoder.charset).value = .ok text ∧
        Json.Document.ofText text = .ok document ∧ check document.value.members = .ok () ∧
        message = (toMessage decoder.policy raw document.value.members).value := by
  rcases decode_cases decoder raw with
    ⟨_, _, failed⟩ | ⟨_, _, _, _, failed⟩ | ⟨_, _, _, _, _, _, failed⟩ |
      ⟨text, document, text_eq, read_eq, checked, succeeded⟩
  · simp [decoded] at failed
  · simp [decoded] at failed
  · simp [decoded] at failed
  · exact ⟨text, document, text_eq, read_eq, checked,
      Except.ok.inj (decoded.symm.trans succeeded)⟩

/-! ## Raw messages of ASCII texts -/

/-- A raw message whose payload is the given text of ASCII characters. -/
def rawOf (document : Text) : RawMessage :=
  ⟨.nil, document.map fun c => UInt8.ofNat c.toNat, none, ⟨0, 0⟩⟩

theorem decode_payload_rawOf {document : Text} (ascii : ∀ c ∈ document, c.toNat < 0x80) :
    Charset.utf8.decode (rawOf document).payload = document := by
  induction document with
  | nil => rfl
  | cons c rest ih =>
      obtain ⟨ascii, asciiRest⟩ := List.forall_mem_cons.mp ascii
      have byte_eq : (UInt8.ofNat c.toNat).toNat = c.toNat :=
        UInt8.toNat_ofNat_of_lt' (Nat.lt_trans ascii (by decide))
      calc
        Charset.utf8.decode (rawOf (c :: rest)).payload
            = Char.ofNat (UInt8.ofNat c.toNat).toNat ::
                Charset.utf8.decode (rawOf rest).payload :=
          Charset.Utf8.decode_cons_of_ascii (byte_eq.symm ▸ ascii) _
        _ = c :: rest := by rw [byte_eq, Char.ofNat_toNat, ih asciiRest]

/-- A text of ASCII characters that starts like an object with entries. -/
def opensPlainly (document : Text) : Bool :=
  document.take 2 == ['\x7b', '"'] && document.all (·.toNat < 0x80)

/-- Such a text is that of its raw message. -/
theorem value_toText_rawOf {document : Text} (opens : opensPlainly document = true)
    (limit : Nat) :
    (Payload.toText (rawOf document).payload limit .utf8).value = .ok document := by
  rw [opensPlainly, Bool.and_eq_true, beq_iff_eq, List.all_eq_true] at opens
  obtain ⟨start_eq, ascii⟩ := opens
  have framing_eq : Framing.ofPayload? (rawOf document).payload = some .uncompressed := by
    obtain ⟨rest, rfl⟩ : ∃ rest, document = '\x7b' :: '"' :: rest :=
      ⟨_, by rw [← List.take_append_drop 2 document, start_eq]; rfl⟩
    rfl
  rw [value_toText_of_uncompressed limit .utf8 framing_eq,
    decode_payload_rawOf fun c member => by simpa using ascii c member]

end LogIntake.Gelf
