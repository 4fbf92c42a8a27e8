import LogIntake.Proofs.Gelf.Codec
import LogIntake.Proofs.Json.Scanning

/-!
# What decides the timestamp

The timestamp of a message is the instant that the entry under its key gives, or else the
time of receipt. No other entry has a part in it: under whatever key a value comes, it is
set as a field, and a field that has been set leaves the timestamp as it is. Framing,
charset and policy have no part in it either.
-/

namespace LogIntake.Gelf

/-- The instant that the value of an entry gives, if it gives one: that of its seconds, as
long as they are positive and lie in the calendar. -/
def instantOf? (json : Json) : Option Instant :=
  ((seconds? json).value.filter Binary64.isPositive).bind instantOfSeconds?

/-- Entries that are absent or have a value without seconds. -/
inductive Timeless : Option Json → Prop
  | absent : Timeless none
  | null : Timeless (some .null)
  | bool (value : Bool) : Timeless (some (.bool value))
  | array (elements : List Json) : Timeless (some (.array elements))
  | object (members : Json.Members) : Timeless (some (.object members))

theorem Timeless.bind_instantOf? {given? : Option Json} (timeless : Timeless given?) :
    given?.bind instantOf? = none := by
  cases timeless <;> rfl

/-- The timestamp of a document is that of the entry under its key, or else the time of
receipt. -/
theorem value_timestamp (raw : RawMessage) (members : Json.Members) :
    (timestamp raw members).value =
      ((members.find? timestampKey).bind instantOf?).getD raw.received := by
  unfold timestamp
  rw [Logged.value_bind]
  cases members.find? timestampKey with
  | none => rfl
  | some json =>
      rw [Option.elim_some, Option.bind_some, instantOf?]
      cases (seconds? json).value.filter Binary64.isPositive with
      | none => rfl
      | some seconds =>
          rw [Option.bind_some]
          dsimp only
          cases instantOfSeconds? seconds <;> rfl

/-- The changes that a document makes to a message, and those of the source, leave the
timestamp as it is. -/
theorem exists_timestamp_of_decode {codec : Codec} {raw : RawMessage} {message : Message}
    (decoded : (codec.decode raw).value = .ok message) :
    ∃ text document,
      (Payload.toText raw.payload codec.limit codec.settings.charset).value = .ok text ∧
        Json.Document.ofText text = .ok document ∧
        message.timestamp =
          ((document.value.members.find? timestampKey).bind instantOf?).getD raw.received := by
  obtain ⟨unsettled, unsettled_eq, rfl⟩ := Codec.exists_decoded decoded
  obtain ⟨text, document, text_eq, read_eq, -, rfl⟩ := exists_document_of_decode unsettled_eq
  refine ⟨text, document, text_eq, read_eq, ?_⟩
  rw [(codec.settings.changesTo_applySource raw _).timestamp_eq, changesTo_toMessage.timestamp_eq,
    ← value_timestamp]
  rfl

/-- Two payloads that are decoded, by whatever codecs, get the same timestamp when they were
received at the same time and their documents have the same entry under the key of the
timestamp or both have none, whatever else they hold. The timestamp is the instant that this
entry gives, or else the time of receipt; and an entry that is absent, null, a boolean or a
container gives none. -/
theorem timestamp_decided_by_entry_and_receipt {codec otherCodec : Codec}
    {raw otherRaw : RawMessage} {message otherMessage : Message}
    (decoded : (codec.decode raw).value = .ok message)
    (otherDecoded : (otherCodec.decode otherRaw).value = .ok otherMessage) :
    ∃ text document otherText otherDocument,
      (Payload.toText raw.payload codec.limit codec.settings.charset).value = .ok text ∧
        Json.Document.ofText text = .ok document ∧
        (Payload.toText otherRaw.payload otherCodec.limit otherCodec.settings.charset).value =
          .ok otherText ∧
        Json.Document.ofText otherText = .ok otherDocument ∧
        let given? := document.value.members.find? "timestamp".toList
        let otherGiven? := otherDocument.value.members.find? "timestamp".toList
        (raw.received = otherRaw.received → given? = otherGiven? →
          message.timestamp = otherMessage.timestamp) ∧
        message.timestamp = (given?.bind instantOf?).getD raw.received ∧
        (Timeless given? → message.timestamp = raw.received) := by
  obtain ⟨text, document, text_eq, read_eq, timestamp_eq⟩ := exists_timestamp_of_decode decoded
  obtain ⟨otherText, otherDocument, otherText_eq, otherRead_eq, otherTimestamp_eq⟩ :=
    exists_timestamp_of_decode otherDecoded
  refine ⟨text, document, otherText, otherDocument, text_eq, read_eq, otherText_eq, otherRead_eq,
    ?_⟩
  intro given? otherGiven?
  refine ⟨fun received_eq entry_eq => ?_, timestamp_eq, fun timeless => ?_⟩
  · calc
      message.timestamp = (given?.bind instantOf?).getD raw.received := timestamp_eq
      _ = (otherGiven?.bind instantOf?).getD otherRaw.received := by rw [entry_eq, received_eq]
      _ = otherMessage.timestamp := otherTimestamp_eq.symm
  · calc
      message.timestamp = (given?.bind instantOf?).getD raw.received := timestamp_eq
      _ = raw.received := by rw [timeless.bind_instantOf?, Option.getD_none]

/-- A document whose seconds stand under a key that comes to the same name. -/
def underscoredDocument : Text :=
  "\x7b\"short_message\":\"m\",\"timestamp\":null,\"_timestamp\":9\x7d".toList

/-- The entries of the document. -/
def underscoredMembers : Json.Members :=
  [(shortMessageKey, .string ['m']), (timestampKey, .null),
    ("_timestamp".toList, .number (.integer 9))]

/-- Another document, whose seconds stand under a key with a blank in front. -/
def blankedDocument : Text :=
  "\x7b\" timestamp\":7,\"message\":\"n\",\"timestamp\":null\x7d".toList

/-- The entries of the other document. -/
def blankedMembers : Json.Members :=
  [(" timestamp".toList, .number (.integer 7)), (messageKey, .string ['n']), (timestampKey, .null)]

/-- The other document with two bytes for each character, the low one first. -/
def blankedRaw : RawMessage :=
  { rawOf blankedDocument with
    payload := blankedDocument.flatMap fun c => [UInt8.ofNat c.toNat, 0] }

theorem ofText_underscoredDocument :
    Json.Document.ofText underscoredDocument = .ok ⟨.object underscoredMembers, false⟩ :=
  Json.toOption_eq_some_iff.mp (by decide +kernel)

theorem ofText_blankedDocument :
    Json.Document.ofText blankedDocument = .ok ⟨.object blankedMembers, false⟩ :=
  Json.toOption_eq_some_iff.mp (by decide +kernel)

theorem toText_blankedRaw :
    (Payload.toText blankedRaw.payload 1 .utf16LE).value = .ok blankedDocument :=
  Json.toOption_eq_some_iff.mp (by decide +kernel)

/-- Both messages have the time of receipt, since neither key is that of the timestamp. -/
theorem timestamp_of_blankedRaw :
    ∃ message otherMessage,
      (Codec.decode ⟨⟨.utf8, none⟩, 1, .standard⟩ (rawOf underscoredDocument)).value =
          .ok message ∧
        (Codec.decode ⟨⟨.utf16LE, some ['s']⟩, 1, .standard⟩ blankedRaw).value =
          .ok otherMessage ∧
        message.timestamp = otherMessage.timestamp ∧ message.timestamp = ⟨0, 0⟩ := by
  have underscored := @value_toText_rawOf underscoredDocument (by decide +kernel) 1
  obtain ⟨message, decoded⟩ := Codec.exists_decode_of_checked
    ⟨⟨.utf8, none⟩, 1, .standard⟩ underscored ofText_underscoredDocument rfl
  obtain ⟨otherMessage, otherDecoded⟩ := Codec.exists_decode_of_checked
    ⟨⟨.utf16LE, some ['s']⟩, 1, .standard⟩ toText_blankedRaw ofText_blankedDocument rfl
  obtain ⟨text, document, otherText, otherDocument, text_eq, read_eq, otherText_eq, otherRead_eq,
    alike, -, atReceipt⟩ := timestamp_decided_by_entry_and_receipt decoded otherDecoded
  cases underscored.symm.trans text_eq
  cases ofText_underscoredDocument.symm.trans read_eq
  cases toText_blankedRaw.symm.trans otherText_eq
  cases ofText_blankedDocument.symm.trans otherRead_eq
  exact ⟨message, otherMessage, decoded, otherDecoded, alike rfl rfl, atReceipt .null⟩

end LogIntake.Gelf
