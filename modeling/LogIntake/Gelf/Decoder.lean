import LogIntake.Codec.Basic
import LogIntake.Gelf.Payload
import LogIntake.Gelf.Validation
import LogIntake.Json.Document

/-!
# Decoding GELF

A payload becomes text, the text a document and the document a message. Only
the payload, the form of the text and the mandatory entries can make decoding
fail. Every other entry that cannot be used is left out, and a timestamp that
cannot be used gives way to the time of receipt.

The well-known entries fill slots of the message. All others become additional
fields under their key without one leading underscore, unless a field of that
name has been set or the policy does not admit it.
-/

namespace LogIntake.Gelf

/-- How raw messages are decoded. -/
structure Decoder where
  limit : Nat
  charset : Charset
  policy : Field.Policy

/-! ## Text and timestamp -/

/-- The short message unless it is blank, else the message. -/
def mainText (members : Json.Members) : Text :=
  match (textAt? members shortMessageKey).filter fun text => !text.isBlank with
  | some shortMessage => shortMessage
  | none => (textAt? members messageKey).getD []

/-- The instant some seconds after the start of 1970, to the nearest
millisecond. -/
def instantOfSeconds? (seconds : Binary64) : Option Instant :=
  let millis := seconds.mul (.ofInt 1000)
  Instant.ofMillis? (millis.toInt64With Binary64.roundHalfAway)

/-- The timestamp of a document. Seconds count if they are positive and lie in
the calendar. -/
def timestamp (raw : RawMessage) (members : Json.Members) : Logged Instant := do
  let seconds? ← (members.find? timestampKey).elim (pure none) seconds?
  match seconds?.filter Binary64.isPositive with
  | none => pure raw.received
  | some seconds =>
    match instantOfSeconds? seconds with
    | some instant => pure instant
    | none => do
      Logged.note (.timestampOutOfRange raw seconds)
      pure raw.received

/-! ## Fields -/

/-- Sets a field; a message that refuses it stays as it is, and the refusal is
noted. -/
def addField (policy : Field.Policy) (name : Text) (value : Field.Value) (message : Message) :
    Logged Message :=
  match message.insert policy name value with
  | .ok message => pure message
  | .error refusal => ⟨message, (Event.ofRefusal? refusal).toList⟩

/-- The greatest line number. -/
def maxLine : Int :=
  Text.maxInt64

/-- The greatest level. -/
def maxLevel : Int :=
  Int.pow 2 31 - 1

/-- The slots that well-known entries fill, with the value of the entry. -/
def knownFields (members : Json.Members) : List (Slot × Option Field.Value) :=
  let text (slot : Slot) := textAt? members slot.name
  let filled (slot : Slot) := ((text slot).filter fun s => !s.isEmpty).map Field.Value.text
  [(.fullMessage, (text .fullMessage).map .text),
    (.file, filled .file),
    (.line, (integerAt? members Slot.line.name maxLine).map .integer),
    (.level, (integerAt? members Slot.level.name maxLevel).map .integer),
    (.facility, filled .facility)]

/-- Fills the slots of the well-known entries. -/
def addKnownFields (policy : Field.Policy) (members : Json.Members) (message : Message) :
    Logged Message :=
  (knownFields members).foldlM
    (fun message (slot, value?) =>
      match value? with
      | some value => addField policy slot.name value message
      | none => pure message)
    message

/-- The keys of entries that are no additional fields. -/
def handledKeys : List Text :=
  ["version".toList, Slot.fullMessage.name, Slot.file.name, Slot.line.name, Slot.level.name,
    Slot.facility.name]

/-- The name of the field that an entry gives: its key without one leading
underscore, unless nothing else remains. -/
def fieldName : Text → Text
  | '_' :: c :: rest => c :: rest
  | key => key

/-- Whether an entry with the given key may be an additional field. -/
def isAdditional (key : Text) : Bool :=
  let name := fieldName key
  !handledKeys.contains key && name != shortMessageKey && name != hostKey

/-- Adds the additional field that an entry gives. -/
def addEntry (policy : Field.Policy) (message : Message) (entry : Text × Json) :
    Logged Message :=
  let name := fieldName entry.1
  if isAdditional entry.1 && !message.contains name && policy.admits name then do
    match ← fieldValue? name entry.2 with
    | some value => addField policy name value message
    | none => pure message
  else pure message

/-- The message that a document gives once it has been checked. -/
def toMessage (policy : Field.Policy) (raw : RawMessage) (members : Json.Members) :
    Logged Message := do
  let timestamp ← timestamp raw members
  let message := Message.create (mainText members) (textAt? members hostKey) timestamp
  let message ← addKnownFields policy members message
  members.foldlM (addEntry policy) message

/-! ## Decoding -/

/-- The wording of an error in the form of the text. -/
def syntaxReason (error : Json.Document.Error) : Text :=
  "JSON is null or could not be parsed (invalid JSON): ".toList ++ error.message

/-- Decodes the first document of a text. A document that is no object has no
entries. -/
def decodeDocument (policy : Field.Policy) (raw : RawMessage) (text : Text)
    (document : Json.Document) : Logged (Except DecodingError Message) := do
  if document.isFollowed then Logged.note (.fragmentDropped raw)
  match ← examine raw document.value.members with
  | .error violation => pure (.error (.validation raw (violation.message raw) text))
  | .ok () => do
    let message ← toMessage policy raw document.value.members
    pure (.ok message)

/-- Decodes the text of a payload. -/
def decodeText (policy : Field.Policy) (raw : RawMessage) (text : Text) :
    Logged (Except DecodingError Message) := do
  Logged.note (.messageDecoding raw text)
  match Json.Document.ofText text with
  | .error error => pure (.error (.parsing raw (syntaxReason error) text))
  | .ok document => decodeDocument policy raw text document

/-- Decodes a raw message. -/
def Decoder.decode (decoder : Decoder) (raw : RawMessage) :
    Logged (Except DecodingError Message) := do
  match ← Payload.toText raw.payload decoder.limit decoder.charset with
  | .error error => pure (.error (.payload raw error.message))
  | .ok text => decodeText decoder.policy raw text

end LogIntake.Gelf
