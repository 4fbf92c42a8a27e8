import LogIntake.Configuration.Settings
import LogIntake.Event

/-!
# Codecs

A codec turns raw messages into messages. It has a descriptor with a name, the
settings that all codecs share, and a decoding function without state.

Decoding fails in one of three stages, and the error carries what is needed to
find the raw message again: its id, its sender and the decoded text if there is
one.
-/

namespace LogIntake

/-- The name of a codec, and the name that is shown. -/
structure Descriptor where
  name : Text
  displayName : Text
deriving DecidableEq, Repr

/-- The descriptor with the given names, without blanks at their ends. A name is
mandatory, and it is shown when there is nothing else to show. -/
def Descriptor.create (name displayName : Text) : Except Configuration.Error Descriptor :=
  if name.isBlank then .error .missingCodecName
  else if displayName.isBlank then .ok ⟨name.trim, name.trim⟩
  else .ok ⟨name.trim, displayName.trim⟩

/-- The stage of decoding in which an error arises. -/
inductive Stage
  | payload
  | parsing
  | validation
deriving DecidableEq, Repr

/-- The name of a stage. -/
def Stage.name : Stage → Text
  | payload => "payload".toList
  | parsing => "syntax".toList
  | validation => "validation".toList

/-- A raw message that could not be decoded. -/
structure DecodingError where
  stage : Stage
  reason : Text
  id : MessageId
  remote? : Option Endpoint
  rawText? : Option Text
deriving DecidableEq, Repr

namespace DecodingError

/-- An error before the payload is text. -/
def payload (raw : RawMessage) (reason : Text) : DecodingError :=
  ⟨.payload, reason, raw.id, raw.remote?, none⟩

/-- An error in the form of the text. -/
def parsing (raw : RawMessage) (reason text : Text) : DecodingError :=
  ⟨.parsing, reason, raw.id, raw.remote?, some text⟩

/-- An error in what the text says. -/
def validation (raw : RawMessage) (reason text : Text) : DecodingError :=
  ⟨.validation, reason, raw.id, raw.remote?, some text⟩

/-- The wording of an error. -/
def message (error : DecodingError) : Text :=
  Text.concat
    [error.stage.name, " error decoding message <".toList, error.id.toText, ">: ".toList,
      error.reason]

end DecodingError

/-- A decoder of raw messages. -/
structure Codec where
  descriptor : Descriptor
  settings : Settings
  /-- Whether fragments have to be put together before they are decoded. -/
  reassembles : Bool
  decode : RawMessage → Logged (Except DecodingError Message)

/-- The source of a decoded message: the configured one if there is one, else the
one of the message, else the sender's address. -/
def Settings.applySource (settings : Settings) (raw : RawMessage) (message : Message) :
    Logged Message :=
  match settings.overrideSource?, message.source?, raw.remote? with
  | some source, _, _ => do
    Logged.note (.sourceOverridden raw.id source)
    pure (message.withSource source)
  | none, none, some remote => do
    Logged.note (.sourceFromAddress raw.id remote.ip)
    pure (message.withSource remote.ip.toText)
  | none, _, _ => pure message

end LogIntake
