import LogIntake.Codec.Registry
import LogIntake.Gelf.Decoder

/-!
# The GELF codec

The GELF codec has the shared settings and a limit on the size of decompressed
payloads. Decoding sets the source of the message by the shared rule.
-/

namespace LogIntake.Gelf

/-- A GELF codec as configured. -/
structure Codec where
  settings : Settings
  limit : Nat
  policy : Field.Policy

namespace Codec

/-- The name of the codec. -/
def name : Text :=
  "gelf".toList

/-- The descriptor of the codec. -/
def descriptor : Descriptor :=
  ⟨name, "GELF".toList⟩

/-- The option of the limit on decompressed payloads. -/
def limitKey : Text :=
  "decompress_size_limit".toList

/-- The limit without a configuration, in bytes. -/
def defaultLimit : Nat :=
  8388608

/-- The limit that a configuration gives. It is not zero. -/
def limitOf (configuration? : Option Configuration) : Except Configuration.Error Nat := do
  let limit? ← configuration?.elim (.ok none) (·.natural? limitKey)
  match limit? with
  | none => .ok defaultLimit
  | some 0 => .error (.invalidValue limitKey .zero)
  | some limit => .ok limit

/-- The options of the codec. -/
def schema : Schema :=
  Settings.schema.declare
    (.ofNumber limitKey "Decompressed size limit".toList defaultLimit
      "The maximum number of bytes after decompression.".toList true)

/-- Builds a codec. -/
def build (policy : Field.Policy) (configuration? : Option Configuration) :
    Logged (Except Configuration.Error Codec) :=
  let settings? := do
    let settings ← Settings.ofConfiguration configuration?
    let limit ← limitOf configuration?
    .ok (settings, limit)
  match settings? with
  | .error error => pure (.error error)
  | .ok (settings, limit) => do
    Logged.note (.codecCreated settings.charset limit)
    pure (.ok ⟨settings, limit, policy⟩)

/-- The decoder of the codec. -/
def decoder (codec : Codec) : Decoder :=
  ⟨codec.limit, codec.settings.charset, codec.policy⟩

/-- Decodes a raw message and sets its source. -/
def decode (codec : Codec) (raw : RawMessage) : Logged (Except DecodingError Message) := do
  match ← codec.decoder.decode raw with
  | .error error => pure (.error error)
  | .ok message => do
    let message ← codec.settings.applySource raw message
    pure (.ok message)

/-- The codec as the registry hands it out. -/
def toCodec (codec : Codec) : LogIntake.Codec :=
  ⟨descriptor, codec.settings, false, codec.decode⟩

/-- The registration of the codec. -/
def registration (policy : Field.Policy) : Registration where
  descriptor := descriptor
  schema := schema
  factory configuration? := do
    let codec? ← build policy configuration?
    pure (codec?.map toCodec)

end Codec

end LogIntake.Gelf
