import LogIntake.Codec.Basic
import LogIntake.NameMap
import LogIntake.Text.Quoted

/-!
# Registry of codecs

Codecs are built by name. A registration holds the descriptor, the schema of
the options and a factory; a name is registered once. Building checks the
configuration against the schema before the factory sees it, and a codec must
report the name under which it was registered.

The simplest codec takes the whole payload as the text of the message. It has
the shared settings and no others.
-/

namespace LogIntake

/-- How to build the codecs of a name. -/
structure Registration where
  descriptor : Descriptor
  schema : Schema
  factory : Option Configuration → Logged (Except Configuration.Error Codec)

namespace Registration

/-- Checks that a codec has the name of its registration. -/
def checkName (registration : Registration) (codec : Codec) :
    Except Configuration.Error Codec :=
  let registered := registration.descriptor.name
  let reported := codec.descriptor.name
  if reported = registered then .ok codec
  else .error (.invalidValue "name".toList (.otherName registered reported))

/-- Checks a configuration, if there is one, and builds a codec. -/
def build (registration : Registration) (configuration? : Option Configuration) :
    Logged (Except Configuration.Error Codec) :=
  match configuration?.elim (.ok ()) registration.schema.check with
  | .error e => pure (.error e)
  | .ok () => do
    let codec? ← registration.factory configuration?
    pure (codec?.bind registration.checkName)

end Registration

/-- The registrations by name. -/
structure Registry where
  registrations : NameMap Registration

namespace Registry

/-- The registry without codecs. -/
def empty : Registry :=
  ⟨.empty⟩

/-- Adds a registration. -/
def register (registry : Registry) (registration : Registration) :
    Logged (Except Configuration.Error Registry) :=
  let name := registration.descriptor.name
  if registry.registrations.contains name then pure (.error (.duplicateCodec name))
  else do
    Logged.note (.codecRegistered name)
    pure (.ok ⟨registry.registrations.insert name registration⟩)

/-- Builds a codec by name. -/
def build (registry : Registry) (name : Text) (configuration? : Option Configuration) :
    Logged (Except Configuration.Error Codec) :=
  match registry.registrations.get? name with
  | none => pure (.error (.unknownCodec name))
  | some registration => registration.build configuration?

/-- The descriptor of a name. -/
def descriptor? (registry : Registry) (name : Text) : Option Descriptor :=
  (registry.registrations.get? name).map (·.descriptor)

/-- The schema of a name. -/
def schema? (registry : Registry) (name : Text) : Option Schema :=
  (registry.registrations.get? name).map (·.schema)

/-- The registered names in increasing order. -/
def names (registry : Registry) : List Text :=
  registry.registrations.names

/-- How diagnostics show a registry. -/
def label (registry : Registry) : Text :=
  Text.concat
    ["CodecRegistry \x7b codecs: [".toList,
      ", ".toList.intercalate (registry.names.map Text.quoted), "] \x7d".toList]

end Registry

/-! ## The plain text codec -/

namespace PlainText

/-- Decodes a payload into a message that is nothing but its text. -/
def decode (settings : Settings) (raw : RawMessage) : Logged (Except DecodingError Message) := do
  let message ← settings.applySource raw
    (.create (settings.charset.decode raw.payload) none raw.received)
  pure (.ok message)

/-- Builds a codec that reports the given name. -/
def build (reported : Text) (configuration? : Option Configuration) :
    Except Configuration.Error Codec := do
  let descriptor ← Descriptor.create reported "Plain text".toList
  let settings ← Settings.ofConfiguration configuration?
  .ok ⟨descriptor, settings, false, decode settings⟩

/-- The registration of a plain text codec. -/
def registration (descriptor : Descriptor) (schema : Schema) (reported : Text) :
    Registration where
  descriptor := descriptor
  schema := schema
  factory configuration? := pure (build reported configuration?)

end PlainText

end LogIntake
