import LogIntake.Json.Equality
import LogIntake.Json.Printer

/-!
# Configuration errors

A codec is refused before it is handed out when its configuration, its name or
its registration is wrong.
-/

namespace LogIntake

/-- What is wrong with a configured value. -/
inductive Configuration.ValueFault
  | unreadable (reason : Text)
  | notUnsigned (found : Json)
  | missing
  | zero
  | otherName (registered reported : Text)
deriving DecidableEq, Repr

/-- The wording of a fault. -/
def Configuration.ValueFault.message : Configuration.ValueFault → Text
  | unreadable reason => reason
  | notUnsigned found =>
    Text.concat ["expected an unsigned integer, got ".toList, found.toText]
  | missing => "mandatory field is not set".toList
  | zero => "must be greater than zero".toList
  | otherName registered reported =>
    Text.concat
      ["codec registered as ".toList, registered, " reports name ".toList, reported]

/-- Why a codec cannot be registered or built. -/
inductive Configuration.Error
  | unsupportedCharset (name : Text)
  | missingCodecName
  | duplicateCodec (name : Text)
  | unknownCodec (name : Text)
  | invalidValue (key : Text) (fault : Configuration.ValueFault)
deriving DecidableEq, Repr

/-- The wording of an error. -/
def Configuration.Error.message : Configuration.Error → Text
  | unsupportedCharset name => Text.concat ["Unsupported charset: ".toList, name]
  | missingCodecName => "Codec descriptor is missing a name".toList
  | duplicateCodec name => Text.concat ["Codec ".toList, name, " is already registered".toList]
  | unknownCodec name => Text.concat ["No codec registered under name ".toList, name]
  | invalidValue key fault =>
    Text.concat
      ["Invalid value for configuration key ".toList, key, ": ".toList, fault.message]

end LogIntake
