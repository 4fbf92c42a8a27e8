import LogIntake.Charset.Basic
import LogIntake.Configuration.Schema

/-!
# Shared settings

Every codec has a charset for its payloads and may have a source that replaces
the one of every message. Both come from the configuration when it sets them.
-/

namespace LogIntake

/-- The settings that all codecs share. -/
structure Settings where
  charset : Charset
  overrideSource? : Option Text
deriving DecidableEq, Repr

namespace Settings

/-- The option of the source that replaces every other. -/
def overrideSourceKey : Text :=
  "override_source".toList

/-- The option of the charset. -/
def charsetKey : Text :=
  "charset_name".toList

/-- The charset that a configuration names; UTF-8 without a name. -/
def charsetOf (configuration? : Option Configuration) : Except Configuration.Error Charset :=
  match configuration?.bind (·.text? charsetKey) with
  | none => .ok .utf8
  | some name =>
    match Charset.ofName? name with
    | some charset => .ok charset
    | none => .error (.unsupportedCharset name)

/-- The settings that a configuration gives. -/
def ofConfiguration (configuration? : Option Configuration) :
    Except Configuration.Error Settings :=
  (charsetOf configuration?).map fun charset =>
    ⟨charset, (configuration?.bind (·.text? overrideSourceKey)).map Text.trim⟩

/-- The options of the shared settings. -/
def schema : Schema :=
  .ofList
    [.ofText overrideSourceKey "Override source".toList none
        ("The source is a hostname derived from the received packet by default. " ++
          "Set this if you want to override it with a custom string.").toList true,
      .ofText charsetKey "Encoding".toList (some Charset.utf8.name)
        ("Default encoding is UTF-8. " ++
          "Set this to a standard charset name if you want to override the default.").toList
        true]

end Settings

end LogIntake
