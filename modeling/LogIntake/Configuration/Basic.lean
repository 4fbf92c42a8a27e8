import LogIntake.Configuration.Error
import LogIntake.Json.Reader
import LogIntake.Text.Quoted

/-!
# Configurations

A configuration is the members of a JSON object. It is read strictly, and any
other value is refused with the kind of value that was found.

A text counts as set when it is not blank. An unsigned integer may be given as
a number or as the text of one; null and blank texts count as not set.
-/

namespace LogIntake

/-- The values configured for a codec, by key. -/
structure Configuration where
  values : Json.Members
deriving DecidableEq, Repr

namespace Configuration

/-- The configuration without values. -/
def empty : Configuration :=
  ⟨[]⟩

/-- The configuration as a JSON value. -/
def toJson (configuration : Configuration) : Json :=
  .object configuration.values

/-- Gives a key a value. -/
def set (configuration : Configuration) (key : Text) (value : Json) : Configuration :=
  ⟨configuration.values.put key value⟩

/-- The value under a key. -/
def get? (configuration : Configuration) (key : Text) : Option Json :=
  configuration.values.find? key

/-- The text under a key, if there is one that is not blank. -/
def text? (configuration : Configuration) (key : Text) : Option Text :=
  match configuration.get? key with
  | some (.string text) => if text.isBlank then none else some text
  | _ => none

/-- Whether a key has a text that is not blank. -/
def isSet (configuration : Configuration) (key : Text) : Bool :=
  (configuration.text? key).isSome

/-- The unsigned integer that a value stands for, if it is set. -/
def unsigned? : Json → Option (Option Nat)
  | .null => some none
  | .string text => if text.isBlank then some none else (Text.uint64? text.trim).map some
  | .number (.integer n) => if 0 ≤ n then some (some n.toNat) else none
  | _ => none

/-- The unsigned integer under a key, if it is set. -/
def natural? (configuration : Configuration) (key : Text) :
    Except Configuration.Error (Option Nat) :=
  match configuration.get? key with
  | none => .ok none
  | some value =>
    match unsigned? value with
    | some n? => .ok n?
    | none => .error (.invalidValue key (.notUnsigned value))

/-! ## Reading -/

/-- How a value that is not an object is named. -/
def found : Json → Text
  | .null => "null".toList
  | .bool value => if value then "boolean `true`".toList else "boolean `false`".toList
  | .number (.integer n) => Text.concat ["integer `".toList, Text.ofInt n, ['`']]
  | .number x => Text.concat ["floating point `".toList, x.toText, ['`']]
  | .string s => Text.concat ["string ".toList, Text.quoted s]
  | .array _ => "sequence".toList
  | .object _ => "map".toList

/-- Reads the members of an object. An array is refused at its bracket, any other
value that is no object behind it. -/
def readMembers (text : Text) : Except Json.Fault (Json.Members × Text) :=
  match Json.skipBlanks text with
  | '[' :: rest => .error (.before (.notAnObject (found (.array []))) ('[' :: rest))
  | _ => do
    let (value, rest) ← Json.readValue text
    match value with
    | .object members => .ok (members, rest)
    | value => .error (.before (.notAnObject (found value)) rest)

/-- Reads a text that holds one object and nothing else. -/
def readText (text : Text) : Except Json.Fault Configuration := do
  let (members, rest) ← readMembers text
  Json.endOfText rest
  .ok ⟨members⟩

/-- The key under which a configuration as a whole is reported. -/
def rootKey : Text :=
  "<root>".toList

/-- Reads a configuration. -/
def ofText (text : Text) : Except Configuration.Error Configuration :=
  match readText text with
  | .ok configuration => .ok configuration
  | .error fault => .error (.invalidValue rootKey (.unreadable (fault.message text)))

end Configuration

end LogIntake
