import LogIntake.Binary64.Shortest
import LogIntake.Json.Value
import LogIntake.Text.Word

/-!
# Fields

A field of a message holds a text, an integer of 64 bits or a double. Text
values are stored without blanks at the ends, and blank ones are not stored.

The name of a field is made of word characters, points, hyphens and at signs.
A policy says which names the system reserves, and which of those a sender may
set all the same.

Eight fields have a slot of their own in every message. All others are
additional fields.
-/

namespace LogIntake

/-! ## Values -/

/-- The value of a field. -/
inductive Field.Value
  | text (value : Text)
  | integer (value : Int)
  | double (value : Binary64)
deriving DecidableEq, Repr

namespace Field.Value

/-- The value as text. -/
def toText : Field.Value → Text
  | text value => value
  | integer value => Text.ofInt value
  | double value => value.toText

/-- The value as an integer of 64 bits: doubles lose their fraction, and texts
must be numerals with at most one sign. -/
def integer? : Field.Value → Option Int
  | integer value => some value
  | double value => if value.isFinite then some value.toInt64 else none
  | text value => Text.int64? value

/-- The value as it is stored, unless it is a blank text. -/
def normalized? : Field.Value → Option Field.Value
  | text value => if value.isBlank then none else some (text value.trim)
  | value => some value

/-- The value in JSON. A double that is not finite has no notation there. -/
def toJson : Field.Value → Json
  | text value => .string value
  | integer value => .number (.integer value)
  | double value => if value.isFinite then .number (.double value) else .null

end Field.Value

/-! ## Names and policies -/

/-- The characters of field names. -/
def Field.isNameChar (c : Char) : Bool :=
  Text.isWordChar c || c == '.' || c == '-' || c == '@'

/-- Field names are not empty and have no other characters. -/
def Field.isName (name : Text) : Bool :=
  !name.isEmpty && name.all Field.isNameChar

/-- Which names are reserved, and which a sender may set although they are. -/
structure Field.Policy where
  reserved : Text → Bool
  settable : Text → Bool

namespace Field.Policy

/-- Whether a sender may set a field of that name. -/
def admits (policy : Field.Policy) (name : Text) : Bool :=
  !policy.reserved name || policy.settable name

/-- The policy with the given names. -/
def ofLists (reserved settable : List Text) : Field.Policy :=
  ⟨reserved.contains, settable.contains⟩

/-- Reserved names that a sender may set: parts of every message, and what the
system notes about its receipt. -/
def standardSettable : List Text :=
  ["message".toList, "source".toList, "timestamp".toList, "ingest_source_node".toList,
    "ingest_source_input".toList, "ingest_source_collector".toList,
    "ingest_source_collector_input".toList, "ingest_remote_ip".toList,
    "ingest_remote_port".toList, "ingest_remote_hostname".toList]

/-- Names that belong to the search index and the processing pipeline alone. -/
def standardProtected : List Text :=
  ["_id".toList, "_ttl".toList, "_source".toList, "_all".toList, "_index".toList,
    "_type".toList, "_score".toList, "streams".toList, "ingest_message_id".toList,
    "ingest_accounted_message_size".toList, "ingest_receive_timestamp".toList,
    "ingest_processing_timestamp".toList, "ingest_processing_duration_ms".toList,
    "ingest_processing_error".toList]

/-- The policy of an ordinary installation. -/
def standard : Field.Policy :=
  ofLists (standardProtected ++ standardSettable) standardSettable

end Field.Policy

/-! ## Slots -/

/-- The fields with a slot of their own. -/
inductive Slot
  | message
  | source
  | timestamp
  | fullMessage
  | file
  | line
  | level
  | facility
deriving DecidableEq, Repr

namespace Slot

/-- All slots, in the order in which a message is written. -/
def all : List Slot :=
  [message, source, timestamp, fullMessage, file, line, level, facility]

/-- The name of the field in a slot. -/
def name : Slot → Text
  | message => "message".toList
  | source => "source".toList
  | timestamp => "timestamp".toList
  | fullMessage => "full_message".toList
  | file => "file".toList
  | line => "line".toList
  | level => "level".toList
  | facility => "facility".toList

/-- The slot of the field with the given name, if it has one. -/
def ofName? (name : Text) : Option Slot :=
  all.find? fun slot => slot.name == name

end Slot

end LogIntake
