import LogIntake.Field
import LogIntake.Instant
import LogIntake.NameMap

/-!
# Messages

A message is what a codec makes of a payload: a text, a source, a timestamp,
some well-known fields, and additional fields by name. A field is looked up by
name wherever it is kept, and the names of the slots are never additional
fields.

A field is set under its name without blanks at the ends. The name must be a
field name that the policy admits; the timestamp cannot be set, and line and
level take integers only.
-/

namespace LogIntake

/-- A structured message. -/
structure Message where
  text : Text
  source? : Option Text
  timestamp : Instant
  fullMessage? : Option Text
  file? : Option Text
  line? : Option Int
  level? : Option Int
  facility? : Option Text
  additional : NameMap Field.Value
deriving DecidableEq

/-- Why a field is not set. -/
inductive Refusal
  | name (name : Text)
  | blank
  | notInteger (slot : Slot)
  | timestamp
deriving DecidableEq, Repr

namespace Message

/-- The message with the given text, source and timestamp and no other field. A
blank source counts as none. -/
def create (text : Text) (source? : Option Text) (timestamp : Instant) : Message where
  text := text
  source? := source?.filter fun source => !source.isBlank
  timestamp := timestamp
  fullMessage? := none
  file? := none
  line? := none
  level? := none
  facility? := none
  additional := .empty

/-! ## Looking up -/

/-- The value in a slot. The timestamp counts in milliseconds. -/
def slotValue? (message : Message) : Slot → Option Field.Value
  | .message => some (.text message.text)
  | .source => message.source?.map .text
  | .timestamp => some (.integer message.timestamp.millis)
  | .fullMessage => message.fullMessage?.map .text
  | .file => message.file?.map .text
  | .line => message.line?.map .integer
  | .level => message.level?.map .integer
  | .facility => message.facility?.map .text

/-- The value of a field. -/
def get? (message : Message) (name : Text) : Option Field.Value :=
  match Slot.ofName? name with
  | some slot => message.slotValue? slot
  | none => message.additional.get? name

/-- Whether a slot is filled. -/
def fills (message : Message) : Slot → Bool
  | .message | .timestamp => true
  | .source => message.source?.isSome
  | .fullMessage => message.fullMessage?.isSome
  | .file => message.file?.isSome
  | .line => message.line?.isSome
  | .level => message.level?.isSome
  | .facility => message.facility?.isSome

/-- Whether a field is set. -/
def contains (message : Message) (name : Text) : Bool :=
  match Slot.ofName? name with
  | some slot => message.fills slot
  | none => message.additional.contains name

/-! ## Setting fields -/

/-- Replaces the source. -/
def withSource (message : Message) (source : Text) : Message :=
  { message with source? := some source }

/-- Fills a slot. -/
def fill (message : Message) (slot : Slot) (value : Field.Value) : Except Refusal Message :=
  match slot with
  | .message => .ok { message with text := value.toText }
  | .source => .ok { message with source? := some value.toText }
  | .timestamp => .error .timestamp
  | .fullMessage => .ok { message with fullMessage? := some value.toText }
  | .file => .ok { message with file? := some value.toText }
  | .facility => .ok { message with facility? := some value.toText }
  | .line =>
    match value.integer? with
    | some n => .ok { message with line? := some n }
    | none => .error (.notInteger .line)
  | .level =>
    match value.integer? with
    | some n => .ok { message with level? := some n }
    | none => .error (.notInteger .level)

/-- Stores a value that is ready to be stored, in its slot or among the
additional fields. -/
def store (message : Message) (name : Text) (value : Field.Value) : Except Refusal Message :=
  match Slot.ofName? name with
  | some slot => message.fill slot value
  | none => .ok { message with additional := message.additional.insert name value }

/-- Sets a field. -/
def insert (message : Message) (policy : Field.Policy) (name : Text) (value : Field.Value) :
    Except Refusal Message :=
  let name := name.trim
  if Field.isName name && policy.admits name then
    match value.normalized? with
    | some value => message.store name value
    | none => .error .blank
  else .error (.name name)

end Message

end LogIntake
