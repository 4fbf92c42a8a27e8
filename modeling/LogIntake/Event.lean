import LogIntake.Binary64.Numeral
import LogIntake.Charset.Basic
import LogIntake.Gelf.Framing
import LogIntake.Json.Printer
import LogIntake.Message.Basic
import LogIntake.RawMessage

/-!
# Events

Whatever is worth noting about the work of codecs is an event: each step of
decoding, and everything that is dropped or replaced on the way. A computation
in `Logged` has a result and the events that it noted, in order.

The event that a payload held more than one document is counted over all
codecs; its wording tells the count so far, so the lines of a log are made from
all events in order.
-/

namespace LogIntake

/-- How much an event matters. -/
inductive Severity
  | trace
  | debug
  | warn
deriving DecidableEq, Repr

/-- The word for a severity. -/
def Severity.name : Severity → Text
  | trace => "TRACE".toList
  | debug => "DEBUG".toList
  | warn => "WARN".toList

/-- Something worth noting. -/
inductive Event
  | codecRegistered (name : Text)
  | codecCreated (charset : Charset) (limit : Nat)
  | payloadDecoding (size : Nat) (framing : Gelf.Framing)
  | messageDecoding (raw : RawMessage) (text : Text)
  | fragmentDropped (raw : RawMessage)
  | hostMissing (raw : RawMessage)
  | timestampInvalid (raw : RawMessage) (text kind : Text)
  | timestampUnreadable (text : Text) (fault : Binary64.NumeralFault)
  | timestampOutOfRange (raw : RawMessage) (seconds : Binary64)
  | fieldNull (name : Text)
  | fieldUnsupported (name : Text)
  | fieldRefused (name : Text)
  | fieldNotInteger (slot : Slot)
  | timestampNotSettable
  | sourceOverridden (id : MessageId) (source : Text)
  | sourceFromAddress (id : MessageId) (ip : IpAddress)
deriving DecidableEq, Repr

namespace Event

/-- How much an event matters. -/
def severity : Event → Severity
  | payloadDecoding .. | messageDecoding .. | sourceOverridden .. => .trace
  | fragmentDropped _ | hostMissing _ | timestampInvalid .. | timestampOutOfRange .. => .warn
  | _ => .debug

/-- The wording of an event, when `dropped` payloads have lost documents so far,
this one included. -/
def message (dropped : Nat) : Event → Text
  | codecRegistered name => Text.concat ["Registering codec ".toList, name]
  | codecCreated charset limit =>
    Text.concat
      ["Creating GELF codec with charset ".toList, charset.name,
        " and decompress size limit ".toList, Text.ofNat limit]
  | payloadDecoding size framing =>
    Text.concat
      ["Decoding ".toList, Text.ofNat size, " byte ".toList, framing.name,
        " GELF payload".toList]
  | messageDecoding raw text =>
    Text.concat ["Decoding GELF message ".toList, raw.label, ": ".toList, text]
  | fragmentDropped raw =>
    Text.concat
      ["GELF message ".toList, raw.label,
        " contains more than one document, following messages were dropped (".toList,
        Text.ofNat dropped, " so far)".toList]
  | hostMissing raw =>
    Text.concat
      ["GELF message ".toList, raw.label, " is missing mandatory \"host\" field.".toList]
  | timestampInvalid raw text kind =>
    Text.concat
      ["GELF message ".toList, raw.label, " has invalid \"timestamp\": ".toList, text,
        "  (type: ".toList, kind, ")".toList]
  | timestampUnreadable text fault =>
    Text.concat ["Unable to parse timestamp ".toList, text, ": ".toList, fault.message]
  | timestampOutOfRange raw seconds =>
    Text.concat
      ["GELF message ".toList, raw.label, " has out of range \"timestamp\": ".toList,
        seconds.toText]
  | fieldNull name => Text.concat ["Field [".toList, name, "] is NULL. Skipping.".toList]
  | fieldUnsupported name =>
    Text.concat ["Field [".toList, name, "] has unknown value type. Skipping.".toList]
  | fieldRefused name => Text.concat ["Ignoring invalid or reserved key ".toList, name]
  | fieldNotInteger slot =>
    Text.concat ["Ignoring non-integer value for field ".toList, slot.name]
  | timestampNotSettable => "Ignoring timestamp set through add_field".toList
  | sourceOverridden id source =>
    Text.concat
      ["Overriding source of message ".toList, id.toText, " with ".toList, source]
  | sourceFromAddress id ip =>
    Text.concat
      ["Message ".toList, id.toText, " has no source, using remote address ".toList, ip.toText]

/-- Whether an event tells of a payload with more than one document. -/
def isDrop : Event → Bool
  | fragmentDropped _ => true
  | _ => false

/-- The number of payloads with more than one document among the events. -/
def drops (events : List Event) : Nat :=
  events.countP isDrop

/-- The line of an event in a log. -/
def line (dropped : Nat) (event : Event) : Text :=
  Text.concat [event.severity.name, [' '], event.message dropped]

/-- The lines of the events in a log, after `dropped` payloads with more than one
document. -/
def lines (dropped : Nat) : List Event → List Text
  | [] => []
  | event :: events =>
    let dropped := if event.isDrop then dropped + 1 else dropped
    event.line dropped :: lines dropped events

/-- The event of a field that is not set. Blank values are dropped without one. -/
def ofRefusal? : Refusal → Option Event
  | .name name => some (fieldRefused name)
  | .blank => none
  | .notInteger slot => some (fieldNotInteger slot)
  | .timestamp => some timestampNotSettable

end Event

/-- A result and the events noted on the way to it. -/
structure Logged (α : Type) where
  value : α
  events : List Event

namespace Logged

/-- A result with nothing to note. -/
instance : Monad Logged where
  pure value := ⟨value, []⟩
  bind first next :=
    let second := next first.value
    ⟨second.value, first.events ++ second.events⟩

/-- Notes an event. -/
def note (event : Event) : Logged Unit :=
  ⟨(), [event]⟩

variable {α β : Type}

@[simp]
theorem value_pure (value : α) : (pure value : Logged α).value = value :=
  rfl

@[simp]
theorem events_pure (value : α) : (pure value : Logged α).events = [] :=
  rfl

@[simp]
theorem value_bind (first : Logged α) (next : α → Logged β) :
    (first >>= next).value = (next first.value).value :=
  rfl

@[simp]
theorem events_bind (first : Logged α) (next : α → Logged β) :
    (first >>= next).events = first.events ++ (next first.value).events :=
  rfl

@[simp]
theorem events_note (event : Event) : (note event).events = [event] :=
  rfl

end Logged

end LogIntake
