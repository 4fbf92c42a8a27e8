import LogIntake.Gelf.Entries
import LogIntake.Json.Equality

/-!
# Mandatory entries of GELF documents

A document has a `host` and a `short_message`, or in place of the latter a
`message`. The host may be missing, which is noted; whatever is there must be a
text that is not blank, except that a blank short message may be made up for by
a message.

A timestamp that is neither a number nor a container is noted.
-/

namespace LogIntake.Gelf

/-! ## Keys -/

/-- The entry of the sender's name. -/
def hostKey : Text :=
  "host".toList

/-- The entry of the text of the message. -/
def shortMessageKey : Text :=
  "short_message".toList

/-- The entry that stands in for the short message. -/
def messageKey : Text :=
  "message".toList

/-- The entry of the time in seconds. -/
def timestampKey : Text :=
  "timestamp".toList

/-! ## Violations -/

/-- What is wrong with the mandatory entries. -/
inductive Violation
  | emptyHost
  | invalidHost (found : Json)
  | emptyShortMessage
  | invalidShortMessage (found : Json)
  | emptyMessage
  | invalidMessage (found : Json)
  | noMessage
deriving DecidableEq, Repr

/-- The wording of a violation in a raw message. -/
def Violation.message (violation : Violation) (raw : RawMessage) : Text :=
  let wording : Text :=
    match violation with
    | emptyHost => "has empty mandatory \"host\" field.".toList
    | invalidHost found => "has invalid \"host\": ".toList ++ scalarText found
    | emptyShortMessage => "has empty mandatory \"short_message\" field.".toList
    | invalidShortMessage found => "has invalid \"short_message\": ".toList ++ scalarText found
    | emptyMessage => "has empty mandatory \"message\" field.".toList
    | invalidMessage found => "has invalid \"message\": ".toList ++ scalarText found
    | noMessage => "is missing mandatory \"short_message\" or \"message\" field.".toList
  Text.concat ["GELF message ".toList, raw.label, [' '], wording]

/-! ## Checks -/

/-- Checks the host, which may be missing. -/
def checkHost : Option Json → Except Violation Unit
  | none => .ok ()
  | some (.string host) => if host.isBlank then .error .emptyHost else .ok ()
  | some found => .error (.invalidHost found)

/-- Whether a message makes up for a blank short message. -/
def isFilled (message? : Option Json) : Bool :=
  message?.any fun message => !(scalarText message).isBlank

/-- Checks the short message and the message, one of which must be there. -/
def checkMessage (shortMessage? message? : Option Json) : Except Violation Unit :=
  match shortMessage?, message? with
  | some (.string shortMessage), message? =>
    if shortMessage.isBlank && !isFilled message? then .error .emptyShortMessage else .ok ()
  | some found, _ => .error (.invalidShortMessage found)
  | none, some (.string message) => if message.isBlank then .error .emptyMessage else .ok ()
  | none, some found => .error (.invalidMessage found)
  | none, none => .error .noMessage

/-- Checks the mandatory entries. -/
def check (members : Json.Members) : Except Violation Unit := do
  checkHost (members.find? hostKey)
  checkMessage (members.find? shortMessageKey) (members.find? messageKey)

/-- Notes that there is no host. -/
def noteHost (raw : RawMessage) (members : Json.Members) : Logged Unit :=
  if (members.find? hostKey).isNone then Logged.note (.hostMissing raw) else pure ()

/-- Notes a timestamp that is neither a number nor a container. -/
def noteTimestamp (raw : RawMessage) (members : Json.Members) : Logged Unit :=
  match members.find? timestampKey with
  | none | some (.number _) | some (.array _) | some (.object _) => pure ()
  | some found => Logged.note (.timestampInvalid raw (scalarText found) (kindName found))

/-- Checks the mandatory entries and notes what is missing or odd. -/
def examine (raw : RawMessage) (members : Json.Members) :
    Logged (Except Violation Unit) := do
  noteHost raw members
  match check members with
  | .error violation => pure (.error violation)
  | .ok () => do
    noteTimestamp raw members
    pure (.ok ())

end LogIntake.Gelf
