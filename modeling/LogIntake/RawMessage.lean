import LogIntake.Address
import LogIntake.Instant
import LogIntake.Text.Digits

/-!
# Raw messages

A raw message is what a transport hands over: the payload as it was received,
with an id, the sender's endpoint if there is one, and the time of receipt.
Diagnostics name a raw message by its id and endpoint.

A message id is a number of 128 bits. It is written in hexadecimal, in groups
of 8, 4, 4, 4 and 12 digits.
-/

namespace LogIntake

/-! ## Ids -/

/-- The id of a raw message. -/
structure MessageId where
  value : BitVec 128
deriving DecidableEq, Repr

namespace MessageId

/-- The id with all bits zero. -/
def nil : MessageId :=
  ⟨0⟩

/-- The id after this one; ids repeat only after all have been used. -/
def next (id : MessageId) : MessageId :=
  ⟨id.value + 1⟩

/-- The digits of an id in groups. -/
def toText (id : MessageId) : Text :=
  let digits := Text.padZeros 32 (Text.hex id.value.toNat)
  let group (start count : Nat) : Text := (digits.drop start).take count
  Text.concat
    [group 0 8, ['-'], group 8 4, ['-'], group 12 4, ['-'], group 16 4, ['-'], group 20 12]

/-- Reads 32 hexadecimal digits, with hyphens between them or without. -/
def ofText? (text : Text) : Option MessageId := do
  let digits ← (text.filter (· != '-')).mapM Text.hexDigit?
  if digits.length = 32 then
    some ⟨BitVec.ofNat 128 (digits.foldl (fun n digit => 16 * n + digit) 0)⟩
  else none

end MessageId

/-! ## Messages as received -/

/-- A payload as received, before any decoding. -/
structure RawMessage where
  id : MessageId
  payload : List UInt8
  remote? : Option Endpoint
  received : Instant
deriving DecidableEq, Repr

/-- How diagnostics name a raw message. -/
def RawMessage.label (raw : RawMessage) : Text :=
  match raw.remote? with
  | some remote =>
    Text.concat [['<'], raw.id.toText, "> (received from <".toList, remote.toText, ">)".toList]
  | none => Text.concat [['<'], raw.id.toText, ['>']]

end LogIntake
