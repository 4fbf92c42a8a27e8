import LogIntake.Text.Basic

/-!
# Walking over the bytes of a token

Whether a token is a numeral is told from its bytes. A walk over them keeps the number of the
bytes that it has passed; there it asks for the next byte, or cuts off the bytes that are
left. Asked for beyond the end, the next byte is merely absent. A cut beyond the end is a
fault, which is told apart from bytes that belong to no numeral.

A walk passes as much as it can and reports how far it came.
-/

namespace LogIntake.Json.NumeralWalk

/-- Why a walk ends without having passed a numeral. -/
inductive Stop
  /-- The bytes that are left do not go on as a numeral. -/
  | mismatch
  /-- Bytes were to be cut off beyond the end. -/
  | outOfBounds
deriving DecidableEq, Repr

/-- The bytes of a text in UTF-8. -/
def bytesOf (text : Text) : List UInt8 :=
  text.flatMap String.utf8EncodeChar

/-- The ASCII digits. -/
def isDigit (byte : UInt8) : Bool :=
  '0'.toUInt8 ≤ byte && byte ≤ '9'.toUInt8

/-- The number of digits in front of the bytes that are left. -/
def digitCount (bytes : List UInt8) (passed : Nat) : Except Stop Nat :=
  if passed ≤ bytes.length then .ok ((bytes.drop passed).takeWhile isDigit).length
  else .error .outOfBounds

/-- Passes digits; there must be one at least. -/
def passDigits (bytes : List UInt8) (passed : Nat) : Except Stop Nat := do
  let count ← digitCount bytes passed
  if count = 0 then .error .mismatch else .ok (passed + count)

/-- Passes the whole part. A zero stands alone. -/
def passWhole (bytes : List UInt8) (passed : Nat) : Except Stop Nat :=
  match bytes[passed]? with
  | none => .error .mismatch
  | some byte =>
    if byte = '0'.toUInt8 then .ok (passed + 1)
    else if isDigit byte then (digitCount bytes passed).map fun count => passed + count
    else .error .mismatch

/-- Passes a fraction if a point comes next. -/
def passFraction (bytes : List UInt8) (passed : Nat) : Except Stop Nat :=
  if bytes[passed]? = some '.'.toUInt8 then passDigits bytes (passed + 1) else .ok passed

/-- Passes a sign if one comes next. -/
def passSign (bytes : List UInt8) (passed : Nat) : Nat :=
  if bytes[passed]? = some '+'.toUInt8 ∨ bytes[passed]? = some '-'.toUInt8 then passed + 1
  else passed

/-- Passes an exponent if its letter comes next. -/
def passExponent (bytes : List UInt8) (passed : Nat) : Except Stop Nat :=
  if bytes[passed]? = some 'e'.toUInt8 ∨ bytes[passed]? = some 'E'.toUInt8 then
    passDigits bytes (passSign bytes (passed + 1))
  else .ok passed

/-- Passes everything behind the sign of a numeral. -/
def passUnsigned (bytes : List UInt8) (passed : Nat) : Except Stop Nat := do
  let passed ← passWhole bytes passed
  let passed ← passFraction bytes passed
  passExponent bytes passed

/-- Passes a numeral. -/
def pass (bytes : List UInt8) : Except Stop Nat :=
  passUnsigned bytes (if bytes[0]? = some '-'.toUInt8 then 1 else 0)

end LogIntake.Json.NumeralWalk
