import LogIntake.Charset.Utf8

/-!
# Reading UTF-16

Two bytes make a code unit, in either order. A high surrogate waits for a low
one, and the two make one character; a surrogate without its partner gives one
replacement character. A byte that is left over at the end gives one more.
-/

namespace LogIntake.Charset

/-- Which byte of a code unit comes first: the high one or the low one. -/
inductive ByteOrder
  | bigEndian
  | littleEndian
deriving DecidableEq, Repr

namespace Utf16

/-- The code unit of two bytes. -/
def unit : ByteOrder → UInt8 → UInt8 → Nat
  | .bigEndian, first, second => first.toNat * 256 + second.toNat
  | .littleEndian, first, second => second.toNat * 256 + first.toNat

/-- What a code unit yields when no high surrogate waits. -/
def start (unit : Nat) : Text × Option Nat :=
  if Text.isHighSurrogate unit then ([], some unit)
  else if Text.isLowSurrogate unit then ([replacement], none)
  else ([Char.ofNat unit], none)

/-- What a code unit yields, and the high surrogate that waits after it. -/
def step (waiting? : Option Nat) (unit : Nat) : Text × Option Nat :=
  match waiting? with
  | none => start unit
  | some high =>
    if Text.isLowSurrogate unit then
      ([Text.pairChar high unit], none)
    else
      let (written, waiting?) := start unit
      (replacement :: written, waiting?)

/-- The end of the text behind a surrogate that may wait. -/
def finish (waiting? : Option Nat) (reversed : Text) : Text :=
  if waiting?.isSome then replacement :: reversed else reversed

/-- Decodes bytes after a surrogate that may wait. The characters so far are
kept in reverse. -/
def decodeFrom (order : ByteOrder) (waiting? : Option Nat) (reversed : Text) :
    List UInt8 → Text
  | [] => (finish waiting? reversed).reverse
  | [_] => (replacement :: finish waiting? reversed).reverse
  | first :: second :: rest =>
    let (written, waiting?) := step waiting? (unit order first second)
    decodeFrom order waiting? (written.reverseAux reversed) rest

/-- The text that the bytes hold in the given order. -/
def decode (order : ByteOrder) (bytes : List UInt8) : Text :=
  decodeFrom order none [] bytes

/-- The text that the bytes hold, in the order that a leading byte order mark
gives, which is not part of the text; without one the high byte comes first. -/
def decodeMarked : List UInt8 → Text
  | 0xFE :: 0xFF :: bytes => decode .bigEndian bytes
  | 0xFF :: 0xFE :: bytes => decode .littleEndian bytes
  | bytes => decode .bigEndian bytes

end Utf16

end LogIntake.Charset
