import LogIntake.Text.Basic

/-!
# Deliveries

A decompressor delivers its output in chunks and then either finishes or fails.
A delivery is computed as far as it is read: what lies behind a chunk is a
function that is called only when more is wanted, so reading a few bytes of an
endless stream costs no more than those bytes.
-/

namespace LogIntake.Compression

/-- Why a compressed stream cannot be read to its end. -/
inductive Fault
  | unexpectedEnd
  | invalidHeader
  | headerFieldTooLong
  | checksumMismatch
  | incompleteStream
  | corruptStream
deriving DecidableEq, Repr

/-- The wording of a fault. -/
def Fault.message : Fault → Text
  | .unexpectedEnd => "unexpected end of file".toList
  | .invalidHeader => "invalid gzip header".toList
  | .headerFieldTooLong => "gzip header field too long".toList
  | .checksumMismatch => "corrupt gzip stream does not have a matching checksum".toList
  | .incompleteStream => "incomplete deflate stream".toList
  | .corruptStream => "corrupt deflate stream".toList

/-- A stream of bytes in chunks, which finishes or fails. -/
inductive Delivery
  | finished
  | failed (fault : Fault)
  | chunk (bytes : List UInt8) (rest : Unit → Delivery)

/-- What reading takes from a delivery: the bytes, the fault if it came to one, and
the delivery that is left. -/
structure Reading where
  bytes : List UInt8
  fault? : Option Fault
  rest : Delivery

namespace Delivery

/-- Reads until `room` bytes have been taken or the stream ends. The bytes taken
before are kept in reverse. A fault counts only if reading comes to it. -/
def takeFrom (reversed : List UInt8) : Nat → Delivery → Reading
  | _, finished => ⟨reversed.reverse, none, finished⟩
  | _, failed fault => ⟨reversed.reverse, some fault, failed fault⟩
  | room, chunk bytes rest =>
    if room ≤ bytes.length then
      ⟨((bytes.take room).reverseAux reversed).reverse, none, chunk (bytes.drop room) rest⟩
    else (rest ()).takeFrom (bytes.reverseAux reversed) (room - bytes.length)

/-- Reads at most `room` bytes. -/
def take (room : Nat) (delivery : Delivery) : Reading :=
  delivery.takeFrom [] room

end Delivery

end LogIntake.Compression
