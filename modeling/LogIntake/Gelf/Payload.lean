import LogIntake.Compression.Container
import LogIntake.Event

/-!
# GELF payloads

A payload becomes text by undoing its compression, if it has one, and decoding
the bytes with a charset. Decompression is bounded: no more than one byte beyond
the limit is read, and an output beyond the limit is an error. Plain payloads
are not bounded.

Chunks must have been put together before; one that comes here is an error.
-/

namespace LogIntake.Gelf

/-- Why a payload cannot be made text. -/
inductive Payload.Error
  | tooShort
  | unreassembledChunk
  | decompression (framing : Framing) (fault : Compression.Fault)
  | sizeLimitExceeded (limit : Nat)
deriving DecidableEq, Repr

/-- The wording of an error. -/
def Payload.Error.message : Payload.Error → Text
  | tooShort => "GELF message is too short. Not even the type header would fit.".toList
  | unreassembledChunk => "GELF chunk reached the decoder without being reassembled".toList
  | decompression framing fault =>
    Text.concat
      ["Failed to decompress ".toList, framing.name, " payload: ".toList, fault.message]
  | sizeLimitExceeded limit =>
    Text.concat
      ["Decompressed payload exceeds the limit of ".toList, Text.ofNat limit, " bytes".toList]

namespace Payload

/-- The framing of a payload. -/
def framing (payload : List UInt8) : Except Payload.Error Framing :=
  match Framing.ofPayload? payload with
  | some framing => .ok framing
  | none => .error .tooShort

/-- What is made of a reading that may have gone one byte beyond the limit. -/
def ofReading (framing : Framing) (limit : Nat) (reading : Compression.Reading) :
    Except Payload.Error (List UInt8) :=
  match reading.fault? with
  | some fault => .error (.decompression framing fault)
  | none =>
    if limit < reading.bytes.length then .error (.sizeLimitExceeded limit) else .ok reading.bytes

/-- The room for reading: one byte beyond the limit, as far as it can be counted. Counts of
bytes have 64 bits, so the greatest limit leaves no room beyond it. -/
def room (limit : Nat) : Nat :=
  min (limit + 1) (Nat.pow 2 64 - 1)

/-- Reads a whole delivery of at most `limit` bytes, and leaves what lies behind. -/
def bounded (framing : Framing) (limit : Nat) (delivery : Compression.Delivery) :
    Except Payload.Error (List UInt8) × Compression.Delivery :=
  let reading := delivery.take (room limit)
  (ofReading framing limit reading, reading.rest)

/-- The bytes of a payload without its compression. -/
def inflated (framing : Framing) (limit : Nat) (payload : List UInt8) :
    Except Payload.Error (List UInt8) :=
  match framing with
  | .uncompressed => .ok payload
  | .gzip => (bounded .gzip limit (Compression.Gzip.deliver payload)).1
  | .zlib => (bounded .zlib limit (Compression.Zlib.deliver payload)).1
  | .chunked => .error .unreassembledChunk

/-- The text of a payload. -/
def toText (payload : List UInt8) (limit : Nat) (charset : Charset) :
    Logged (Except Payload.Error Text) :=
  match framing payload with
  | .error e => pure (.error e)
  | .ok framing => do
    Logged.note (.payloadDecoding payload.length framing)
    pure ((inflated framing limit payload).map charset.decode)

end Payload

end LogIntake.Gelf
