import LogIntake.Compression.Deflate

/-!
# Zlib and gzip

Both formats wrap one deflate stream. A zlib stream ends with the Adler-32 of
the output, which is checked before the last output is delivered unless it has
to be read first; a gzip stream with its CRC-32 and length, which are checked
after all output has been delivered. Whatever follows the first stream is not
read.

CRC-32 is the one with the reflected polynomial `0xEDB88320`. Both checksums are
folds over the bytes.
-/

namespace LogIntake.Compression

/-! ## Checksums -/

/-- Shifts one bit out of a CRC-32 register. -/
def crcBit (register : UInt32) : UInt32 :=
  if register &&& 1 = 1 then (register >>> 1) ^^^ 0xEDB88320 else register >>> 1

/-- Takes a byte into a CRC-32 register. -/
def crcByte (register : UInt32) (byte : UInt8) : UInt32 :=
  Nat.repeat crcBit 8 (register ^^^ byte.toUInt32)

/-- The CRC-32 of the bytes. -/
def crc32 (bytes : Array UInt8) : UInt32 :=
  bytes.foldl crcByte 0xFFFFFFFF ^^^ 0xFFFFFFFF

/-- The modulus of both sums of Adler-32. -/
def adlerModulus : Nat :=
  65521

/-- Takes a byte into the two sums of Adler-32. -/
def adlerByte (sums : Nat × Nat) (byte : UInt8) : Nat × Nat :=
  let low := (sums.1 + byte.toNat) % adlerModulus
  (low, (sums.2 + low) % adlerModulus)

/-- The Adler-32 of the bytes. -/
def adler32 (bytes : Array UInt8) : Nat :=
  let sums := bytes.foldl adlerByte (1, 0)
  sums.2 * Nat.pow 2 16 + sums.1

/-- The number of bytes with the least significant first. -/
def littleEndian (bytes : List UInt8) : Nat :=
  bytes.foldr (fun byte n => byte.toNat + 256 * n) 0

/-- The number of bytes with the most significant first. -/
def bigEndian (bytes : List UInt8) : Nat :=
  bytes.foldl (fun n byte => 256 * n + byte.toNat) 0

/-! ## Streams -/

namespace Zlib

/-- The number of bytes in the header. -/
def headerSize : Nat :=
  2

/-- The number of bytes in the checksum. -/
def checksumSize : Nat :=
  4

/-- The end of a zlib stream. -/
def finish : Deflate.Finish := fun undelivered output atHand later =>
  let checksum := (atHand ++ later).take checksumSize
  if checksum.length < checksumSize then
    .chunk undelivered fun _ => .failed .incompleteStream
  else if bigEndian checksum = adler32 output then .chunk undelivered fun _ => .finished
  else if atHand.length < checksumSize then .chunk undelivered fun _ => .failed .corruptStream
  else .failed .corruptStream

/-- The delivery of a zlib stream. -/
def deliver (payload : List UInt8) : Delivery :=
  Deflate.inflate finish headerSize payload

end Zlib

namespace Gzip

/-- The number of bytes that every header has. -/
def fixedHeaderSize : Nat :=
  10

/-- The greatest number of bytes in a file name or a comment. -/
def maxFieldSize : Nat :=
  65535

/-- The rest of the bytes behind the first `count`. -/
def skip (count : Nat) (bytes : List UInt8) : Except Fault (List UInt8) :=
  if bytes.length < count then .error .unexpectedEnd else .ok (bytes.drop count)

/-- Skips the extra field, which begins with its length. -/
def skipExtra : List UInt8 → Except Fault (List UInt8)
  | a :: b :: bytes => skip (littleEndian [a, b]) bytes
  | _ => .error .unexpectedEnd

/-- Skips a field that ends with a zero byte. -/
def skipField (bytes : List UInt8) : Except Fault (List UInt8) :=
  let field := bytes.takeWhile (· != 0)
  if maxFieldSize < field.length then .error .headerFieldTooLong
  else skip (field.length + 1) bytes

/-- Checks the header checksum against the bytes of the header before it. -/
def checkHeader (whole : List UInt8) : List UInt8 → Except Fault (List UInt8)
  | a :: b :: bytes =>
    let header := whole.take (whole.length - (bytes.length + 2))
    if littleEndian [a, b] = (crc32 header.toArray).toNat % Nat.pow 2 16 then .ok bytes
    else .error .checksumMismatch
  | _ => .error .unexpectedEnd

/-- Takes a part of the header if the bit of `flags` says that it is there. -/
def optional (flags bit : Nat) (part : List UInt8 → Except Fault (List UInt8))
    (bytes : List UInt8) : Except Fault (List UInt8) :=
  if flags.testBit bit then part bytes else .ok bytes

/-- The bytes behind the header. The only method is deflate, and the three
highest flags are reserved. -/
def body (bytes : List UInt8) : Except Fault (List UInt8) := do
  let rest ← skip fixedHeaderSize bytes
  let method := bytes.getD 2 0
  let flags := (bytes.getD 3 0).toNat
  if method ≠ 8 ∨ 32 ≤ flags then .error .invalidHeader
  else
    let rest ← optional flags 2 skipExtra rest
    let rest ← optional flags 3 skipField rest
    let rest ← optional flags 4 skipField rest
    optional flags 1 (checkHeader bytes) rest

/-- The end of a gzip stream. -/
def trailer (output : Array UInt8) : List UInt8 → Delivery
  | a :: b :: c :: d :: e :: f :: g :: h :: _ =>
    if littleEndian [a, b, c, d] = (crc32 output).toNat ∧
        littleEndian [e, f, g, h] = output.size % Nat.pow 2 32 then .finished
    else .failed .checksumMismatch
  | _ => .failed .unexpectedEnd

/-- The last output and the trailer behind it. -/
def finish : Deflate.Finish := fun undelivered output atHand later =>
  .chunk undelivered fun _ => trailer output (atHand ++ later)

/-- The delivery of a gzip stream. -/
def deliver (payload : List UInt8) : Delivery :=
  match body payload with
  | .error fault => .failed fault
  | .ok rest => Deflate.inflate finish (payload.length - rest.length) payload

end Gzip

end LogIntake.Compression
