import LogIntake.Compression.Delivery

/-!
# Bits

Deflate packs its fields from the least significant bit of each byte on. A bit
stream holds the bits of the byte that has been begun and the bytes after it;
aligning gives up what is left of the byte.
-/

namespace LogIntake.Compression

/-- Bits still to be read: those of a byte that has been begun, then bytes. -/
structure Bits where
  begun : List Bool
  bytes : List UInt8
deriving DecidableEq, Repr

namespace Bits

/-- All bits of the bytes. -/
def ofBytes (bytes : List UInt8) : Bits :=
  ⟨[], bytes⟩

/-- The bits of a byte, the least significant first. -/
def ofByte (byte : UInt8) : List Bool :=
  (List.range 8).map byte.toNat.testBit

/-- Takes one bit. -/
def next : Bits → Except Fault (Bool × Bits)
  | ⟨bit :: begun, bytes⟩ => .ok (bit, ⟨begun, bytes⟩)
  | ⟨[], byte :: bytes⟩ => .ok (byte.toNat.testBit 0, ⟨(ofByte byte).tail, bytes⟩)
  | ⟨[], []⟩ => .error .incompleteStream

/-- Takes a number of `count` bits, the least significant first. -/
def number : Nat → Bits → Except Fault (Nat × Bits)
  | 0, bits => .ok (0, bits)
  | count + 1, bits => do
    let (bit, bits) ← bits.next
    let (value, bits) ← number count bits
    .ok (2 * value + bit.toNat, bits)

/-- Appends bytes that have just been read. -/
def extend (bits : Bits) (bytes : List UInt8) : Bits :=
  ⟨bits.begun, bits.bytes ++ bytes⟩

/-- Gives up the rest of the byte that has been begun. -/
def align (bits : Bits) : Bits :=
  ⟨[], bits.bytes⟩

end Bits

end LogIntake.Compression
