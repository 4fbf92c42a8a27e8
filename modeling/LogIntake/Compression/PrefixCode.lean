import LogIntake.Compression.Bits

/-!
# Canonical prefix codes

A canonical prefix code is given by the lengths of its code words. Words of one
length are consecutive numbers in the order of their symbols, and they follow
on the shorter words, so a word is decoded from the number of words of each
length alone.

A code is complete when its words fill the space of all bit strings. Codes that
overfill it are refused. Codes that leave room are refused as well, except two
where the format allows them: the code without words, and the code whose only
word is one bit long. A bit that begins no word of such a code is corrupt.
-/

namespace LogIntake.Compression

/-- The number of words of each length from one to the greatest, and the symbols
in the order of their words. -/
structure PrefixCode where
  counts : List Nat
  symbols : Array Nat
deriving DecidableEq, Repr

namespace PrefixCode

/-- The lengths that are looked for: from one to the greatest in use, and one in
any case. -/
def sizes (lengths : List Nat) : List Nat :=
  List.range' 1 (lengths.foldl max 1)

/-- The code with the given word lengths; a length of zero gives no word. -/
def ofLengths (lengths : List Nat) : PrefixCode :=
  ⟨(sizes lengths).map lengths.count,
    ((sizes lengths).flatMap fun size =>
      lengths.zipIdx.filterMap fun (length, symbol) =>
        if length = size then some symbol else none).toArray⟩

/-- The share of all bit strings that begin with a word, in units of the
shortest share. -/
def filled (counts : List Nat) : Nat :=
  counts.foldl (fun share count => 2 * share + count) 0

/-- Whether the words fill the space of all bit strings. -/
def isComplete (code : PrefixCode) : Bool :=
  filled code.counts == Nat.pow 2 code.counts.length

/-- Whether there is no word, or a single one of one bit. -/
def isSparse (code : PrefixCode) : Bool :=
  code.counts == [0] || code.counts == [1]

/-- The code with the given word lengths, which is complete or, where that is
allowed, sparse. -/
def ofLengths? (sparseAllowed : Bool) (lengths : List Nat) : Except Fault PrefixCode :=
  let code := ofLengths lengths
  if code.isComplete || (sparseAllowed && code.isSparse) then .ok code
  else .error .corruptStream

/-- Decodes a word bit by bit. `word` is the number read so far, `first` the
first word of the current length and `index` the place of its symbol. -/
def decodeFrom (symbols : Array Nat) (word first index : Nat) :
    List Nat → Bits → Except Fault (Nat × Bits)
  | [], _ => .error .corruptStream
  | count :: counts, bits => do
    let (bit, bits) ← bits.next
    let word := 2 * word + bit.toNat
    if word < first + count then .ok (symbols.getD (index + (word - first)) 0, bits)
    else decodeFrom symbols word (2 * (first + count)) (index + count) counts bits

/-- Decodes one symbol. -/
def decode (code : PrefixCode) (bits : Bits) : Except Fault (Nat × Bits) :=
  decodeFrom code.symbols 0 0 0 code.counts bits

end PrefixCode

end LogIntake.Compression
