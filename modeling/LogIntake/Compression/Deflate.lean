import LogIntake.Compression.PrefixCode

/-!
# Deflate

A deflate stream is a sequence of blocks: stored bytes, or literals and copies
of earlier output in prefix codes that are fixed or described in the block. A
copy reaches at most 32768 bytes back; what lies before the first byte of the
output counts as zeros.

Output is delivered in windows of 32768 bytes. A window is delivered once a
further byte is due, and input is read in portions of 32768 bytes, before each
of which all output so far is delivered. Corrupt data takes the output with it
that has not been delivered when it is met, whereas a stream that is cut short
delivers all that came before.
-/

namespace LogIntake.Compression.Deflate

/-- The number of bytes in a window. -/
def windowSize : Nat :=
  32768

/-- The number of bytes in a portion of input. -/
def portionSize : Nat :=
  32768

/-- What comes next in a stream. -/
inductive Block
  | header
  | stored (isLast : Bool) (left : Nat)
  | coded (isLast : Bool) (literals distances : PrefixCode)
deriving DecidableEq, Repr

/-- What is appended to the output. -/
inductive Token
  | nothing
  | literal (byte : UInt8)
  | copy (distance count : Nat)
deriving DecidableEq, Repr

/-- What a step takes from a stream: something to append, what comes next unless
the stream ends, and the bits behind it. -/
structure Step where
  token : Token
  next? : Option Block
  bits : Bits
deriving DecidableEq, Repr

/-! ## Codes -/

/-- The word lengths of the fixed code of literals and copy lengths. -/
def fixedLiteralLengths : List Nat :=
  List.replicate 144 8 ++ List.replicate 112 9 ++ List.replicate 24 7 ++ List.replicate 8 8

/-- The fixed code of literals and copy lengths. -/
def fixedLiterals : PrefixCode :=
  .ofLengths fixedLiteralLengths

/-- The fixed code of distances. -/
def fixedDistances : PrefixCode :=
  .ofLengths (List.replicate 32 5)

/-- Shortest copy and number of further bits for each length symbol from 257 on. -/
def lengthTable : Array (Nat × Nat) :=
  #[(3, 0), (4, 0), (5, 0), (6, 0), (7, 0), (8, 0), (9, 0), (10, 0), (11, 1), (13, 1), (15, 1),
    (17, 1), (19, 2), (23, 2), (27, 2), (31, 2), (35, 3), (43, 3), (51, 3), (59, 3), (67, 4),
    (83, 4), (99, 4), (115, 4), (131, 5), (163, 5), (195, 5), (227, 5), (258, 0)]

/-- Shortest distance and number of further bits for each distance symbol. -/
def distanceTable : Array (Nat × Nat) :=
  #[(1, 0), (2, 0), (3, 0), (4, 0), (5, 1), (7, 1), (9, 2), (13, 2), (17, 3), (25, 3), (33, 4),
    (49, 4), (65, 5), (97, 5), (129, 6), (193, 6), (257, 7), (385, 7), (513, 8), (769, 8),
    (1025, 9), (1537, 9), (2049, 10), (3073, 10), (4097, 11), (6145, 11), (8193, 12),
    (12289, 12), (16385, 13), (24577, 13)]

/-- The order in which a block describes the code of its code lengths. -/
def lengthOrder : List Nat :=
  [16, 17, 18, 0, 8, 7, 9, 6, 10, 5, 11, 4, 12, 3, 13, 2, 14, 1, 15]

/-- Takes a value of a table: the least one of its row plus further bits. -/
def tableValue (table : Array (Nat × Nat)) (row : Nat) (bits : Bits) :
    Except Fault (Nat × Bits) :=
  match table[row]? with
  | none => .error .corruptStream
  | some (least, count) => do
    let (more, bits) ← bits.number count
    .ok (least + more, bits)

/-- Takes `count` numbers of three bits. -/
def takeSizes : Nat → Bits → Except Fault (List Nat × Bits)
  | 0, bits => .ok ([], bits)
  | count + 1, bits => do
    let (size, bits) ← bits.number 3
    let (sizes, bits) ← takeSizes count bits
    .ok (size :: sizes, bits)

/-- The run of code lengths that a symbol of the length code stands for, behind
the lengths so far, which are kept in reverse. -/
def lengthRun (symbol : Nat) (reversed : List Nat) (bits : Bits) :
    Except Fault (List Nat × Bits) :=
  if symbol < 16 then .ok ([symbol], bits)
  else if symbol = 16 then
    match reversed with
    | [] => .error .corruptStream
    | last :: _ => do
      let (more, bits) ← bits.number 2
      .ok (List.replicate (3 + more) last, bits)
  else if symbol = 17 then do
    let (more, bits) ← bits.number 3
    .ok (List.replicate (3 + more) 0, bits)
  else do
    let (more, bits) ← bits.number 7
    .ok (List.replicate (11 + more) 0, bits)

/-- Takes code lengths until none are left to take. No run may be longer than
what is left. -/
def takeLengths (code : PrefixCode) : Nat → Nat → List Nat → Bits →
    Except Fault (List Nat × Bits)
  | _, 0, reversed, bits => .ok (reversed.reverse, bits)
  | 0, _, _, _ => .error .corruptStream
  | fuel + 1, left, reversed, bits => do
    let (symbol, bits) ← code.decode bits
    let (run, bits) ← lengthRun symbol reversed bits
    if left < run.length then .error .corruptStream
    else takeLengths code fuel (left - run.length) (run.reverseAux reversed) bits

/-- Takes the description of the two codes of a block. -/
def takeCodes (bits : Bits) : Except Fault ((PrefixCode × PrefixCode) × Bits) := do
  let (more, bits) ← bits.number 5
  let literalCount := 257 + more
  let (more, bits) ← bits.number 5
  let distanceCount := 1 + more
  let (more, bits) ← bits.number 4
  if 286 < literalCount ∨ 30 < distanceCount then .error .corruptStream
  else
    let (sizes, bits) ← takeSizes (4 + more) bits
    let described := lengthOrder.zip sizes
    let lengthCode ← PrefixCode.ofLengths? false
      ((List.range 19).map fun symbol => (described.lookup symbol).getD 0)
    let total := literalCount + distanceCount
    let (lengths, bits) ← takeLengths lengthCode total total [] bits
    let literals ← PrefixCode.ofLengths? true (lengths.take literalCount)
    let distances ← PrefixCode.ofLengths? true (lengths.drop literalCount)
    .ok ((literals, distances), bits)

/-! ## Steps -/

/-- What comes after the end of a block. -/
def afterBlock (isLast : Bool) : Option Block :=
  if isLast then none else some .header

/-- What comes next in a stored block with `left` bytes left. -/
def storedBlock (isLast : Bool) (left : Nat) : Option Block :=
  if left = 0 then afterBlock isLast else some (.stored isLast left)

/-- Takes the header of a block. -/
def headerStep (bits : Bits) : Except Fault Step := do
  let (last, bits) ← bits.number 1
  let (kind, bits) ← bits.number 2
  let isLast := last == 1
  match kind with
  | 0 => do
    let (size, bits) ← bits.align.number 16
    let (complement, bits) ← bits.number 16
    if size + complement = 0xFFFF then .ok ⟨.nothing, storedBlock isLast size, bits⟩
    else .error .corruptStream
  | 1 => .ok ⟨.nothing, some (.coded isLast fixedLiterals fixedDistances), bits⟩
  | 2 => do
    let ((literals, distances), bits) ← takeCodes bits
    .ok ⟨.nothing, some (.coded isLast literals distances), bits⟩
  | _ => .error .corruptStream

/-- Takes a literal, a copy or the end of a coded block. -/
def codedStep (isLast : Bool) (literals distances : PrefixCode) (bits : Bits) :
    Except Fault Step := do
  let (symbol, bits) ← literals.decode bits
  if symbol < 256 then
    .ok ⟨.literal (UInt8.ofNat symbol), some (.coded isLast literals distances), bits⟩
  else if symbol = 256 then .ok ⟨.nothing, afterBlock isLast, bits⟩
  else do
    let (count, bits) ← tableValue lengthTable (symbol - 257) bits
    let (row, bits) ← distances.decode bits
    let (distance, bits) ← tableValue distanceTable row bits
    .ok ⟨.copy distance count, some (.coded isLast literals distances), bits⟩

/-- Takes a block header, a stored byte, a literal or a copy. -/
def Block.step (block : Block) (bits : Bits) : Except Fault Step :=
  match block with
  | .header => headerStep bits
  | .stored isLast left => do
    let (byte, bits) ← bits.number 8
    .ok ⟨.literal (UInt8.ofNat byte), storedBlock isLast (left - 1), bits⟩
  | .coded isLast literals distances => codedStep isLast literals distances bits

/-- Appends `count` bytes from `distance` bytes back. -/
def copyBack (distance : Nat) : Nat → Array UInt8 → Array UInt8
  | 0, output => output
  | count + 1, output =>
    let byte := if distance ≤ output.size then output.getD (output.size - distance) 0 else 0
    copyBack distance count (output.push byte)

/-- Appends what a token stands for. -/
def Token.appendTo (token : Token) (output : Array UInt8) : Array UInt8 :=
  match token with
  | .nothing => output
  | .literal byte => output.push byte
  | .copy distance count => copyBack distance count output

/-! ## Delivery -/

/-- What ends a stream: from the output that has not been delivered, all output,
the bytes behind the stream in the portion at hand and those of later portions,
it makes the rest of the delivery. -/
abbrev Finish :=
  List UInt8 → Array UInt8 → List UInt8 → List UInt8 → Delivery

/-- Decodes and delivers the output from the byte `sent` on. The bits are those
of the portion at hand, and the bytes those of later portions. -/
def deliver (finish : Finish) :
    Nat → Nat → Block → Bits → List UInt8 → Array UInt8 → Delivery
  | 0, _, _, _, _, _ => .failed .incompleteStream
  | fuel + 1, sent, block, bits, later, output =>
    match block.step bits with
    | .error .incompleteStream =>
      .chunk (output.toList.drop sent) fun _ =>
        if later.isEmpty then .failed .incompleteStream
        else
          deliver finish fuel output.size block (bits.extend (later.take portionSize))
            (later.drop portionSize) output
    | .error fault => .failed fault
    | .ok step =>
      let output := step.token.appendTo output
      let windowEnd := (sent / windowSize + 1) * windowSize
      let onward (sent : Nat) : Delivery :=
        match step.next? with
        | none => finish (output.toList.drop sent) output step.bits.bytes later
        | some block => deliver finish fuel sent block step.bits later output
      if windowEnd < output.size then
        .chunk (output.extract sent windowEnd).toList fun _ => onward windowEnd
      else onward sent

/-- The delivery of the deflate stream that starts at a place in a payload. The
portions are those of the payload. Each step takes a bit and each portion a
byte, so the number of bits and bytes covers the rounds. -/
def inflate (finish : Finish) (start : Nat) (payload : List UInt8) : Delivery :=
  let stream := payload.drop start
  let first := portionSize - start % portionSize
  deliver finish (9 * stream.length + 2) 0 .header (.ofBytes (stream.take first))
    (stream.drop first) #[]

end LogIntake.Compression.Deflate
