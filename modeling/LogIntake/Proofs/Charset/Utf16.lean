import LogIntake.Charset.Utf16
import LogIntake.Proofs.Charset.Utf8

/-!
# Reading and writing code units

Each pair of bytes yields what its code unit yields behind the surrogate that may wait,
and the rest is decoded behind the surrogate that then may wait. So a text starts with
the character of its first code unit, or, if this is a high surrogate, with a character
beyond the first plane or a replacement.

A text is read back from its code units in either order of bytes. Without a replacement,
the characters of a step and the surrogate behind it are the code units that it has taken,
so what is decoded without one is a text that was written.
-/

namespace LogIntake.Charset.Utf16

variable {order : ByteOrder}

theorem decodeFrom_cons_cons (waiting? : Option Nat) (reversed : Text) (first second : UInt8)
    (rest : List UInt8) :
    decodeFrom order waiting? reversed (first :: second :: rest) =
      decodeFrom order (step waiting? (unit order first second)).2
        ((step waiting? (unit order first second)).1.reverseAux reversed) rest :=
  rfl

/-- What has been decoded before is not looked at again. -/
theorem decodeFrom_eq (waiting? : Option Nat) (reversed : Text) :
    ∀ bytes, decodeFrom order waiting? reversed bytes =
      reversed.reverse ++ decodeFrom order waiting? [] bytes
  | [] | [_] => by
      cases waiting? <;> simp [decodeFrom, finish]
  | first :: second :: rest => by
      rw [decodeFrom_cons_cons, decodeFrom_cons_cons, decodeFrom_eq _ _ rest,
        decodeFrom_eq _ (List.reverseAux _ []) rest]
      simp [List.reverseAux_eq]

/-- The characters of the first code unit stand in front of those of the others. -/
theorem decodeFrom_pair (waiting? : Option Nat) (first second : UInt8) (rest : List UInt8) :
    decodeFrom order waiting? [] (first :: second :: rest) =
      (step waiting? (unit order first second)).1 ++
        decodeFrom order (step waiting? (unit order first second)).2 [] rest := by
  rw [decodeFrom_cons_cons, decodeFrom_eq, List.reverseAux_eq, List.append_nil,
    List.reverse_reverse]

theorem toNat_pairChar {high low : Nat} (isHigh : Text.isHighSurrogate high = true)
    (isLow : Text.isLowSurrogate low = true) :
    (Text.pairChar high low).toNat = 0x10000 + (high - 0xD800) * 0x400 + (low - 0xDC00) := by
  simp only [Text.isHighSurrogate, Bool.and_eq_true, decide_eq_true_eq] at isHigh
  simp only [Text.isLowSurrogate, Bool.and_eq_true, decide_eq_true_eq] at isLow
  have valid : Nat.isValidChar (0x10000 + (high - 0xD800) * 0x400 + (low - 0xDC00)) := by
    right
    omega
  exact toNat_ofNat_of_isValidChar valid

theorem le_toNat_pairChar {high low : Nat} (isHigh : Text.isHighSurrogate high = true)
    (isLow : Text.isLowSurrogate low = true) : 0x10000 ≤ (Text.pairChar high low).toNat := by
  rw [toNat_pairChar isHigh isLow, Nat.add_assoc]
  exact Nat.le_add_right _ _

/-- Behind a high surrogate there is a replacement or a character beyond the first
plane. -/
theorem exists_head_decodeFrom_some {high : Nat} (isHigh : Text.isHighSurrogate high = true) :
    ∀ bytes, ∃ c rest, decodeFrom order (some high) [] bytes = c :: rest ∧ 0xFFFD ≤ c.toNat
  | [] | [_] => ⟨replacement, _, rfl, by decide⟩
  | first :: second :: rest => by
      rw [decodeFrom_pair, step]
      split
      · rename_i isLow
        exact ⟨_, _, rfl, Nat.le_trans (by decide) (le_toNat_pairChar isHigh isLow)⟩
      · exact ⟨replacement, _, rfl, by decide⟩

theorem unit_lt (order : ByteOrder) (first second : UInt8) : unit order first second < 0x10000 := by
  have firstLt := first.toNat_lt
  have secondLt := second.toNat_lt
  cases order <;> simp only [unit] <;> omega

/-- A code unit that is no surrogate is a character. -/
theorem isValidChar_of_not_surrogate {n : Nat} (below : n < 0x10000)
    (notHigh : Text.isHighSurrogate n = false) (notLow : Text.isLowSurrogate n = false) :
    n.isValidChar := by
  simp only [Text.isHighSurrogate, Text.isLowSurrogate, Bool.and_eq_false_iff,
    decide_eq_false_iff_not] at notHigh notLow
  unfold Nat.isValidChar
  omega

/-- The first character is that of the first code unit, unless this is a surrogate. -/
theorem exists_head_decode {first second : UInt8}
    (notLow : Text.isLowSurrogate (unit order first second) = false) (rest : List UInt8) :
    ∃ c tail, decode order (first :: second :: rest) = c :: tail ∧
      (c.toNat = unit order first second ∨ 0xFFFD ≤ c.toNat) := by
  have below := unit_lt order first second
  rw [decode, decodeFrom_pair, step, start]
  generalize unit order first second = n at *
  cases high : Text.isHighSurrogate n with
  | true =>
      obtain ⟨c, tail, decoded, beyond⟩ := @exists_head_decodeFrom_some order n high rest
      exact ⟨c, tail, decoded, .inr beyond⟩
  | false =>
      have valid := isValidChar_of_not_surrogate below high notLow
      simp only [Bool.false_eq_true, if_false, notLow]
      exact ⟨Char.ofNat n, _, rfl, .inl (toNat_ofNat_of_isValidChar valid)⟩

/-! ## Writing -/

/-- The code units of a character: itself, or a pair of surrogates. -/
def units (c : Char) : List Nat :=
  if c.toNat < 0x10000 then [c.toNat]
  else [0xD800 + (c.toNat - 0x10000) / 0x400, 0xDC00 + (c.toNat - 0x10000) % 0x400]

/-- The two bytes of a code unit. -/
def unitBytes : ByteOrder → Nat → List UInt8
  | .bigEndian, unit => [UInt8.ofNat (unit / 256), UInt8.ofNat (unit % 256)]
  | .littleEndian, unit => [UInt8.ofNat (unit % 256), UInt8.ofNat (unit / 256)]

/-- The bytes of the code units of a text. -/
def encode (order : ByteOrder) (text : Text) : List UInt8 :=
  (text.flatMap units).flatMap (unitBytes order)

@[simp]
theorem encode_nil (order : ByteOrder) : encode order [] = [] :=
  rfl

theorem encode_append (order : ByteOrder) (front back : Text) :
    encode order (front ++ back) = encode order front ++ encode order back := by
  simp [encode]

theorem encode_cons (order : ByteOrder) (c : Char) (text : Text) :
    encode order (c :: text) = (units c).flatMap (unitBytes order) ++ encode order text := by
  simp [encode]

theorem unitBytes_unit (order : ByteOrder) (first second : UInt8) :
    unitBytes order (unit order first second) = [first, second] := by
  have firstLt := first.toNat_lt
  have secondLt := second.toNat_lt
  have high_eq (a b : UInt8) : UInt8.ofNat ((a.toNat * 256 + b.toNat) / 256) = a := by
    have below := b.toNat_lt
    rw [show (a.toNat * 256 + b.toNat) / 256 = a.toNat by omega, UInt8.ofNat_toNat]
  have low_eq (a b : UInt8) : UInt8.ofNat ((a.toNat * 256 + b.toNat) % 256) = b := by
    have below := b.toNat_lt
    rw [show (a.toNat * 256 + b.toNat) % 256 = b.toNat by omega, UInt8.ofNat_toNat]
  cases order <;> simp only [unitBytes, unit, high_eq, low_eq]

theorem exists_unitBytes (order : ByteOrder) {n : Nat} (below : n < 0x10000) :
    ∃ first second, unitBytes order n = [first, second] ∧ unit order first second = n := by
  have high : n / 256 % 256 = n / 256 := by omega
  cases order with
  | bigEndian =>
      refine ⟨_, _, rfl, ?_⟩
      simp only [unit, UInt8.toNat_ofNat', high, Nat.reducePow]
      omega
  | littleEndian =>
      refine ⟨_, _, rfl, ?_⟩
      simp only [unit, UInt8.toNat_ofNat', high, Nat.reducePow]
      omega

/-- A code unit that was written is read. -/
theorem decodeFrom_unitBytes (waiting? : Option Nat) (reversed : Text) {n : Nat}
    (below : n < 0x10000) (rest : List UInt8) :
    decodeFrom order waiting? reversed (unitBytes order n ++ rest) =
      decodeFrom order (step waiting? n).2 ((step waiting? n).1.reverseAux reversed) rest := by
  obtain ⟨first, second, bytes_eq, unit_eq⟩ := exists_unitBytes order below
  rw [bytes_eq, List.cons_append, List.cons_append, List.nil_append, decodeFrom_cons_cons, unit_eq]

theorem step_plain {n : Nat} (notHigh : Text.isHighSurrogate n = false)
    (notLow : Text.isLowSurrogate n = false) : step none n = ([Char.ofNat n], none) := by
  simp [step, start, notHigh, notLow]

theorem step_high {n : Nat} (isHigh : Text.isHighSurrogate n = true) :
    step none n = ([], some n) := by
  simp [step, start, isHigh]

theorem step_low {high n : Nat} (isLow : Text.isLowSurrogate n = true) :
    step (some high) n = ([Text.pairChar high n], none) := by
  simp [step, isLow]

/-- A character beyond the first plane is the pair of its surrogates. -/
theorem pair_spec {n : Nat} (above : 0x10000 ≤ n) (below : n < 0x110000) :
    Text.isHighSurrogate (0xD800 + (n - 0x10000) / 0x400) = true ∧
      Text.isLowSurrogate (0xDC00 + (n - 0x10000) % 0x400) = true ∧
      Text.pairChar (0xD800 + (n - 0x10000) / 0x400) (0xDC00 + (n - 0x10000) % 0x400) =
        Char.ofNat n := by
  have value_eq : 0x10000 + (0xD800 + (n - 0x10000) / 0x400 - 0xD800) * 0x400 +
      (0xDC00 + (n - 0x10000) % 0x400 - 0xDC00) = n := by
    omega
  refine ⟨?_, ?_, ?_⟩
  · simp only [Text.isHighSurrogate, Bool.and_eq_true, decide_eq_true_eq]
    omega
  · simp only [Text.isLowSurrogate, Bool.and_eq_true, decide_eq_true_eq]
    omega
  · rw [Text.pairChar, value_eq]

/-- The code units of a character give this character. -/
theorem decodeFrom_units (c : Char) (reversed : Text) (rest : List UInt8) :
    decodeFrom order none reversed ((units c).flatMap (unitBytes order) ++ rest) =
      decodeFrom order none (c :: reversed) rest := by
  have valid : c.toNat < 0xD800 ∨ 0xDFFF < c.toNat ∧ c.toNat < 0x110000 := c.valid
  have char_eq : Char.ofNat c.toNat = c := Char.ofNat_toNat c
  unfold units
  generalize c.toNat = n at *
  split
  · have notHigh : Text.isHighSurrogate n = false := by
      simp only [Text.isHighSurrogate, Bool.and_eq_false_iff, decide_eq_false_iff_not]
      omega
    have notLow : Text.isLowSurrogate n = false := by
      simp only [Text.isLowSurrogate, Bool.and_eq_false_iff, decide_eq_false_iff_not]
      omega
    rw [List.flatMap_singleton, decodeFrom_unitBytes _ _ (by omega), step_plain notHigh notLow,
      char_eq]
    rfl
  · obtain ⟨isHigh, isLow, pair_eq⟩ := pair_spec (show 0x10000 ≤ n by omega) (by omega)
    rw [List.flatMap_cons, List.flatMap_singleton, List.append_assoc,
      decodeFrom_unitBytes _ _ (by omega), step_high isHigh,
      decodeFrom_unitBytes _ _ (by omega), step_low isLow, pair_eq, char_eq]
    rfl

theorem decodeFrom_encode (text reversed : Text) :
    decodeFrom order none reversed (encode order text) = reversed.reverse ++ text := by
  induction text generalizing reversed with
  | nil => simp [decodeFrom, finish]
  | cons c text ih =>
      rw [encode_cons, decodeFrom_units, ih, List.reverse_cons, List.append_assoc]
      rfl

/-- A text is decoded from its bytes. -/
theorem decode_encode (order : ByteOrder) (text : Text) : decode order (encode order text) = text :=
  decodeFrom_encode text []

/-! ## Without replacements -/

theorem units_of_isValidChar {n : Nat} (valid : n.isValidChar) (below : n < 0x10000) :
    units (Char.ofNat n) = [n] := by
  rw [units, toNat_ofNat_of_isValidChar valid, if_pos below]

theorem units_pairChar {high low : Nat} (isHigh : Text.isHighSurrogate high = true)
    (isLow : Text.isLowSurrogate low = true) : units (Text.pairChar high low) = [high, low] := by
  rw [units, toNat_pairChar isHigh isLow]
  simp only [Text.isHighSurrogate, Bool.and_eq_true, decide_eq_true_eq] at isHigh
  simp only [Text.isLowSurrogate, Bool.and_eq_true, decide_eq_true_eq] at isLow
  have high_eq : 0xD800 + (0x10000 + (high - 0xD800) * 0x400 + (low - 0xDC00) - 0x10000) / 0x400 =
      high := by
    omega
  have low_eq : 0xDC00 + (0x10000 + (high - 0xD800) * 0x400 + (low - 0xDC00) - 0x10000) % 0x400 =
      low := by
    omega
  rw [if_neg (by omega), high_eq, low_eq]

/-- Without a replacement, a code unit is written as it was read or waits. -/
theorem units_start {n : Nat} (below : n < 0x10000) (kept : replacement ∉ (start n).1) :
    (∀ high ∈ (start n).2, Text.isHighSurrogate high = true) ∧
      (start n).1.flatMap units ++ (start n).2.toList = [n] := by
  unfold start at kept ⊢
  split
  · rename_i isHigh
    simpa using isHigh
  · rename_i notHigh
    split
    · rename_i isLow
      simp [notHigh, isLow] at kept
    · rename_i notLow
      have valid := isValidChar_of_not_surrogate below (Bool.eq_false_iff.mpr notHigh)
        (Bool.eq_false_iff.mpr notLow)
      simp [units_of_isValidChar valid below]

/-- Without a replacement, the characters of a step and the surrogate that waits behind it
are the code units that it has taken. -/
theorem units_step {waiting? : Option Nat}
    (waits : ∀ high ∈ waiting?, Text.isHighSurrogate high = true) {n : Nat} (below : n < 0x10000)
    (kept : replacement ∉ (step waiting? n).1) :
    (∀ high ∈ (step waiting? n).2, Text.isHighSurrogate high = true) ∧
      (step waiting? n).1.flatMap units ++ (step waiting? n).2.toList = waiting?.toList ++ [n] := by
  cases waiting? with
  | none => exact units_start below kept
  | some high =>
      unfold step at kept ⊢
      dsimp only at kept ⊢
      split
      · rename_i isLow
        simp [units_pairChar (waits high rfl) isLow]
      · rename_i notLow
        simp [notLow] at kept

/-- The bytes that are decoded without a replacement are those of the text, behind the bytes
of the surrogate that waits. -/
theorem encode_decodeFrom {waiting? : Option Nat}
    (waits : ∀ high ∈ waiting?, Text.isHighSurrogate high = true) :
    ∀ bytes, replacement ∉ decodeFrom order waiting? [] bytes →
      encode order (decodeFrom order waiting? [] bytes) =
        waiting?.toList.flatMap (unitBytes order) ++ bytes
  | [], kept => by
      cases waiting? with
      | none => rfl
      | some high => simp [decodeFrom, finish] at kept
  | [_], kept => by
      simp [decodeFrom] at kept
  | first :: second :: rest, kept => by
      rw [decodeFrom_pair] at kept ⊢
      rw [List.mem_append, not_or] at kept
      obtain ⟨stillWaits, units_eq⟩ := units_step waits (unit_lt order first second) kept.1
      have written : encode order (step waiting? (unit order first second)).1 ++
          (step waiting? (unit order first second)).2.toList.flatMap (unitBytes order) =
          waiting?.toList.flatMap (unitBytes order) ++ [first, second] := by
        rw [encode, ← List.flatMap_append, units_eq, List.flatMap_append, List.flatMap_singleton,
          unitBytes_unit]
      rw [encode_append, encode_decodeFrom stillWaits rest kept.2, ← List.append_assoc, written,
        List.append_assoc]
      rfl

/-- Bytes that are decoded without a replacement are the bytes of the text. -/
theorem encode_decode {bytes : List UInt8} (kept : replacement ∉ decode order bytes) :
    encode order (decode order bytes) = bytes :=
  encode_decodeFrom (by rintro _ ⟨⟩) bytes kept

/-! ## Byte order marks -/

/-- The mark of a byte order. -/
def mark (order : ByteOrder) : List UInt8 :=
  unitBytes order 0xFEFF

/-- The character that the mark of an order is when the high byte comes first. -/
def markChar : ByteOrder → Char
  | .bigEndian => Char.ofNat 0xFEFF
  | .littleEndian => Char.ofNat 0xFFFE

theorem decodeMarked_mark (order : ByteOrder) (bytes : List UInt8) :
    decodeMarked (mark order ++ bytes) = decode order bytes := by
  cases order <;> rfl

/-- Bytes without a mark are decoded with the high byte first. -/
theorem decodeMarked_of_unmarked {bytes : List UInt8}
    (unmarked : ∀ order rest, bytes ≠ mark order ++ rest) :
    decodeMarked bytes = decode .bigEndian bytes := by
  unfold decodeMarked
  split
  · exact absurd rfl (unmarked .bigEndian _)
  · exact absurd rfl (unmarked .littleEndian _)
  · rfl

theorem unitBytes_markChar (order : ByteOrder) :
    (units (markChar order)).flatMap (unitBytes .bigEndian) = mark order := by
  cases order <;> decide

theorem encode_markChar (order : ByteOrder) (text : Text) :
    encode .bigEndian (markChar order :: text) = mark order ++ encode .bigEndian text := by
  rw [encode_cons, unitBytes_markChar]

/-- The bytes of a text start with a mark only if the text starts with its character. -/
theorem head?_of_encode_eq_mark {text : Text} {order : ByteOrder} {rest : List UInt8}
    (marked : encode .bigEndian text = mark order ++ rest) :
    text.head? = some (markChar order) := by
  have text_eq := decode_encode .bigEndian text
  rw [marked, ← unitBytes_markChar, decode, decodeFrom_units, decodeFrom_eq] at text_eq
  rw [← text_eq]
  rfl

end LogIntake.Charset.Utf16
