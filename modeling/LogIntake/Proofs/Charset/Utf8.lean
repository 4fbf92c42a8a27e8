import LogIntake.Charset.Utf8

/-!
# Reading what is written in UTF-8

The decoder takes the bytes of a character one after another and gives the
character back, since each byte lies in the range that the bytes before it leave.
A text that was encoded is therefore decoded without any replacement.

Conversely, the ranges leave no bytes but those of a character. So what is decoded without
a replacement is a text that was encoded.
-/

namespace LogIntake.Charset

theorem toNat_ofNat_of_isValidChar {n : Nat} (valid : n.isValidChar) :
    (Char.ofNat n).toNat = n := by
  rw [Char.ofNat, dif_pos valid]
  rfl

namespace Utf8

/-! ## Steps -/

theorem decodeFrom_cons (pending? : Option Pending) (reversed : Text) (byte : UInt8)
    (rest : List UInt8) :
    decodeFrom pending? reversed (byte :: rest) =
      decodeFrom (step pending? byte.toNat).2 ((step pending? byte.toNat).1.reverseAux reversed)
        rest :=
  rfl

/-- What has been decoded before is not looked at again. -/
theorem decodeFrom_eq (pending? : Option Pending) (reversed : Text) (bytes : List UInt8) :
    decodeFrom pending? reversed bytes = reversed.reverse ++ decodeFrom pending? [] bytes := by
  induction bytes generalizing pending? reversed with
  | nil => cases pending? <;> simp [decodeFrom]
  | cons byte rest ih =>
      rw [decodeFrom_cons, decodeFrom_cons, ih, ih _ (List.reverseAux _ [])]
      simp [List.reverseAux_eq]

/-- The characters of the first byte stand in front of those of the others. -/
theorem decodeFrom_byte (pending? : Option Pending) (byte : UInt8) (rest : List UInt8) :
    decodeFrom pending? [] (byte :: rest) =
      (step pending? byte.toNat).1 ++ decodeFrom (step pending? byte.toNat).2 [] rest := by
  rw [decodeFrom_cons, decodeFrom_eq, List.reverseAux_eq, List.append_nil, List.reverse_reverse]

/-- An ASCII byte between characters is a character. -/
theorem decode_cons_of_ascii {byte : UInt8} (ascii : byte.toNat < 0x80) (rest : List UInt8) :
    decode (byte :: rest) = Char.ofNat byte.toNat :: decode rest := by
  have step_eq : step none byte.toNat = ([Char.ofNat byte.toNat], none) := by
    simp [step, start, ascii]
  rw [decode, decodeFrom_byte, step_eq]
  rfl

/-- A byte that ends a sequence. -/
theorem step_last {value low high byte : Nat} (above : low ≤ byte) (below : byte ≤ high) :
    step (some ⟨value, 1, low, high⟩) byte = ([Char.ofNat (value * 64 + byte % 64)], none) := by
  simp [step, above, below]

/-- A byte after which more are due. -/
theorem step_more {value due low high byte : Nat} (above : low ≤ byte) (below : byte ≤ high) :
    step (some ⟨value, due + 2, low, high⟩) byte =
      ([], some ⟨value * 64 + byte % 64, due + 1, 0x80, 0xBF⟩) := by
  simp [step, above, below]

theorem step_first {byte : Nat} {pending : Pending} (notAscii : 0x80 ≤ byte)
    (begins : begin? byte = some pending) : step none byte = ([], some pending) := by
  simp [step, start, Nat.not_lt.mpr notAscii, begins]

theorem begin?_two {byte : Nat} (above : 0xC2 ≤ byte) (below : byte < 0xE0) :
    begin? byte = some ⟨byte - 0xC0, 1, 0x80, 0xBF⟩ := by
  simp [begin?, Nat.not_lt.mpr above, below]

theorem begin?_three {n : Nat} (below : n < 0x10) :
    begin? (n + 0xE0) =
      some ⟨n, 2, if n = 0 then 0xA0 else 0x80, if n = 0xD then 0x9F else 0xBF⟩ := by
  have each : ∀ n < 0x10, begin? (n + 0xE0) =
      some ⟨n, 2, if n = 0 then 0xA0 else 0x80, if n = 0xD then 0x9F else 0xBF⟩ := by
    decide
  exact each n below

theorem begin?_four {n : Nat} (below : n < 5) :
    begin? (n + 0xF0) =
      some ⟨n, 3, if n = 0 then 0x90 else 0x80, if n = 4 then 0x8F else 0xBF⟩ := by
  have each : ∀ n < 5, begin? (n + 0xF0) =
      some ⟨n, 3, if n = 0 then 0x90 else 0x80, if n = 4 then 0x8F else 0xBF⟩ := by
    decide
  exact each n below

/-! ## Characters -/

theorem utf8EncodeChar_one {n : Nat} (below : n < 0x80) :
    String.utf8EncodeChar (Char.ofNat n) = [UInt8.ofNat n] := by
  have value_eq : (Char.ofNat n).val.toNat = n := toNat_ofNat_of_isValidChar (.inl (by omega))
  simp only [String.utf8EncodeChar, value_eq]
  rw [if_pos (by omega)]

theorem utf8EncodeChar_two {n : Nat} (above : 0x80 ≤ n) (below : n < 0x800) :
    String.utf8EncodeChar (Char.ofNat n) =
      [UInt8.ofNat (n / 64 + 0xC0), UInt8.ofNat (n % 64 + 0x80)] := by
  have value_eq : (Char.ofNat n).val.toNat = n := toNat_ofNat_of_isValidChar (.inl (by omega))
  simp only [String.utf8EncodeChar, value_eq]
  rw [if_neg (by omega), if_pos (by omega), show n / 64 % 0x20 = n / 64 by omega]

theorem utf8EncodeChar_three {n : Nat} (above : 0x800 ≤ n) (below : n < 0x10000)
    (valid : n.isValidChar) :
    String.utf8EncodeChar (Char.ofNat n) =
      [UInt8.ofNat (n / 4096 + 0xE0), UInt8.ofNat (n / 64 % 64 + 0x80),
        UInt8.ofNat (n % 64 + 0x80)] := by
  have value_eq : (Char.ofNat n).val.toNat = n := toNat_ofNat_of_isValidChar valid
  simp only [String.utf8EncodeChar, value_eq]
  rw [if_neg (by omega), if_neg (by omega), if_pos (by omega),
    show n / 4096 % 0x10 = n / 4096 by omega]

theorem utf8EncodeChar_four {n : Nat} (above : 0x10000 ≤ n) (below : n < 0x110000) :
    String.utf8EncodeChar (Char.ofNat n) =
      [UInt8.ofNat (n / 262144 + 0xF0), UInt8.ofNat (n / 4096 % 64 + 0x80),
        UInt8.ofNat (n / 64 % 64 + 0x80), UInt8.ofNat (n % 64 + 0x80)] := by
  have value_eq : (Char.ofNat n).val.toNat = n := toNat_ofNat_of_isValidChar (.inr (by omega))
  simp only [String.utf8EncodeChar, value_eq]
  rw [if_neg (by omega), if_neg (by omega), if_neg (by omega),
    show n / 262144 % 0x08 = n / 262144 by omega]

theorem toNat_ofNat_of_lt {n : Nat} (below : n < 256) : (UInt8.ofNat n).toNat = n := by
  simpa using Nat.mod_eq_of_lt below

/-- The bytes of a character give this character. -/
theorem decodeFrom_utf8EncodeChar (c : Char) (reversed : Text) (rest : List UInt8) :
    decodeFrom none reversed (String.utf8EncodeChar c ++ rest) =
      decodeFrom none (c :: reversed) rest := by
  have valid : c.toNat.isValidChar := c.valid
  rw [← Char.ofNat_toNat c]
  generalize c.toNat = n at *
  have inRange : n < 0x110000 := by
    rcases valid with below | ⟨-, below⟩ <;> omega
  by_cases one : n < 0x80
  · rw [utf8EncodeChar_one one, List.cons_append, decodeFrom_cons, toNat_ofNat_of_lt (by omega)]
    simp [step, start, one]
  by_cases two : n < 0x800
  · have first := begin?_two (show 0xC2 ≤ n / 64 + 0xC0 by omega) (by omega)
    have value_eq : (n / 64 + 0xC0 - 0xC0) * 64 + (n % 64 + 0x80) % 64 = n := by omega
    rw [utf8EncodeChar_two (by omega) two]
    simp only [List.cons_append]
    rw [decodeFrom_cons, toNat_ofNat_of_lt (by omega), step_first (by omega) first,
      decodeFrom_cons, toNat_ofNat_of_lt (by omega), step_last (by omega) (by omega), value_eq]
    rfl
  by_cases three : n < 0x10000
  · have first := begin?_three (show n / 4096 < 0x10 by omega)
    have value_eq : (n / 4096 * 64 + (n / 64 % 64 + 0x80) % 64) * 64 + (n % 64 + 0x80) % 64 =
        n := by
      omega
    have notSurrogate : n < 0xD800 ∨ 0xDFFF < n := valid.imp_right And.left
    rw [utf8EncodeChar_three (by omega) three valid]
    simp only [List.cons_append]
    rw [decodeFrom_cons, toNat_ofNat_of_lt (by omega), step_first (by omega) first,
      decodeFrom_cons, toNat_ofNat_of_lt (by omega),
      step_more (by split <;> omega) (by split <;> omega),
      decodeFrom_cons, toNat_ofNat_of_lt (by omega), step_last (by omega) (by omega), value_eq]
    rfl
  · have first := begin?_four (show n / 262144 < 5 by omega)
    have value_eq : ((n / 262144 * 64 + (n / 4096 % 64 + 0x80) % 64) * 64 +
        (n / 64 % 64 + 0x80) % 64) * 64 + (n % 64 + 0x80) % 64 = n := by
      omega
    rw [utf8EncodeChar_four (by omega) inRange]
    simp only [List.cons_append]
    rw [decodeFrom_cons, toNat_ofNat_of_lt (by omega), step_first (by omega) first,
      decodeFrom_cons, toNat_ofNat_of_lt (by omega),
      step_more (by split <;> omega) (by split <;> omega),
      decodeFrom_cons, toNat_ofNat_of_lt (by omega), step_more (by omega) (by omega),
      decodeFrom_cons, toNat_ofNat_of_lt (by omega), step_last (by omega) (by omega), value_eq]
    rfl

theorem decodeFrom_flatMap (text reversed : Text) :
    decodeFrom none reversed (text.flatMap String.utf8EncodeChar) = reversed.reverse ++ text := by
  induction text generalizing reversed with
  | nil => simp [decodeFrom]
  | cons c text ih =>
      rw [List.flatMap_cons, decodeFrom_utf8EncodeChar, ih, List.reverse_cons, List.append_assoc]
      rfl

/-- A text is decoded from its bytes. -/
theorem decode_flatMap (text : Text) : decode (text.flatMap String.utf8EncodeChar) = text :=
  decodeFrom_flatMap text []

/-! ## Without replacements -/

theorem ofNat_eq_of_eq_toNat {n : Nat} (byte : UInt8) (same : n = byte.toNat) :
    UInt8.ofNat n = byte := by
  rw [same, UInt8.ofNat_toNat]

/-- The bytes that an unfinished sequence accepts, behind those it has taken, are the bytes
of the character that they give. -/
def Leads (front : List UInt8) (value : Nat) : (due low high : Nat) → Prop
  | 0, _, _ => String.utf8EncodeChar (Char.ofNat value) = front
  | due + 1, low, high => ∀ byte : UInt8, low ≤ byte.toNat → byte.toNat ≤ high →
      Leads (front ++ [byte]) (value * 64 + byte.toNat % 64) due 0x80 0xBF

theorem leads_two {byte : UInt8} (above : 0xC2 ≤ byte.toNat) (below : byte.toNat < 0xE0) :
    Leads [byte] (byte.toNat - 0xC0) 1 0x80 0xBF := by
  intro second secondAbove secondBelow
  change String.utf8EncodeChar (Char.ofNat _) = [byte, second]
  rw [utf8EncodeChar_two (by omega) (by omega), ofNat_eq_of_eq_toNat byte (by omega),
    ofNat_eq_of_eq_toNat second (by omega)]

theorem leads_three {byte : UInt8} {n : Nat} (byte_eq : byte.toNat = n + 0xE0) (below : n < 0x10) :
    Leads [byte] n 2 (if n = 0 then 0xA0 else 0x80) (if n = 0xD then 0x9F else 0xBF) := by
  intro second secondAbove secondBelow third thirdAbove thirdBelow
  change String.utf8EncodeChar (Char.ofNat _) = [byte, second, third]
  have notOverlong : 0x80 ≤ second.toNat ∧ (n = 0 → 0xA0 ≤ second.toNat) := by
    split at secondAbove <;> omega
  have notSurrogate : second.toNat ≤ 0xBF ∧ (n = 0xD → second.toNat ≤ 0x9F) := by
    split at secondBelow <;> omega
  have valid : ((n * 64 + second.toNat % 64) * 64 + third.toNat % 64).isValidChar := by
    unfold Nat.isValidChar
    omega
  rw [utf8EncodeChar_three (by omega) (by omega) valid, ofNat_eq_of_eq_toNat byte (by omega),
    ofNat_eq_of_eq_toNat second (by omega), ofNat_eq_of_eq_toNat third (by omega)]

theorem leads_four {byte : UInt8} {n : Nat} (byte_eq : byte.toNat = n + 0xF0) (below : n < 5) :
    Leads [byte] n 3 (if n = 0 then 0x90 else 0x80) (if n = 4 then 0x8F else 0xBF) := by
  intro second secondAbove secondBelow third thirdAbove thirdBelow fourth fourthAbove fourthBelow
  change String.utf8EncodeChar (Char.ofNat _) = [byte, second, third, fourth]
  have notOverlong : 0x80 ≤ second.toNat ∧ (n = 0 → 0x90 ≤ second.toNat) := by
    split at secondAbove <;> omega
  have notBeyond : second.toNat ≤ 0xBF ∧ (n = 4 → second.toNat ≤ 0x8F) := by
    split at secondBelow <;> omega
  rw [utf8EncodeChar_four (by omega) (by omega), ofNat_eq_of_eq_toNat byte (by omega),
    ofNat_eq_of_eq_toNat second (by omega), ofNat_eq_of_eq_toNat third (by omega),
    ofNat_eq_of_eq_toNat fourth (by omega)]

/-- No sequence begins with a byte that continues one, or with one that only overlong forms
and values beyond the last code point have. -/
theorem begin?_eq_none {byte : Nat} (outside : byte < 0xC2 ∨ 0xF5 ≤ byte) :
    begin? byte = none := by
  unfold begin?
  split
  · rfl
  · rw [if_neg (by omega), if_neg (by omega), if_neg (by omega), if_neg (by omega),
      if_neg (by omega), if_neg (by omega), if_neg (by omega)]

theorem leads_of_begin? {byte : UInt8} {pending : Pending}
    (begins : begin? byte.toNat = some pending) :
    0 < pending.due ∧ Leads [byte] pending.value pending.due pending.low pending.high := by
  by_cases outside : byte.toNat < 0xC2 ∨ 0xF5 ≤ byte.toNat
  · rw [begin?_eq_none outside] at begins
    contradiction
  by_cases two : byte.toNat < 0xE0
  · rw [begin?_two (by omega) two] at begins
    obtain rfl := Option.some.inj begins
    exact ⟨Nat.one_pos, leads_two (by omega) two⟩
  by_cases three : byte.toNat < 0xF0
  · obtain ⟨n, byte_eq⟩ : ∃ n, byte.toNat = n + 0xE0 := ⟨byte.toNat - 0xE0, by omega⟩
    have below : n < 0x10 := by omega
    rw [byte_eq, begin?_three below] at begins
    obtain rfl := Option.some.inj begins
    exact ⟨Nat.two_pos, leads_three byte_eq below⟩
  · obtain ⟨n, byte_eq⟩ : ∃ n, byte.toNat = n + 0xF0 := ⟨byte.toNat - 0xF0, by omega⟩
    have below : n < 5 := by omega
    rw [byte_eq, begin?_four below] at begins
    obtain rfl := Option.some.inj begins
    exact ⟨Nat.succ_pos 2, leads_four byte_eq below⟩

/-- The bytes that have been taken and not yet given as characters. -/
def Holds (front : List UInt8) : Option Pending → Prop
  | none => front = []
  | some pending =>
    0 < pending.due ∧ Leads front pending.value pending.due pending.low pending.high

theorem holds_start {byte : UInt8} (kept : replacement ∉ (start byte.toNat).1) :
    ∃ held, Holds held (start byte.toNat).2 ∧
      (start byte.toNat).1.flatMap String.utf8EncodeChar ++ held = [byte] := by
  unfold start at kept ⊢
  split
  · rename_i ascii
    refine ⟨[], rfl, ?_⟩
    simp [utf8EncodeChar_one ascii]
  · rename_i notAscii
    cases begins : begin? byte.toNat with
    | none => simp [notAscii, begins] at kept
    | some pending => exact ⟨[byte], leads_of_begin? begins, rfl⟩

/-- Without a replacement, the bytes up to a step are those of the characters that it gives
and those that are held behind it. -/
theorem holds_step {pending? : Option Pending} {front : List UInt8} {byte : UInt8}
    (holds : Holds front pending?) (kept : replacement ∉ (step pending? byte.toNat).1) :
    ∃ held, Holds held (step pending? byte.toNat).2 ∧
      (step pending? byte.toNat).1.flatMap String.utf8EncodeChar ++ held = front ++ [byte] := by
  cases pending? with
  | none =>
      cases holds
      exact holds_start kept
  | some pending =>
      -- no byte is due, the last one, or more than one
      rcases pending with ⟨value, _ | _ | due, low, high⟩
      · exact absurd holds.1 (Nat.lt_irrefl 0)
      · by_cases accepts : low ≤ byte.toNat ∧ byte.toNat ≤ high
        · rw [step_last accepts.1 accepts.2]
          refine ⟨[], rfl, ?_⟩
          rw [List.flatMap_singleton, List.append_nil]
          exact holds.2 byte accepts.1 accepts.2
        · simp [step, accepts] at kept
      · by_cases accepts : low ≤ byte.toNat ∧ byte.toNat ≤ high
        · rw [step_more accepts.1 accepts.2]
          exact ⟨front ++ [byte], ⟨Nat.succ_pos due, holds.2 byte accepts.1 accepts.2⟩, rfl⟩
        · simp [step, accepts] at kept

theorem flatMap_decodeFrom {pending? : Option Pending} {front : List UInt8}
    (holds : Holds front pending?) (bytes : List UInt8)
    (kept : replacement ∉ decodeFrom pending? [] bytes) :
    (decodeFrom pending? [] bytes).flatMap String.utf8EncodeChar = front ++ bytes := by
  induction bytes generalizing pending? front with
  | nil =>
      cases pending? with
      | none =>
          cases holds
          rfl
      | some pending => simp [decodeFrom] at kept
  | cons byte bytes ih =>
      rw [decodeFrom_byte] at kept ⊢
      rw [List.mem_append, not_or] at kept
      obtain ⟨held, stillHolds, written⟩ := holds_step holds kept.1
      rw [List.flatMap_append, ih stillHolds kept.2, ← List.append_assoc, written,
        List.append_assoc]
      rfl

/-- Bytes that are decoded without a replacement are the bytes of the text. -/
theorem flatMap_decode {bytes : List UInt8} (kept : replacement ∉ decode bytes) :
    (decode bytes).flatMap String.utf8EncodeChar = bytes :=
  flatMap_decodeFrom (show Holds [] none from rfl) bytes kept

end Utf8

end LogIntake.Charset
