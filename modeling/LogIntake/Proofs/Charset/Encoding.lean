import LogIntake.Charset.Basic
import LogIntake.Proofs.Charset.Utf16

/-!
# Texts and their bytes

A charset says which bytes hold a text. What is decoded from these bytes is the text.
Conversely, bytes from which a text without replacement characters is decoded are bytes
that hold it, so whatever holds no text leaves a replacement character behind.
-/

namespace LogIntake.Charset

/-! ## Encodings -/

/-- The byte of a character below 256. -/
def byteOf (c : Char) : UInt8 :=
  UInt8.ofNat c.toNat

/-- The bytes that hold a text. In UTF-16 they start with a mark of their order, or the high
bytes come first and the text does not start with what would be read as a mark. -/
inductive Encodes : Charset → Text → List UInt8 → Prop
  | utf8 (text : Text) : Encodes .utf8 text (text.flatMap String.utf8EncodeChar)
  | usAscii {text : Text} (fits : ∀ c ∈ text, c.toNat < 0x80) :
    Encodes .usAscii text (text.map byteOf)
  | latin1 {text : Text} (fits : ∀ c ∈ text, c.toNat < 0x100) :
    Encodes .latin1 text (text.map byteOf)
  | utf16BE (text : Text) : Encodes .utf16BE text (Utf16.encode .bigEndian text)
  | utf16LE (text : Text) : Encodes .utf16LE text (Utf16.encode .littleEndian text)
  | marked (order : ByteOrder) (text : Text) :
    Encodes .utf16 text (Utf16.mark order ++ Utf16.encode order text)
  | unmarked {text : Text} (unmarked : ∀ order, text.head? ≠ some (Utf16.markChar order)) :
    Encodes .utf16 text (Utf16.encode .bigEndian text)

/-- The texts that a charset can hold: ASCII, the first 256 characters, or all. -/
def Represents : Charset → Text → Prop
  | .usAscii, text => ∀ c ∈ text, c.toNat < 0x80
  | .latin1, text => ∀ c ∈ text, c.toNat < 0x100
  | .utf8, _ | .utf16, _ | .utf16BE, _ | .utf16LE, _ => True

theorem represents_iff {charset : Charset} {text : Text} :
    charset.Represents text ↔ ∃ bytes, charset.Encodes text bytes := by
  constructor
  · intro represents
    cases charset with
    | utf8 => exact ⟨_, .utf8 text⟩
    | usAscii => exact ⟨_, .usAscii represents⟩
    | latin1 => exact ⟨_, .latin1 represents⟩
    | utf16 => exact ⟨_, .marked .bigEndian text⟩
    | utf16BE => exact ⟨_, .utf16BE text⟩
    | utf16LE => exact ⟨_, .utf16LE text⟩
  · rintro ⟨bytes, encodes⟩
    cases encodes with
    | usAscii fits => exact fits
    | latin1 fits => exact fits
    | utf8 | utf16BE | utf16LE | marked | unmarked => trivial

/-! ## Bytes of single characters -/

theorem toNat_byteOf {c : Char} (fits : c.toNat < 0x100) : (byteOf c).toNat = c.toNat :=
  UInt8.toNat_ofNat_of_lt' fits

theorem ofNat_byteOf {c : Char} (fits : c.toNat < 0x100) : Char.ofNat (byteOf c).toNat = c := by
  rw [toNat_byteOf fits, Char.ofNat_toNat]

theorem toNat_ofNat_byte (byte : UInt8) : (Char.ofNat byte.toNat).toNat = byte.toNat := by
  have below := byte.toNat_lt
  exact toNat_ofNat_of_isValidChar (.inl (by omega))

theorem byteOf_ofNat (byte : UInt8) : byteOf (Char.ofNat byte.toNat) = byte := by
  rw [byteOf, toNat_ofNat_byte, UInt8.ofNat_toNat]

theorem asciiChar_of_lt {byte : UInt8} (ascii : byte.toNat < 0x80) :
    asciiChar byte = Char.ofNat byte.toNat := by
  rw [asciiChar, if_pos]
  exact UInt8.lt_iff_toNat_lt.mpr ascii

/-- Beyond ASCII there are only replacements. -/
theorem lt_of_asciiChar_ne {byte : UInt8} (kept : replacement ≠ asciiChar byte) :
    byte.toNat < 0x80 := by
  by_cases ascii : byte.toNat < 0x80
  · exact ascii
  · refine absurd ?_ kept
    rw [asciiChar, if_neg]
    exact fun below => ascii (UInt8.lt_iff_toNat_lt.mp below)

theorem asciiChar_byteOf {c : Char} (fits : c.toNat < 0x80) : asciiChar (byteOf c) = c := by
  have below : (byteOf c).toNat = c.toNat := toNat_byteOf (by omega)
  rw [asciiChar_of_lt (by omega), ofNat_byteOf (by omega)]

/-! ## Decoding what holds a text -/

theorem map_map_eq_self {α β : Type} {f : α → β} {g : β → α} {items : List α}
    (inverse : ∀ item ∈ items, g (f item) = item) : (items.map f).map g = items := by
  have composed : items.map (g ∘ f) = items.map id := List.map_congr_left inverse
  rw [List.map_map, composed, List.map_id]

theorem decodeMarked_encode {text : Text}
    (unmarked : ∀ order, text.head? ≠ some (Utf16.markChar order)) :
    Utf16.decodeMarked (Utf16.encode .bigEndian text) = text := by
  rw [Utf16.decodeMarked_of_unmarked, Utf16.decode_encode]
  exact fun order rest marked => unmarked order (Utf16.head?_of_encode_eq_mark marked)

theorem Encodes.decode_eq {charset : Charset} {text : Text} {bytes : List UInt8}
    (encodes : charset.Encodes text bytes) : charset.decode bytes = text := by
  cases encodes with
  | utf8 => exact Utf8.decode_flatMap text
  | usAscii fits => exact map_map_eq_self fun c member => asciiChar_byteOf (fits c member)
  | latin1 fits => exact map_map_eq_self fun c member => ofNat_byteOf (fits c member)
  | utf16BE => exact Utf16.decode_encode .bigEndian text
  | utf16LE => exact Utf16.decode_encode .littleEndian text
  | marked order =>
      rw [decode, Utf16.decodeMarked_mark, Utf16.decode_encode]
  | unmarked unmarked => exact decodeMarked_encode unmarked

/-! ## Decoding without replacements -/

theorem encodes_usAscii {bytes : List UInt8} (kept : replacement ∉ bytes.map asciiChar) :
    Encodes .usAscii (bytes.map asciiChar) bytes := by
  have ascii : ∀ byte ∈ bytes, byte.toNat < 0x80 := by
    intro byte member
    apply lt_of_asciiChar_ne
    rintro same
    exact kept (same ▸ List.mem_map_of_mem member)
  have bytes_eq : (bytes.map asciiChar).map byteOf = bytes := by
    apply map_map_eq_self
    intro byte member
    rw [asciiChar_of_lt (ascii byte member), byteOf_ofNat]
  have encodes : Encodes .usAscii (bytes.map asciiChar) ((bytes.map asciiChar).map byteOf) := by
    apply Encodes.usAscii
    intro c member
    obtain ⟨byte, byteMember, rfl⟩ := List.mem_map.mp member
    rw [asciiChar_of_lt (ascii byte byteMember), toNat_ofNat_byte]
    exact ascii byte byteMember
  rwa [bytes_eq] at encodes

theorem encodes_latin1 (bytes : List UInt8) :
    Encodes .latin1 (bytes.map fun byte => Char.ofNat byte.toNat) bytes := by
  have bytes_eq : (bytes.map fun byte => Char.ofNat byte.toNat).map byteOf = bytes :=
    map_map_eq_self fun byte _ => byteOf_ofNat byte
  have encodes : Encodes .latin1 (bytes.map fun byte => Char.ofNat byte.toNat)
      ((bytes.map fun byte => Char.ofNat byte.toNat).map byteOf) := by
    apply Encodes.latin1
    intro c member
    obtain ⟨byte, -, rfl⟩ := List.mem_map.mp member
    rw [toNat_ofNat_byte]
    exact byte.toNat_lt
  rwa [bytes_eq] at encodes

theorem encodes_utf16 {bytes : List UInt8} (kept : replacement ∉ Utf16.decodeMarked bytes) :
    Encodes .utf16 (Utf16.decodeMarked bytes) bytes := by
  by_cases marked : ∃ order rest, bytes = Utf16.mark order ++ rest
  · obtain ⟨order, rest, rfl⟩ := marked
    rw [Utf16.decodeMarked_mark] at kept ⊢
    have encodes := Encodes.marked order (Utf16.decode order rest)
    rwa [Utf16.encode_decode kept] at encodes
  · have unmarked : ∀ order rest, bytes ≠ Utf16.mark order ++ rest :=
      fun order rest bytes_eq => marked ⟨order, rest, bytes_eq⟩
    rw [Utf16.decodeMarked_of_unmarked unmarked] at kept ⊢
    have bytes_eq := Utf16.encode_decode kept
    have encodes : Encodes .utf16 (Utf16.decode .bigEndian bytes)
        (Utf16.encode .bigEndian (Utf16.decode .bigEndian bytes)) := by
      apply Encodes.unmarked
      intro order head
      -- a text that starts with the character of a mark has bytes that start with the mark
      obtain ⟨text, text_eq⟩ := List.head?_eq_some_iff.mp head
      rw [text_eq, Utf16.encode_markChar] at bytes_eq
      exact unmarked order _ bytes_eq.symm
    rwa [bytes_eq] at encodes

theorem encodes_of_decode {charset : Charset} {bytes : List UInt8}
    (kept : replacement ∉ charset.decode bytes) :
    charset.Encodes (charset.decode bytes) bytes := by
  cases charset with
  | utf8 =>
      have encodes := Encodes.utf8 (Utf8.decode bytes)
      rwa [Utf8.flatMap_decode kept] at encodes
  | usAscii => exact encodes_usAscii kept
  | latin1 => exact encodes_latin1 bytes
  | utf16 => exact encodes_utf16 kept
  | utf16BE =>
      have encodes := Encodes.utf16BE (Utf16.decode .bigEndian bytes)
      rwa [Utf16.encode_decode kept] at encodes
  | utf16LE =>
      have encodes := Encodes.utf16LE (Utf16.decode .littleEndian bytes)
      rwa [Utf16.encode_decode kept] at encodes

/-- Decoding gives back every text that a charset represents, from all bytes that hold it.
Bytes that are decoded without a replacement character hold the text that they give, and
bytes that hold no text are decoded with one. -/
theorem decode_inverts_encodes (charset : Charset) :
    (∀ text, charset.Represents text ↔ ∃ bytes, charset.Encodes text bytes) ∧
      (∀ text bytes, charset.Encodes text bytes → charset.decode bytes = text) ∧
      (∀ bytes, replacement ∉ charset.decode bytes →
        charset.Encodes (charset.decode bytes) bytes) ∧
      ∀ bytes, (¬ ∃ text, charset.Encodes text bytes) → replacement ∈ charset.decode bytes := by
  refine ⟨fun _ => represents_iff, fun _ _ encodes => encodes.decode_eq,
    fun _ kept => encodes_of_decode kept, fun bytes malformed => ?_⟩
  by_cases kept : replacement ∈ charset.decode bytes
  · exact kept
  · exact absurd ⟨_, encodes_of_decode kept⟩ malformed

end LogIntake.Charset
