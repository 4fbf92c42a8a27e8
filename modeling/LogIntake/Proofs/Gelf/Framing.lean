import LogIntake.Proofs.Charset.Utf16
import LogIntake.Proofs.Charset.Utf8
import LogIntake.Proofs.Gelf.Decoding
import LogIntake.Proofs.Json.Documents

/-!
# Documents are plain payloads

Compressed payloads and chunks are told by two bytes. Whatever the charset, these come to
a text that starts with a character with which no document starts: a control character,
the letter x, or something far beyond ASCII. Bytes that hold a document are therefore
never taken for anything else.
-/

namespace LogIntake

namespace Json.Document

/-- The characters with which a text with a document starts: a byte order mark, a blank,
or the first character of a value. -/
def mayStart (c : Char) : Bool :=
  c == byteOrderMark || isBlank c || startsValue c

theorem exists_start_of_ofText {text : Text} {document : Document}
    (read_eq : ofText text = .ok document) : ∃ c rest, text = c :: rest ∧ mayStart c = true := by
  obtain ⟨before, spelling, rest, text_eq, blank, spelled, -⟩ := ofText_eq_ok_iff.mp read_eq
  obtain ⟨first, tail, rfl, starts⟩ := spelled.exists_cons
  cases text with
  | nil => cases before <;> contradiction
  | cons c text =>
      refine ⟨c, text, rfl, ?_⟩
      by_cases marked : c = byteOrderMark
      · simp [mayStart, marked]
      · rw [Text.dropLeading, if_neg marked] at text_eq
        cases before with
        | nil =>
            cases text_eq
            simp [mayStart, starts]
        | cons d before =>
            cases text_eq
            simp [mayStart, (blanks_cons.mp blank).1]

/-- A document starts with an ASCII character, up to a byte order mark. -/
theorem toNat_of_mayStart {c : Char} (starts : mayStart c = true) :
    c.toNat < 0x80 ∨ c.toNat = 0xFEFF := by
  simp only [mayStart, isBlank, startsValue, Text.isDigit, Bool.or_eq_true, Bool.and_eq_true,
    beq_iff_eq, decide_eq_true_eq, or_assoc] at starts
  rcases starts with rfl | rfl | rfl | rfl | rfl | rfl | rfl | rfl | rfl | rfl | rfl | rfl | digit
  case inr.inr.inr.inr.inr.inr.inr.inr.inr.inr.inr.inr =>
    exact .inl (Nat.lt_of_le_of_lt (show c.toNat ≤ '9'.toNat from digit.2) (by decide))
  all_goals decide

end Json.Document

namespace Gelf

open Json.Document (mayStart)

/-- The first two bytes of compressed payloads and of chunks. -/
def Framing.headers : List (UInt8 × UInt8) :=
  [(0x1F, 0x8B), (0x1E, 0x0F), (0x78, 0x01), (0x78, 0x5E), (0x78, 0x9C), (0x78, 0xDA)]

theorem Framing.mem_headers {first second : UInt8} {rest : List UInt8}
    (other : ofPayload? (first :: second :: rest) ≠ some uncompressed) :
    (first, second) ∈ headers := by
  simp only [ofPayload?, ne_eq, Option.some.injEq] at other
  split at other
  · rename_i gzip
    simp [headers, gzip]
  · split at other
    · rename_i chunked
      simp [headers, chunked]
    · split at other
      · rename_i zlib
        simpa [headers, zlibLevels, zlib.1] using zlib.2
      · contradiction

/-- The first byte of a header is ASCII, but starts no document. Its code unit is neither
ASCII nor a byte order mark nor a low surrogate. -/
theorem Framing.headers_spec : ∀ header ∈ headers,
    (header.1.toNat < 0x80 ∧ mayStart (Char.ofNat header.1.toNat) = false) ∧
      ∀ order ∈ [Charset.ByteOrder.bigEndian, .littleEndian],
        let unit := Charset.Utf16.unit order header.1 header.2
        0x80 ≤ unit ∧ unit ≠ 0xFEFF ∧ Text.isLowSurrogate unit = false := by
  simp only [headers, List.forall_mem_cons, List.not_mem_nil, false_implies, implies_true,
    and_true]
  decide

section Headers

variable {first second : UInt8} (header : (first, second) ∈ Framing.headers) (rest : List UInt8)

include header

theorem exists_start_utf16 (order : Charset.ByteOrder) :
    ∃ c tail, Charset.Utf16.decode order (first :: second :: rest) = c :: tail ∧
      mayStart c = false := by
  obtain ⟨notAscii, notMark, notLow⟩ :=
    (Framing.headers_spec _ header).2 order (by cases order <;> decide)
  obtain ⟨c, tail, decoded, known⟩ := Charset.Utf16.exists_head_decode notLow rest
  refine ⟨c, tail, decoded, Bool.eq_false_iff.mpr fun starts => ?_⟩
  rcases Json.Document.toNat_of_mayStart starts with ascii | mark <;> omega

/-- Whatever the charset, the bytes of a header come to a text that starts with a
character with which no document starts. -/
theorem exists_start_decode (charset : Charset) :
    ∃ c tail, charset.decode (first :: second :: rest) = c :: tail ∧ mayStart c = false := by
  obtain ⟨ascii, notStart⟩ := (Framing.headers_spec _ header).1
  cases charset with
  | utf8 => exact ⟨_, _, Charset.Utf8.decode_cons_of_ascii ascii _, notStart⟩
  | usAscii =>
      refine ⟨_, _, rfl, ?_⟩
      rwa [Charset.asciiChar, if_pos (UInt8.lt_iff_toNat_lt.mpr ascii)]
  | latin1 => exact ⟨_, _, rfl, notStart⟩
  | utf16 =>
      -- a byte order mark is no header, since its first byte is not ASCII
      have unmarked : Charset.Utf16.decodeMarked (first :: second :: rest) =
          Charset.Utf16.decode .bigEndian (first :: second :: rest) := by
        unfold Charset.Utf16.decodeMarked
        split
        · rename_i mark
          cases mark
          contradiction
        · rename_i mark
          cases mark
          contradiction
        · rfl
      rw [Charset.decode, unmarked]
      exact exists_start_utf16 header rest .bigEndian
  | utf16BE => exact exists_start_utf16 header rest .bigEndian
  | utf16LE => exact exists_start_utf16 header rest .littleEndian

end Headers

/-- The first two bytes alone tell how a payload is framed. -/
theorem Framing.ofPayload?_append {payload : List UInt8} (long : 2 ≤ payload.length)
    (rest : List UInt8) : ofPayload? (payload ++ rest) = ofPayload? payload := by
  match payload, long with
  | _ :: _ :: _, _ => rfl

/-- Bytes that hold a document in some charset are a plain payload. -/
theorem ofPayload?_of_document {charset : Charset} {bytes : List UInt8} {document : Json.Document}
    (long : 2 ≤ bytes.length)
    (read_eq : Json.Document.ofText (charset.decode bytes) = .ok document) :
    Framing.ofPayload? bytes = some .uncompressed := by
  match bytes, long with
  | first :: second :: rest, _ =>
      apply Decidable.byContradiction
      intro other
      obtain ⟨c, tail, decoded, notStart⟩ :=
        exists_start_decode (Framing.mem_headers other) rest charset
      obtain ⟨d, text, text_eq, starts⟩ := Json.Document.exists_start_of_ofText read_eq
      cases decoded.symm.trans text_eq
      rw [notStart] at starts
      contradiction

end Gelf

end LogIntake
