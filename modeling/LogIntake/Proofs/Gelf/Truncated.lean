import LogIntake.Proofs.Charset.Prefix
import LogIntake.Proofs.Gelf.Framing
import LogIntake.Proofs.Json.Prefix
import LogIntake.Proofs.Json.Printable

/-!
# Truncated documents

A text that ends with the closing bracket of its document has none when it is cut off, and
neither does what is decoded from its bytes when these are. So a payload that is cut off
anywhere before the last bracket gives no message, whatever the document holds.
-/

namespace LogIntake

/-- A text that ends with a closing bracket and holds nothing but a container has no document
when it is cut off. -/
theorem Json.Document.exists_error_of_isCutFrom {text cut : Text} {value : Json}
    (read_eq : ofText text = .ok ⟨value, false⟩) (container : value.IsContainer)
    (closed : ∀ c ∈ text.getLast?, Closes c) (isCut : Charset.IsCutFrom cut text) :
    ∃ error, ofText cut = .error error := by
  obtain ⟨written, marks, rest, rfl, rfl, missing, replaced⟩ := isCut
  cases cut_eq : ofText (written ++ marks) with
  | error error => exact ⟨error, rfl⟩
  | ok document =>
      exact absurd cut_eq (ofText_ne_ok_of_cut read_eq container.isSelfDelimiting
        (fun c last => (closed c last).isBlank) missing replaced document)

namespace Gelf

/-- A text that holds nothing but a container, up to its closing bracket, has no document
when it is cut off before this bracket, and a payload with what remains of the text is an error.
So is a plain payload that lacks any bytes at the end of the text, be it within a character. -/
theorem truncated_document_never_decodes {text : Text} {value : Json}
    (read_eq : Json.Document.ofText text = .ok ⟨value, false⟩) (container : value.IsContainer)
    (closed : ∀ c ∈ text.getLast?, Json.Closes c) :
    (∀ written rest, text = written ++ rest → rest ≠ [] →
      ∃ error, Json.Document.ofText written = .error error ∧
        ∀ (decoder : Decoder) (raw : RawMessage),
          (Payload.toText raw.payload decoder.limit decoder.charset).value = .ok written →
          (decoder.decode raw).value = .error (.parsing raw (syntaxReason error) written)) ∧
      ∀ (decoder : Decoder) (raw : RawMessage) missing,
        decoder.charset.decode (raw.payload ++ missing) = text → missing ≠ [] →
        (decoder.decode raw).value = .error (.payload raw Payload.Error.tooShort.message) ∨
          ∃ error, (decoder.decode raw).value =
            .error (.parsing raw (syntaxReason error) (decoder.charset.decode raw.payload)) := by
  constructor
  · rintro written rest rfl missing
    have isCut : Charset.IsCutFrom written (written ++ rest) :=
      ⟨written, [], rest, (List.append_nil written).symm, rfl, missing, nofun⟩
    obtain ⟨error, cut_eq⟩ := Json.Document.exists_error_of_isCutFrom read_eq container closed isCut
    exact ⟨error, cut_eq, fun decoder raw text_eq => decode_of_unreadable text_eq cut_eq⟩
  · rintro decoder raw missing rfl nonempty
    by_cases short : raw.payload.length < 2
    · exact .inl (decode_of_short short)
    · have long : 2 ≤ raw.payload.length := Nat.le_of_not_lt short
      have wholeLong : 2 ≤ (raw.payload ++ missing).length := by
        rw [List.length_append]
        omega
      have framing_eq := ofPayload?_of_document wholeLong read_eq
      rw [Framing.ofPayload?_append long] at framing_eq
      have text_ne : decoder.charset.decode (raw.payload ++ missing) ≠ [] := by
        intro text_eq
        rw [text_eq] at read_eq
        contradiction
      obtain ⟨error, cut_eq⟩ := Json.Document.exists_error_of_isCutFrom read_eq container closed
        (Charset.isCutFrom_decode decoder.charset nonempty text_ne)
      exact .inr ⟨error, decode_of_unreadable
        (value_toText_of_uncompressed decoder.limit decoder.charset framing_eq) cut_eq⟩

/-- An array of a text with a bracket, a raw tabulator and a letter of two bytes, with a comma
behind it. -/
def accentDocument : Text :=
  "[\"]\t\u00e9\",]".toList

theorem ofText_accentDocument :
    Json.Document.ofText accentDocument =
      .ok ⟨.array [.string "]\t\u00e9".toList], false⟩ :=
  Json.toOption_eq_some_iff.mp (by decide +kernel)

/-- The document without its last bracket is none, and neither is the payload that ends with
the first byte of the letter. -/
theorem decode_of_accentDocument_cut :
    (∃ error, Json.Document.ofText "[\"]\t\u00e9\",".toList = .error error) ∧
      ∃ error, ((⟨64, .utf8, .standard⟩ : Decoder).decode
        ⟨.nil, [0x5B, 0x22, 0x5D, 0x09, 0xC3], none, ⟨0, 0⟩⟩).value = .error error := by
  have closed : ∀ c ∈ accentDocument.getLast?, Json.Closes c := by
    rintro _ ⟨⟩
    exact .inl rfl
  obtain ⟨texts, payloads⟩ :=
    truncated_document_never_decodes ofText_accentDocument trivial closed
  obtain ⟨error, cut_eq, -⟩ := texts "[\"]\t\u00e9\",".toList [']'] (by decide) (by decide)
  refine ⟨⟨error, cut_eq⟩, ?_⟩
  have whole : Charset.decode .utf8
      ([0x5B, 0x22, 0x5D, 0x09, 0xC3] ++ [0xA9, 0x22, 0x2C, 0x5D]) = accentDocument := by
    decide +kernel
  rcases payloads ⟨64, .utf8, .standard⟩ ⟨.nil, [0x5B, 0x22, 0x5D, 0x09, 0xC3], none, ⟨0, 0⟩⟩ _
    whole (by decide) with failed | ⟨_, failed⟩
  · exact ⟨_, failed⟩
  · exact ⟨_, failed⟩

end Gelf

end LogIntake
