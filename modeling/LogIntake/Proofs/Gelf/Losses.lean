import LogIntake.Codec.Registry
import LogIntake.Proofs.Gelf.Codec

/-!
# Losses of documents

A codec notes the loss of a document when the payload has a text whose first document
is followed by another token, and then once. It does so before it checks the document,
so that a loss is noted whether or not the document decodes, but never when there is no
text or no first document. Nothing else that codecs do loses a document.
-/

namespace LogIntake

/-! ## Counting losses -/

namespace Event

theorem drops_eq_length_filter (events : List Event) :
    drops events = (events.filter isDrop).length :=
  List.countP_eq_length_filter

theorem drops_append (front back : List Event) :
    drops (front ++ back) = drops front + drops back :=
  List.countP_append

end Event

namespace Gelf

theorem Lossless.drops_eq_zero {α : Type} {logged : Logged α} (lossless : Lossless logged) :
    Event.drops logged.events = 0 := by
  rw [Event.drops_eq_length_filter, lossless.filter_events, List.length_nil]

theorem lossless_applySource (settings : Settings) (raw : RawMessage) (message : Message) :
    Lossless (settings.applySource raw message) := by
  unfold Settings.applySource
  split
  · exact Logged.Notes.note_bind rfl (Logged.notes_pure _)
  · exact Logged.Notes.note_bind rfl (Logged.notes_pure _)
  · exact Logged.notes_pure _

/-! ## Glued payloads -/

/-- Whether a payload has a text that starts with a document and goes on with another
token. -/
def Decoder.isGlued (decoder : Decoder) (payload : List UInt8) : Bool :=
  match (Payload.toText payload decoder.limit decoder.charset).value with
  | .error _ => false
  | .ok text =>
    match Json.Document.ofText text with
    | .error _ => false
    | .ok document => document.isFollowed

variable {decoder : Decoder} {raw : RawMessage}

theorem Decoder.isGlued_eq_true_iff {payload : List UInt8} :
    decoder.isGlued payload = true ↔
      ∃ text document, (Payload.toText payload decoder.limit decoder.charset).value = .ok text ∧
        Json.Document.ofText text = .ok document ∧ document.isFollowed = true := by
  unfold isGlued
  cases (Payload.toText payload decoder.limit decoder.charset).value with
  | error fault => simp
  | ok text => cases read_eq : Json.Document.ofText text <;> simp [read_eq]

/-- Decoding notes the loss of a document for glued payloads, once, and for no others. -/
theorem drops_decode (decoder : Decoder) (raw : RawMessage) :
    Event.drops (decoder.decode raw).events = (decoder.isGlued raw.payload).toNat := by
  unfold Decoder.isGlued
  cases text_eq : (Payload.toText raw.payload decoder.limit decoder.charset).value with
  | error fault =>
      have lossless : Lossless (decoder.decode raw) := by
        refine (lossless_toText _ _ _).bind ?_
        rw [text_eq]
        exact Logged.notes_pure _
      exact lossless.drops_eq_zero
  | ok text =>
      cases read_eq : Json.Document.ofText text with
      | error fault =>
          have lossless : Lossless (decoder.decode raw) := by
            refine (lossless_toText _ _ _).bind ?_
            simp only [text_eq, decodeText, read_eq]
            exact Logged.Notes.note_bind rfl (Logged.notes_pure _)
          simp only [lossless.drops_eq_zero, read_eq, Bool.toNat_false]
      | ok document =>
          obtain ⟨-, losses⟩ := decode_of_document text_eq read_eq
          simp only [Event.drops_eq_length_filter, losses, filter_events_decodeDocument, read_eq]
          cases document.isFollowed <;> rfl

/-- A payload that fails before its document is checked loses nothing. -/
theorem isGlued_eq_false_of_error {error : DecodingError}
    (failed : (decoder.decode raw).value = .error error) (early : error.stage ≠ .validation) :
    decoder.isGlued raw.payload = false := by
  unfold Decoder.isGlued
  rcases decode_cases decoder raw with
    ⟨_, text_eq, _⟩ | ⟨_, _, text_eq, read_eq, _⟩ | ⟨_, _, _, _, _, _, outcome⟩ |
      ⟨_, _, _, _, _, outcome⟩
  · simp only [text_eq]
  · simp only [text_eq, read_eq]
  · cases failed.symm.trans outcome
    exact absurd rfl early
  · cases failed.symm.trans outcome

namespace Codec

/-- Settling the source loses nothing. -/
theorem drops_decode (codec : Gelf.Codec) (raw : RawMessage) :
    Event.drops (codec.decode raw).events = (codec.decoder.isGlued raw.payload).toNat := by
  unfold decode
  rw [Logged.events_bind, Event.drops_append, Gelf.drops_decode]
  cases (codec.decoder.decode raw).value with
  | error error => rfl
  | ok message =>
      have settled : Lossless (do
          let message ← codec.settings.applySource raw message
          pure (.ok message) : Logged (Except DecodingError Message)) :=
        (lossless_applySource _ _ _).bind (Logged.notes_pure _)
      exact congrArg _ (Lossless.drops_eq_zero settled)

theorem error_of_decode {codec : Gelf.Codec} {error : DecodingError}
    (failed : (codec.decode raw).value = .error error) :
    (codec.decoder.decode raw).value = .error error := by
  rw [value_decode] at failed
  cases outcome : (codec.decoder.decode raw).value with
  | error found =>
      rw [outcome] at failed
      exact congrArg _ (Except.error.inj failed)
  | ok message =>
      rw [outcome] at failed
      contradiction

theorem lossless_build (policy : Field.Policy) (configuration? : Option Configuration) :
    Lossless (build policy configuration?) := by
  unfold build
  dsimp only
  split
  · exact Logged.notes_pure _
  · exact Logged.Notes.note_bind rfl (Logged.notes_pure _)

end Codec

end Gelf

theorem PlainText.lossless_decode (settings : Settings) (raw : RawMessage) :
    Gelf.Lossless (PlainText.decode settings raw) :=
  (Gelf.lossless_applySource _ _ _).bind (Logged.notes_pure _)

end LogIntake
