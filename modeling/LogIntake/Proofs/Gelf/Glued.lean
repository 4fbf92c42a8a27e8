import LogIntake.Proofs.Gelf.Decoding
import LogIntake.Proofs.Json.Documents

/-!
# Documents that are glued together

A payload with two documents in it decodes as the first one alone, and its loss is
counted once. What stands behind the first document takes no part in its message,
whether it is complete or not.
-/

namespace LogIntake.Gelf

/-- Behind a document that is an object, a further token changes nothing about its
value. A payload with such a text decodes to the same message as the payload with
the document alone, or fails for the same reason, and counts one loss instead of
none. -/
theorem decode_glued_document {document blanks rest : Text} {members : Json.Members}
    (alone : Json.Document.ofText document = .ok ⟨.object members, false⟩)
    (blank : Json.Blanks blanks) (starts : Json.StartsToken rest) :
    Json.Document.ofText (document ++ (blanks ++ rest)) = .ok ⟨.object members, true⟩ ∧
      ∀ (decoder : Decoder) (raw glued : RawMessage),
        glued = { raw with payload := glued.payload } →
        (Payload.toText raw.payload decoder.limit decoder.charset).value = .ok document →
        (Payload.toText glued.payload decoder.limit decoder.charset).value =
          .ok (document ++ (blanks ++ rest)) →
        ((∃ message, (decoder.decode raw).value = .ok message ∧
            (decoder.decode glued).value = .ok message) ∨
          ∃ reason, (decoder.decode raw).value = .error (.validation raw reason document) ∧
            (decoder.decode glued).value =
              .error (.validation glued reason (document ++ (blanks ++ rest)))) ∧
        (decoder.decode raw).events.filter Event.isDrop = [] ∧
        (decoder.decode glued).events.filter Event.isDrop = [.fragmentDropped glued] := by
  have together := Json.Document.ofText_append alone rfl blank starts
  refine ⟨together, fun decoder raw glued glued_eq aloneText gluedText => ?_⟩
  obtain ⟨aloneValue, aloneLosses⟩ := decode_of_document aloneText alone
  obtain ⟨gluedValue, gluedLosses⟩ := decode_of_document gluedText together
  rw [aloneValue, gluedValue, aloneLosses, gluedLosses, filter_events_decodeDocument,
    filter_events_decodeDocument, value_decodeDocument, value_decodeDocument]
  refine ⟨?_, rfl, rfl⟩
  have label_eq (violation : Violation) : violation.message glued = violation.message raw := by
    rw [glued_eq]
    rfl
  have received_eq : glued.received = raw.received := by
    rw [glued_eq]
  simp only [label_eq, value_toMessage_congr received_eq]
  cases check (Json.object members).members with
  | error violation => exact .inr ⟨violation.message raw, rfl, rfl⟩
  | ok _ => exact .inl ⟨_, rfl, rfl⟩

/-- A document with nothing but the mandatory entries. -/
def shortDocument : Text :=
  "\x7b\"host\":\"h\",\"short_message\":\"m\"\x7d".toList

/-- The entries of the document. -/
def shortMembers : Json.Members :=
  [(hostKey, .string ['h']), (shortMessageKey, .string ['m'])]

theorem ofText_shortDocument :
    Json.Document.ofText shortDocument = .ok ⟨.object shortMembers, false⟩ :=
  Json.toOption_eq_some_iff.mp (by decide +kernel)

/-- With a lone bracket behind it, the document decodes to the same message. -/
theorem decode_glued_document_bracket :
    let raw := rawOf shortDocument
    let glued := rawOf (shortDocument ++ (" ".toList ++ "[".toList))
    let decoder : Decoder := ⟨8, .utf8, .standard⟩
    Json.Document.ofText (shortDocument ++ (" ".toList ++ "[".toList)) =
        .ok ⟨.object shortMembers, true⟩ ∧
      (∃ message, (decoder.decode raw).value = .ok message ∧
        (decoder.decode glued).value = .ok message) ∧
      (decoder.decode raw).events.filter Event.isDrop = [] ∧
      (decoder.decode glued).events.filter Event.isDrop = [.fragmentDropped glued] := by
  intro raw glued decoder
  have blank : Json.Blanks " ".toList := by
    simp [Json.Blanks, Json.isBlank]
  obtain ⟨read_eq, decoded⟩ :=
    decode_glued_document ofText_shortDocument blank (.opening (.inr (.inl rfl)))
  have aloneText := @value_toText_rawOf shortDocument (by decide +kernel) decoder.limit
  have gluedText := @value_toText_rawOf (shortDocument ++ (" ".toList ++ "[".toList))
    (by decide +kernel) decoder.limit
  obtain ⟨alike, losses⟩ := decoded decoder raw glued rfl aloneText gluedText
  refine ⟨read_eq, ?_, losses⟩
  rcases alike with same | ⟨reason, failed, -⟩
  · exact same
  · have succeeded := @decode_of_checked raw decoder _ _ aloneText ofText_shortDocument rfl
    cases succeeded.symm.trans failed

end LogIntake.Gelf
