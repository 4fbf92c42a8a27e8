import LogIntake.Proofs.Gelf.Decoding
import LogIntake.Proofs.Gelf.Fields
import LogIntake.Proofs.Json.Scanning

/-!
# Fields that are written once

Additional fields are meant to leave every field as it is that has been set before.
They do so as long as the name that an entry gives has no blanks at its ends. A
padded name passes the check for fields that are set, because it names no field, and
is then taken without its blanks.
-/

namespace LogIntake.Gelf

/-- A text slot holds the text that was offered last, or else the text from before. -/
theorem eq_of_map_text_eq_or {held? : Option Text} {offer? : Option Field.Value} {before : Text}
    (held : held?.map .text = offer?.or (some (.text before))) :
    held? = some (offer?.elim before Field.Value.toText) := by
  cases held? with
  | none => cases offer? <;> contradiction
  | some text =>
      cases offer? with
      | none =>
          cases held
          rfl
      | some value =>
          cases held
          rfl

/-- An entry changes a field that is set exactly when its name is padded and it offers
another value. So a field holds the last padded offer after a document, else what it
held before the additional fields, else the first offer without padding. A document
with a host and a short message always gives a message, whose text and source are
these unless padded offers replace them. -/
theorem fields_written_once_up_to_padding (policy : Field.Policy) (raw : RawMessage)
    (members : Json.Members) :
    (toMessage policy raw members).value =
        addEntries policy (startMessage policy raw members) members ∧
      (∀ front entry back name value, members = front ++ entry :: back →
        (addEntries policy (startMessage policy raw members) front).get? name = some value →
        (addEntries policy (startMessage policy raw members) (front ++ [entry])).get? name =
          some (if isPadded entry then (offerTo? policy name entry).getD value else value)) ∧
      (∀ name, (toMessage policy raw members).value.get? name =
        (lastPadded? policy name members).or
          (((startMessage policy raw members).get? name).or
            (firstUnpadded? policy name members))) ∧
      ∀ (decoder : Decoder) text isFollowed host shortMessage, decoder.policy = policy →
        (Payload.toText raw.payload decoder.limit decoder.charset).value = .ok text →
        Json.Document.ofText text = .ok ⟨.object members, isFollowed⟩ →
        members.find? hostKey = some (.string host) → host.isBlank = false →
        members.find? shortMessageKey = some (.string shortMessage) →
        shortMessage.isBlank = false →
        ∃ message, (decoder.decode raw).value = .ok message ∧
          message.text =
            (lastPadded? policy Slot.message.name members).elim shortMessage Field.Value.toText ∧
          message.source? =
            some ((lastPadded? policy Slot.source.name members).elim host Field.Value.toText) := by
  have startTidy : (startMessage policy raw members).Tidy := tidy_startMessage
  have run (name : Text) := get?_addEntries policy startTidy members name
  refine ⟨value_toMessage, ?_, fun name => by rw [value_toMessage, run], ?_⟩
  · intro front entry back name value _ held
    rw [addEntries_append, addEntries_cons]
    have step := get?_addEntry_of_tidy policy (tidy_addEntries policy front startTidy) entry name
    rw [held] at step
    apply step.trans
    cases isPadded entry with
    | true => cases offerTo? policy name entry <;> rfl
    | false => rfl
  · rintro decoder text isFollowed host shortMessage rfl text_eq read_eq hasHost hostFilled
      hasShort shortFilled
    obtain ⟨checked, mainText_eq, textAt?_eq⟩ :=
      check_of_mandatory hasHost hostFilled hasShort shortFilled
    obtain ⟨decoded, -⟩ := decode_of_document text_eq read_eq
    rw [value_decodeDocument] at decoded
    simp only [Json.members, checked] at decoded
    have textHeld := run Slot.message.name
    have sourceHeld := run Slot.source.name
    rw [get?_message_startMessage, mainText_eq, Option.some_or, ← value_toMessage,
      Message.get?_slotName] at textHeld
    rw [get?_source_startMessage, textAt?_eq, ← value_toMessage, Message.get?_slotName]
      at sourceHeld
    simp only [Option.filter, hostFilled, Bool.not_false, if_true, Option.map_some,
      Option.some_or] at sourceHeld
    refine ⟨_, decoded, ?_, eq_of_map_text_eq_or sourceHeld⟩
    exact Option.some.inj (eq_of_map_text_eq_or textHeld)

/-- A document whose third key is the name of the main text behind a blank. -/
def paddedDocument : Text :=
  "\x7b\"host\":\"h\",\"short_message\":\"m\",\" message\":\"evil\"\x7d".toList

/-- The entries of the padded document. -/
def paddedMembers : Json.Members :=
  [(hostKey, .string ['h']), (shortMessageKey, .string ['m']),
    (" message".toList, .string "evil".toList)]

/-- The padded document as it is received. -/
def paddedRaw : RawMessage :=
  ⟨.nil, paddedDocument.map fun c => UInt8.ofNat c.toNat, none, ⟨0, 0⟩⟩

theorem ofText_paddedDocument :
    Json.Document.ofText paddedDocument = .ok ⟨.object paddedMembers, false⟩ :=
  Json.toOption_eq_some_iff.mp (by decide +kernel)

theorem toText_paddedRaw :
    (Payload.toText paddedRaw.payload 64 .utf8).value = .ok paddedDocument :=
  value_toText_rawOf (by decide +kernel) 64

/-- A padded name replaces the text of a message, although the document has a short
message. -/
theorem text_replaced_by_padded_name :
    ¬ ∀ (decoder : Decoder) (raw : RawMessage) (members : Json.Members) text isFollowed host
      shortMessage,
      (Payload.toText raw.payload decoder.limit decoder.charset).value = .ok text →
      Json.Document.ofText text = .ok ⟨.object members, isFollowed⟩ →
      members.find? hostKey = some (.string host) → host.isBlank = false →
      members.find? shortMessageKey = some (.string shortMessage) →
      shortMessage.isBlank = false →
      ∃ message, (decoder.decode raw).value = .ok message ∧ message.text = shortMessage := by
  intro kept
  obtain ⟨message, decoded, text_eq⟩ := kept ⟨64, .utf8, .standard⟩ paddedRaw paddedMembers
    paddedDocument false ['h'] ['m'] toText_paddedRaw ofText_paddedDocument (by decide +kernel)
    (by decide +kernel) (by decide +kernel) (by decide +kernel)
  have replaced : (((⟨64, .utf8, .standard⟩ : Decoder).decode paddedRaw).value.toOption.all
      fun message => message.text != ['m']) = true := by
    decide +kernel
  rw [decoded] at replaced
  simp [Except.toOption, text_eq] at replaced

/-- The offer of the padded document counts for its text, and none for its source. -/
theorem fields_of_padded_document :
    ∃ message, ((⟨64, .utf8, .standard⟩ : Decoder).decode paddedRaw).value = .ok message ∧
      message.text = "evil".toList ∧ message.source? = some ['h'] := by
  obtain ⟨-, -, -, decodes⟩ :=
    fields_written_once_up_to_padding .standard paddedRaw paddedMembers
  obtain ⟨message, decoded, text_eq, source_eq⟩ :=
    decodes ⟨64, .utf8, .standard⟩ paddedDocument false ['h'] ['m'] rfl toText_paddedRaw
      ofText_paddedDocument (by decide +kernel) (by decide +kernel) (by decide +kernel)
      (by decide +kernel)
  refine ⟨message, decoded, text_eq.trans ?_, source_eq.trans ?_⟩
  · decide +kernel
  · decide +kernel

end LogIntake.Gelf
