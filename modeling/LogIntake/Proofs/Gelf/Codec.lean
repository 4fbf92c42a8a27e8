import LogIntake.Gelf.Codec
import LogIntake.Proofs.Gelf.Decoding
import LogIntake.Proofs.Gelf.Fields

/-!
# Messages that codecs decode

A codec decodes what its decoder decodes and then settles the source. The settled
source is the configured one, else the one that the message has, else the address of
the sender; nothing else about the message changes.
-/

namespace LogIntake

/-- The source that takes the place of the one that a message has: the configured one,
or the sender's address if the message has none. -/
def Settings.replacement? (settings : Settings) (raw : RawMessage) (message : Message) :
    Option Text :=
  settings.overrideSource?.or
    (if message.source?.isSome then none else raw.remote?.map fun remote => remote.ip.toText)

theorem Settings.value_applySource (settings : Settings) (raw : RawMessage) (message : Message) :
    (settings.applySource raw message).value =
      (settings.replacement? raw message).elim message message.withSource := by
  unfold applySource replacement?
  cases settings.overrideSource? with
  | some source => rfl
  | none => cases message.source? <;> cases raw.remote? <;> rfl

/-- Settling the source changes no other field. -/
theorem Settings.get?_applySource_of_ne {settings : Settings} {raw : RawMessage}
    {message : Message} {name : Text} (other : name ≠ Slot.source.name) :
    (settings.applySource raw message).value.get? name = message.get? name := by
  rw [value_applySource]
  cases settings.replacement? raw message with
  | none => rfl
  | some source => rw [Option.elim_some, Message.get?_withSource, if_neg other]

theorem Settings.changesTo_applySource (settings : Settings) (raw : RawMessage)
    (message : Message) : message.ChangesTo (settings.applySource raw message).value := by
  rw [value_applySource]
  cases settings.replacement? raw message with
  | none => exact .refl message
  | some source => exact .apply message (.source source)

namespace Gelf.Codec

theorem value_decode (codec : Gelf.Codec) (raw : RawMessage) :
    (codec.decode raw).value =
      (codec.decoder.decode raw).value.map fun message =>
        (codec.settings.applySource raw message).value := by
  unfold decode
  rw [Logged.value_bind]
  cases (codec.decoder.decode raw).value <;> rfl

/-- A message that a codec decodes is one of its decoder with the source settled. -/
theorem exists_decoded {codec : Gelf.Codec} {raw : RawMessage} {message : Message}
    (decoded : (codec.decode raw).value = .ok message) :
    ∃ unsettled, (codec.decoder.decode raw).value = .ok unsettled ∧
      message = (codec.settings.applySource raw unsettled).value := by
  rw [value_decode] at decoded
  cases outcome : (codec.decoder.decode raw).value with
  | error error =>
      rw [outcome] at decoded
      contradiction
  | ok unsettled =>
      rw [outcome] at decoded
      exact ⟨unsettled, rfl, (Except.ok.inj decoded).symm⟩

/-- A codec decodes a payload with a document that passes the check. -/
theorem exists_decode_of_checked (codec : Gelf.Codec) {raw : RawMessage} {text : Text}
    {document : Json.Document}
    (text_eq :
      (Payload.toText raw.payload codec.limit codec.settings.charset).value = .ok text)
    (read_eq : Json.Document.ofText text = .ok document)
    (checked : check document.value.members = .ok ()) :
    ∃ message, (codec.decode raw).value = .ok message := by
  have decoded := @decode_of_checked raw codec.decoder text document text_eq read_eq checked
  rw [value_decode, decoded]
  exact ⟨_, rfl⟩

end Gelf.Codec

end LogIntake
