import LogIntake.Proofs.Gelf.Bounded
import LogIntake.Proofs.Gelf.Framing

/-!
# Compressed documents

A compressed payload decodes as the bytes that it holds, as long as these are not more
than the limit. At the limit they are taken whole, and one byte beyond it they are
refused: never is a part of them decoded.
-/

namespace LogIntake.Gelf

/-- A compressed payload, whose decompressor delivers the given bytes and finishes. -/
def Payload.Holds (payload bytes : List UInt8) : Prop :=
  (Framing.ofPayload? payload = some .gzip ∧ (Compression.Gzip.deliver payload).Delivers bytes) ∨
    (Framing.ofPayload? payload = some .zlib ∧ (Compression.Zlib.deliver payload).Delivers bytes)

variable {delivery : Compression.Delivery} {bytes : List UInt8}

/-- Reading within a limit gives all bytes or refuses them. -/
theorem bounded_of_delivers (delivers : delivery.Delivers bytes)
    (counted : bytes.length < Nat.pow 2 64) (framing : Framing) (limit : Nat) :
    (Payload.bounded framing limit delivery).1 =
      if bytes.length ≤ limit then .ok bytes else .error (.sizeLimitExceeded limit) := by
  obtain ⟨rfl, finished⟩ := delivers
  rw [Payload.bounded_eq framing limit counted, finished]
  by_cases within : delivery.output.length ≤ limit
  · rw [if_neg (Nat.not_lt.mpr within), if_pos within]
  · rw [if_pos (Nat.lt_of_not_le within), if_neg within]

/-- The bytes that a compressed payload holds are its text, unless they are too many. -/
theorem value_toText_of_holds {payload : List UInt8} (holds : Payload.Holds payload bytes)
    (counted : bytes.length < Nat.pow 2 64) (limit : Nat) (charset : Charset) :
    (Payload.toText payload limit charset).value =
      if bytes.length ≤ limit then .ok (charset.decode bytes)
      else .error (.sizeLimitExceeded limit) := by
  have read {delivery : Compression.Delivery} (framing : Framing)
      (delivers : delivery.Delivers bytes) :
      (Payload.bounded framing limit delivery).1.map charset.decode =
        if bytes.length ≤ limit then .ok (charset.decode bytes)
        else .error (.sizeLimitExceeded limit) := by
    rw [bounded_of_delivers delivers counted]
    split <;> rfl
  unfold Payload.toText Payload.framing
  rcases holds with ⟨isGzip, delivers⟩ | ⟨isZlib, delivers⟩
  · rw [isGzip]
    exact read .gzip delivers
  · rw [isZlib]
    exact read .zlib delivers

/-- Bytes that hold a document in some charset are taken for a plain payload, whatever the
limit. A compressed payload that holds them decodes to the same message, or fails the
same check, and loses a document if and only if they do; but if they are more than the
limit, the payload fails. -/
theorem decode_compressed_document {charset : Charset} {bytes : List UInt8}
    {document : Json.Document} (long : 2 ≤ bytes.length)
    (read_eq : Json.Document.ofText (charset.decode bytes) = .ok document) :
    Payload.framing bytes = .ok .uncompressed ∧
      (∀ limit, (Payload.toText bytes limit charset).value = .ok (charset.decode bytes)) ∧
      ∀ (decoder : Decoder) (plain compressed : RawMessage),
        decoder.charset = charset → plain.payload = bytes →
        compressed = { plain with payload := compressed.payload } →
        Payload.Holds compressed.payload bytes → bytes.length < Nat.pow 2 64 →
        (bytes.length ≤ decoder.limit →
          (decoder.decode compressed).value = (decoder.decode plain).value ∧
          ((∃ message, (decoder.decode plain).value = .ok message) ∨
            ∃ reason, (decoder.decode plain).value =
              .error (.validation plain reason (charset.decode bytes))) ∧
          (decoder.decode plain).events.filter Event.isDrop =
            (if document.isFollowed then [.fragmentDropped plain] else []) ∧
          (decoder.decode compressed).events.filter Event.isDrop =
            if document.isFollowed then [.fragmentDropped compressed] else []) ∧
        (decoder.limit < bytes.length →
          (decoder.decode compressed).value = .error (.payload compressed
            (Payload.Error.sizeLimitExceeded decoder.limit).message)) := by
  have framing_eq := ofPayload?_of_document long read_eq
  have plainText limit := value_toText_of_uncompressed limit charset framing_eq
  refine ⟨by simp only [Payload.framing, framing_eq], plainText, ?_⟩
  rintro decoder plain compressed rfl rfl same holds counted
  have heldText := value_toText_of_holds holds counted decoder.limit decoder.charset
  constructor
  · intro within
    rw [if_pos within] at heldText
    obtain ⟨plainValue, plainLosses⟩ := decode_of_document (plainText _) read_eq
    obtain ⟨heldValue, heldLosses⟩ := decode_of_document heldText read_eq
    rw [filter_events_decodeDocument] at plainLosses heldLosses
    refine ⟨?_, ?_, plainLosses, heldLosses⟩
    · rw [plainValue, heldValue, value_decodeDocument_congr same]
    · rw [plainValue, value_decodeDocument]
      cases check document.value.members with
      | error violation => exact .inr ⟨_, rfl⟩
      | ok _ => exact .inl ⟨_, rfl⟩
  · intro beyond
    rw [if_neg (Nat.not_le.mpr beyond)] at heldText
    simp only [value_decode, heldText]

/-- A document in ISO-8859-1. -/
def latinBytes : List UInt8 :=
  "\x7b\"short_message\":\"\u00e9\"\x7d".toList.map fun c => UInt8.ofNat c.toNat

/-- The document in a zlib stream of one stored block. -/
def latinStream : List UInt8 :=
  [0x78, 0x01, 0x01, 0x15, 0x00, 0xEA, 0xFF] ++ latinBytes ++ [0x5A, 0x34, 0x08, 0x18]

/-- The stream decodes at the limit as the document does, and is refused below it. -/
theorem decode_latinStream :
    let compressed : RawMessage := ⟨.nil, latinStream, none, ⟨0, 0⟩⟩
    let plain : RawMessage := { compressed with payload := latinBytes }
    Payload.Holds latinStream latinBytes ∧
      ((⟨21, .latin1, .standard⟩ : Decoder).decode compressed).value =
        ((⟨21, .latin1, .standard⟩ : Decoder).decode plain).value ∧
      ((⟨20, .latin1, .standard⟩ : Decoder).decode compressed).value =
        .error (.payload compressed (Payload.Error.sizeLimitExceeded 20).message) := by
  intro compressed plain
  have holds : Payload.Holds latinStream latinBytes :=
    .inr ⟨by decide, by decide +kernel⟩
  have read_eq : Json.Document.ofText (Charset.latin1.decode latinBytes) =
      .ok ⟨.object [(shortMessageKey, .string [Char.ofNat 0xE9])], false⟩ :=
    Json.toOption_eq_some_iff.mp (by decide +kernel)
  obtain ⟨-, -, decodes⟩ := decode_compressed_document (by decide) read_eq
  have within := (decodes ⟨21, .latin1, .standard⟩ plain compressed rfl rfl rfl holds
    (by decide)).1 (by decide)
  have beyond := (decodes ⟨20, .latin1, .standard⟩ plain compressed rfl rfl rfl holds
    (by decide)).2 (by decide)
  exact ⟨holds, within.1, beyond⟩

end LogIntake.Gelf
