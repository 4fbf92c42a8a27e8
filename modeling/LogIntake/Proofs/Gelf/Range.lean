import LogIntake.Proofs.Gelf.Codec
import LogIntake.Proofs.Json.Scanning

/-!
# Ranges of line and level

Lines are not negative, and levels lie between zero and the greatest integer of 32
bits, as far as the well-known entries fill them. Further entries reach the same slots
under other keys, and their integers are taken as they are. So a line or a level is
out of range exactly when it is such an entry that decides it and offers an integer
out of range.
-/

namespace LogIntake.Gelf

/-- The slots of integers, with the greatest integer of each. -/
def integerSlots : List (Slot × Int) :=
  [(.line, maxLine), (.level, maxLevel)]

/-- The integer that the well-known entry of a slot gives, if it is usable and the
policy admits the slot. -/
def knownInteger? (policy : Field.Policy) (members : Json.Members) (slot : Slot)
    (greatest : Int) : Option Int :=
  if policy.admits slot.name then integerAt? members slot.name greatest else none

variable {policy : Field.Policy} {raw : RawMessage} {members : Json.Members}
  {slot : Slot} {greatest : Int}

theorem knownInteger?_inRange {n : Int}
    (known : knownInteger? policy members slot greatest = some n) : 0 ≤ n ∧ n ≤ greatest := by
  unfold knownInteger? integerAt? at known
  split at known
  · simpa using (Option.filter_eq_some_iff.mp known).2
  · contradiction

theorem accepted?_integer (isInteger : (slot, greatest) ∈ integerSlots) (n : Int) :
    Message.accepted? policy slot.name (.integer n) =
      if policy.admits slot.name then some (.integer n) else none := by
  have held : slot.held? (.integer n) = some (.integer n) := by
    cases slot <;> first | rfl | simp [integerSlots] at isInteger
  cases admitted : policy.admits slot.name with
  | true =>
      rw [Message.accepted?_eq slot.isName_name admitted rfl, Message.held?_slotName, held,
        if_pos rfl]
  | false => simp [Message.accepted?, slot.name_trim, admitted]

/-- The slot of an integer, as far as its well-known entry fills it. -/
theorem get?_startMessage_knownInteger (isInteger : (slot, greatest) ∈ integerSlots) :
    (startMessage policy raw members).get? slot.name =
      (knownInteger? policy members slot greatest).map .integer := by
  have known : (slot, (integerAt? members slot.name greatest).map .integer) ∈
      knownFields members := by
    simp only [integerSlots, List.mem_cons, Prod.mk.injEq, List.not_mem_nil, or_false]
      at isInteger
    rcases isInteger with ⟨rfl, rfl⟩ | ⟨rfl, rfl⟩ <;> simp [knownFields]
  rw [get?_startMessage known, knownInteger?]
  cases integerAt? members slot.name greatest with
  | none => simp
  | some n =>
      rw [Option.map_some, Option.bind_some, accepted?_integer isInteger]
      split <;> rfl

/-- A line or a level is what the last padded entry offers for it, else what its
well-known entry gives, else what the first other entry offers. -/
theorem exists_slotValues {codec : Codec} {raw : RawMessage} {message : Message}
    (decoded : (codec.decode raw).value = .ok message) :
    ∃ text document,
      (Payload.toText raw.payload codec.limit codec.settings.charset).value = .ok text ∧
        Json.Document.ofText text = .ok document ∧
        ∀ slot greatest, (slot, greatest) ∈ integerSlots →
          message.slotValue? slot =
            (lastPadded? codec.policy slot.name document.value.members).or
              (((knownInteger? codec.policy document.value.members slot greatest).map
                .integer).or (firstUnpadded? codec.policy slot.name document.value.members)) := by
  obtain ⟨unsettled, unsettled_eq, rfl⟩ := Codec.exists_decoded decoded
  obtain ⟨text, document, text_eq, read_eq, -, rfl⟩ := exists_document_of_decode unsettled_eq
  refine ⟨text, document, text_eq, read_eq, fun slot greatest isInteger => ?_⟩
  have notSource : slot.name ≠ Slot.source.name := by
    rw [Ne, Slot.name_inj]
    rintro rfl
    simp [integerSlots] at isInteger
  rw [← Message.get?_slotName, Settings.get?_applySource_of_ne notSource, value_toMessage,
    get?_addEntries codec.decoder.policy tidy_startMessage,
    get?_startMessage_knownInteger isInteger]
  rfl

theorem isAdditional_integerSlot
    (isInteger : (slot, greatest) ∈ integerSlots) : isAdditional slot.name = false := by
  simp only [integerSlots, List.mem_cons, Prod.mk.injEq, List.not_mem_nil, or_false] at isInteger
  rcases isInteger with ⟨rfl, rfl⟩ | ⟨rfl, rfl⟩ <;> decide

/-- Of entries of which only the well-known one leads to a slot, none offers anything. -/
theorem offerTo?_eq_none {entry : Text × Json} (isInteger : (slot, greatest) ∈ integerSlots)
    (only : entry.1 ≠ slot.name → (fieldName entry.1).trim ≠ slot.name) :
    offerTo? policy slot.name entry = none := by
  unfold offerTo? offered?
  by_cases same : entry.1 = slot.name
  · simp [same, isAdditional_integerSlot isInteger]
  · rw [if_neg (only same)]

section NoOffer

variable {name : Text} {entries : Json.Members}
  (noOffer : ∀ entry ∈ entries, offerTo? policy name entry = none)

include noOffer

theorem lastPadded?_of_no_offer : lastPadded? policy name entries = none := by
  refine List.findSome?_eq_none_iff.mpr fun entry chosen => noOffer entry ?_
  exact (List.mem_filter.mp (List.mem_reverse.mp chosen)).1

theorem firstUnpadded?_of_no_offer : firstUnpadded? policy name entries = none :=
  List.findSome?_eq_none_iff.mpr fun entry chosen => noOffer entry (List.mem_filter.mp chosen).1

end NoOffer

/-- Without another entry that leads to it, a line or a level is what its well-known entry
gives. -/
theorem exists_slotValues_of_only {codec : Codec} {raw : RawMessage} {message : Message}
    (decoded : (codec.decode raw).value = .ok message) :
    ∃ text document,
      (Payload.toText raw.payload codec.limit codec.settings.charset).value = .ok text ∧
        Json.Document.ofText text = .ok document ∧
        ∀ slot greatest, (slot, greatest) ∈ integerSlots →
          (∀ entry ∈ document.value.members,
            entry.1 ≠ slot.name → (fieldName entry.1).trim ≠ slot.name) →
          message.slotValue? slot =
            (knownInteger? codec.policy document.value.members slot greatest).map .integer := by
  obtain ⟨text, document, text_eq, read_eq, slotValue?_eq⟩ := exists_slotValues decoded
  refine ⟨text, document, text_eq, read_eq, fun slot greatest isInteger only => ?_⟩
  have noOffer : ∀ entry ∈ document.value.members,
      offerTo? codec.policy slot.name entry = none :=
    fun entry member => offerTo?_eq_none isInteger (only entry member)
  rw [slotValue?_eq slot greatest isInteger, lastPadded?_of_no_offer noOffer,
    firstUnpadded?_of_no_offer noOffer, Option.none_or, Option.or_none]

/-- A line or a level is what the last padded entry offers for it, else what its
well-known entry gives, which is in range, else what the first other entry offers. So
it is an integer out of range exactly when an entry under another key offers this
integer and decides. -/
theorem out_of_range_iff_offered (codec : Codec) (raw : RawMessage) {message : Message}
    (decoded : (codec.decode raw).value = .ok message) :
    ∃ text document,
      (Payload.toText raw.payload codec.limit codec.settings.charset).value = .ok text ∧
        Json.Document.ofText text = .ok document ∧
        ∀ slot greatest, (slot, greatest) ∈ integerSlots →
          let padded? := lastPadded? codec.policy slot.name document.value.members
          let known? := knownInteger? codec.policy document.value.members slot greatest
          let unpadded? := firstUnpadded? codec.policy slot.name document.value.members
          message.slotValue? slot = padded?.or ((known?.map .integer).or unpadded?) ∧
            ∀ n, ¬ (0 ≤ n ∧ n ≤ greatest) →
              (message.slotValue? slot = some (.integer n) ↔
                padded? = some (.integer n) ∨
                  padded? = none ∧ known? = none ∧ unpadded? = some (.integer n)) := by
  obtain ⟨text, document, text_eq, read_eq, slotValue?_eq⟩ := exists_slotValues decoded
  refine ⟨text, document, text_eq, read_eq, fun slot greatest isInteger => ?_⟩
  intro padded? known? unpadded?
  have held : message.slotValue? slot = padded?.or ((known?.map .integer).or unpadded?) :=
    slotValue?_eq slot greatest isInteger
  refine ⟨held, fun n outside => ?_⟩
  rw [held]
  cases padded? with
  | some value => simp
  | none =>
      cases known_eq : known? with
      | none => simp
      | some known =>
          have distinct : known ≠ n := by
            rintro rfl
            exact outside (knownInteger?_inRange known_eq)
          simp [distinct]

/-- A document with a line and a level under other keys than the well-known ones. -/
def strayDocument : Text :=
  "\x7b\"host\":\"h\",\"short_message\":\"m\",\"_line\":-5,\"_level\":2147483648\x7d".toList

/-- The stray document as it is received. -/
def strayRaw : RawMessage :=
  ⟨.nil, strayDocument.map fun c => UInt8.ofNat c.toNat, none, ⟨0, 0⟩⟩

/-- A codec without a configuration. -/
def plainCodec : Codec :=
  ⟨⟨.utf8, none⟩, Codec.defaultLimit, .standard⟩

/-- The stray document decodes with a negative line and a level beyond 32 bits. -/
theorem decode_strayRaw :
    ∃ message, (plainCodec.decode strayRaw).value = .ok message ∧ message.line? = some (-5) ∧
      message.level? = some 2147483648 := by
  have run : ((plainCodec.decode strayRaw).value.toOption.any fun message =>
      message.line? == some (-5) && message.level? == some 2147483648) = true := by
    decide +kernel
  obtain ⟨message, decoded, held⟩ := Json.exists_of_any_toOption run
  exact ⟨message, decoded, by simpa using held⟩

/-- Lines and levels of decoded messages need not be in range. -/
theorem line_and_level_out_of_range :
    ¬ ∀ policy configuration? codec raw message,
      (Codec.build policy configuration?).value = .ok codec →
        (codec.decode raw).value = .ok message →
        (∀ n, message.line? = some n → 0 ≤ n) ∧
          ∀ n, message.level? = some n → 0 ≤ n ∧ n ≤ maxLevel := by
  intro inRange
  obtain ⟨message, decoded, line_eq, -⟩ := decode_strayRaw
  have notNegative := (inRange .standard none plainCodec strayRaw message rfl decoded).1 _ line_eq
  exact absurd notNegative (by decide)

/-- The line of the stray document is offered by the entry that is neither padded nor
the well-known one. -/
theorem stray_line_offered :
    ∃ message text document, (plainCodec.decode strayRaw).value = .ok message ∧
      Json.Document.ofText text = .ok document ∧ message.line? = some (-5) ∧
      (lastPadded? .standard Slot.line.name document.value.members = some (.integer (-5)) ∨
        firstUnpadded? .standard Slot.line.name document.value.members = some (.integer (-5))) := by
  obtain ⟨message, decoded, line_eq, -⟩ := decode_strayRaw
  obtain ⟨text, document, -, read_eq, slots⟩ := out_of_range_iff_offered plainCodec strayRaw decoded
  have held : message.slotValue? .line = some (.integer (-5)) :=
    congrArg (Option.map Field.Value.integer) line_eq
  have offered := ((slots .line maxLine (by simp [integerSlots])).2 (-5) (by decide)).mp held
  exact ⟨message, text, document, decoded, read_eq, line_eq, offered.imp_right (·.2.2)⟩

end LogIntake.Gelf
