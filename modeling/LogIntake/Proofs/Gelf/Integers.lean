import LogIntake.Proofs.Gelf.Numerals
import LogIntake.Proofs.Unbroken

/-!
# Integers as lines and levels

An entry may give an integer as a number or as a text, in which the decimal notation
stands between blanks, with any zeros in front and behind a sign. Integers of 64 bits are
never rounded on their way into a slot: the slot holds exactly the integer that was given
if it is in range, and nothing otherwise.
-/

namespace LogIntake

namespace Text

variable {text : Text}

theorem IsDecimal.unbroken {n : Nat} (decimal : IsDecimal n text) : Unbroken text :=
  ⟨decimal.isDigits.1, fun c member => isBlankChar_of_isDigit (decimal.isDigits.2 c member)⟩

theorem IsSigned.unbroken {n : Int} (signed : IsSigned n text) : Unbroken text := by
  cases signed with
  | bare decimal => exact decimal.unbroken
  | plus decimal => exact ⟨nofun, blankless_cons.mpr ⟨rfl, decimal.unbroken.2⟩⟩
  | minus decimal => exact ⟨nofun, blankless_cons.mpr ⟨rfl, decimal.unbroken.2⟩⟩

theorem IsDecimal.dropLeading_eq {n : Nat} (decimal : IsDecimal n text) {c : Char}
    (other : isDigit c = false) : text.dropLeading c = text := by
  cases text with
  | nil => rfl
  | cons first rest =>
      rw [dropLeading, if_neg]
      rintro rfl
      exact not_isDecimal_cons other decimal

end Text

namespace Gelf

/-! ## Readings -/

/-- The values by which an entry gives an integer: the number itself, and texts with its
decimal notation between blanks. -/
inductive GivesInteger (n : Int) : Json → Prop
  | number : GivesInteger n (.number (.integer n))
  | text {before spelling after : Text} (blankBefore : before.isBlank = true)
      (signed : Text.IsSigned n spelling) (blankAfter : after.isBlank = true) :
      GivesInteger n (.string (before ++ (spelling ++ after)))

/-- Digits behind a sign are read as the integer that they denote. -/
theorem textInteger?_of_isSigned {text spelling : Text} {n : Int} (trim_eq : text.trim = spelling)
    (signed : Text.IsSigned n spelling) (fits : Text.minInt64 ≤ n ∧ n ≤ Text.maxInt64) :
    textInteger? text = some n := by
  have read {unsigned : Text} (unsigned_eq : text.trim.dropLeading '+' = unsigned)
      (run : Json.IsDigits (unsigned.dropLeading '-')) (isSigned : Text.IsSigned n unsigned) :
      textInteger? text = some n := by
    subst unsigned_eq
    rw [textInteger?_of_isDigits run]
    exact Text.int64?_eq_some_iff.mpr ⟨isSigned, fits⟩
  cases signed with
  | bare decimal =>
      have unsigned_eq := decimal.dropLeading_eq (c := '+') rfl
      have digits_eq := decimal.dropLeading_eq (c := '-') rfl
      exact read (trim_eq ▸ unsigned_eq) (digits_eq.symm ▸ decimal.isDigits) (.bare decimal)
  | plus decimal =>
      have digits_eq := decimal.dropLeading_eq (c := '-') rfl
      exact read (by rw [trim_eq]; rfl) (digits_eq.symm ▸ decimal.isDigits) (.bare decimal)
  | @minus size digits decimal =>
      have unsigned_eq : text.trim.dropLeading '+' = '-' :: digits := by rw [trim_eq]; rfl
      exact read unsigned_eq decimal.isDigits (.minus decimal)

theorem GivesInteger.integer?_eq {n : Int} {json : Json} (gives : GivesInteger n json)
    (fits : Text.minInt64 ≤ n ∧ n ≤ Text.maxInt64) : integer? json = some n := by
  cases gives with
  | number =>
      have within : Text.fitsInt64 n = true := by
        simpa [Text.fitsInt64] using fits
      rw [integer?, numberInteger, if_pos within]
  | text blankBefore signed blankAfter =>
      exact textInteger?_of_isSigned
        (signed.unbroken.trim_between blankBefore blankAfter) signed fits

/-! ## Lines and levels -/

/-- The integer that an entry gives is what its slot gets, if it is in range. -/
theorem GivesInteger.knownInteger?_eq {policy : Field.Policy} {members : Json.Members}
    {slot : Slot} {greatest n : Int} {json : Json} (gives : GivesInteger n json)
    (fits : Text.minInt64 ≤ n ∧ n ≤ Text.maxInt64) (admitted : policy.admits slot.name = true)
    (found : members.find? slot.name = some json) :
    knownInteger? policy members slot greatest =
      if 0 ≤ n ∧ n ≤ greatest then some n else none := by
  rw [knownInteger?, if_pos admitted, integerAt?, found, Option.bind_some, gives.integer?_eq fits,
    Option.filter_some]
  simp

/-- An integer of 64 bits that is given as the line or the level of a document, as a number or
as a text, is never rounded: where no other entry leads to the slot, the line is exactly this
integer unless it is negative, and the level is exactly this integer if it lies between zero
and the greatest integer of 32 bits; otherwise there is none. The decimal notation of such an
integer is read as this integer wherever it stands. -/
theorem line_and_level_of_given_integer (codec : Codec) (raw : RawMessage) {message : Message}
    (decoded : (codec.decode raw).value = .ok message) :
    ∃ text document,
      (Payload.toText raw.payload codec.limit codec.settings.charset).value = .ok text ∧
        Json.Document.ofText text = .ok document ∧
        ∀ (n : Int) json, -Int.pow 2 63 ≤ n → n < Int.pow 2 63 → GivesInteger n json →
          (codec.policy.admits "line".toList = true →
            document.value.members.find? "line".toList = some json →
            (∀ entry ∈ document.value.members,
              entry.1 ≠ "line".toList → (fieldName entry.1).trim ≠ "line".toList) →
            message.line? = if 0 ≤ n then some n else none) ∧
          (codec.policy.admits "level".toList = true →
            document.value.members.find? "level".toList = some json →
            (∀ entry ∈ document.value.members,
              entry.1 ≠ "level".toList → (fieldName entry.1).trim ≠ "level".toList) →
            message.level? = if 0 ≤ n ∧ n < Int.pow 2 31 then some n else none) ∧
          ∀ rest, Json.AtBoundary rest →
            Json.readValue (Text.ofInt n ++ rest) = .ok (.number (.integer n), rest) := by
  obtain ⟨text, document, text_eq, read_eq, slotValue?_eq⟩ := exists_slotValues_of_only decoded
  refine ⟨text, document, text_eq, read_eq, fun n json least greatest gives => ?_⟩
  have fits : Text.minInt64 ≤ n ∧ n ≤ Text.maxInt64 := ⟨least, Int.le_sub_one_of_lt greatest⟩
  have map_inj := Option.map_injective fun _ _ : Int => Field.Value.integer.inj
  refine ⟨fun admitted found only => ?_, fun admitted found only => ?_, fun rest boundary => ?_⟩
  · have held := slotValue?_eq .line maxLine (by simp [integerSlots]) only
    rw [gives.knownInteger?_eq fits admitted found] at held
    rw [map_inj held]
    simp only [show n ≤ maxLine from fits.2, and_true]
  · have held := slotValue?_eq .level maxLevel (by simp [integerSlots]) only
    rw [gives.knownInteger?_eq fits admitted found] at held
    have level_iff : n ≤ maxLevel ↔ n < Int.pow 2 31 := Int.le_sub_one_iff
    rw [map_inj held]
    simp only [level_iff]
  · have spelled : Json.ValueText .strict Json.depthLimit (.number (.integer n)) (Text.ofInt n) :=
      Json.valueText_integer ⟨least, Int.lt_trans greatest (by decide)⟩
    have ends : Json.EndsBefore (.number (.integer n)) rest := .inr boundary
    have read_eq := Json.readValue_append Json.blanks_nil spelled ends
    rwa [List.nil_append] at read_eq

/-- A document with the greatest integer of 64 bits as its line, behind a plus and zeros and
between blanks, and the least integer beyond 32 bits as its level. -/
def limitDocument : Text :=
  "\x7b\"short_message\":\"m\",\"line\":\" +009223372036854775807 \",\"level\":2147483648\x7d".toList

/-- The entries of the document. -/
def limitMembers : Json.Members :=
  [(shortMessageKey, .string ['m']), (Slot.line.name, .string " +009223372036854775807 ".toList),
    (Slot.level.name, .number (.integer 2147483648))]

theorem ofText_limitDocument :
    Json.Document.ofText limitDocument = .ok ⟨.object limitMembers, false⟩ :=
  Json.toOption_eq_some_iff.mp (by decide +kernel)

/-- The document has the greatest line and no level. -/
theorem line_and_level_of_limitDocument :
    ∃ message, (plainCodec.decode (rawOf limitDocument)).value = .ok message ∧
      message.line? = some 9223372036854775807 ∧ message.level? = none := by
  have limited := @value_toText_rawOf limitDocument (by decide +kernel) plainCodec.limit
  obtain ⟨message, decoded⟩ :=
    Codec.exists_decode_of_checked plainCodec limited ofText_limitDocument rfl
  obtain ⟨text, document, text_eq, read_eq, slots⟩ :=
    line_and_level_of_given_integer plainCodec (rawOf limitDocument) decoded
  cases limited.symm.trans text_eq
  cases ofText_limitDocument.symm.trans read_eq
  have lineGiven : GivesInteger 9223372036854775807 (.string " +009223372036854775807 ".toList) :=
    @GivesInteger.text _ [' '] "+009223372036854775807".toList [' '] (by decide)
      (.plus ⟨2, by decide⟩) (by decide)
  refine ⟨message, decoded, ?_, ?_⟩
  · exact (slots 9223372036854775807 _ (by decide) (by decide) lineGiven).1 (by decide)
      (by decide) (by decide +kernel)
  · exact (slots 2147483648 _ (by decide) (by decide) .number).2.1 (by decide) (by decide)
      (by decide +kernel)

end Gelf

end LogIntake
