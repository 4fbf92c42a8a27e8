import LogIntake.Proofs.Binary64.Reading
import LogIntake.Proofs.Gelf.Range

/-!
# Texts that are no numerals

A line or a level may come as a text, and only decimal numerals are meant to give it a
value. A few other texts do so as well: the words for infinities and for what is no
number, numerals with a bare point, and numerals behind two signs of which the first is
a plus.
-/

namespace LogIntake.Gelf

open Json (IsDigits SignText)

/-! ## Texts that are read as integers -/

/-- A decimal numeral: at most one sign, then digits with an optional fraction, or a
fraction alone, then an optional exponent. -/
def IsDecimalNumeral (text : Text) : Prop :=
  ∃ negative sign numeral unsigned, SignText negative sign ∧
    Numeral.Spells false numeral unsigned ∧ text = sign ++ unsigned

/-- An unsigned text that is no numeral and the integer that it is read as with the given
sign. -/
inductive StrangeText (negative : Bool) : Int → Text → Prop
  | infinity {word : Text}
      (isWord : word.toAsciiLower = "inf".toList ∨ word.toAsciiLower = "infinity".toList) :
      StrangeText negative (if negative then Text.minInt64 else Text.maxInt64) word
  | nan {word : Text} (isWord : word.toAsciiLower = "nan".toList) : StrangeText negative 0 word
  | barePoint {numeral : Numeral} {text : Text} (spelled : numeral.Spells true text) :
      StrangeText negative
        (Binary64.ofDecimal negative numeral.digits numeral.exponent).toInt64 text

/-- A text that is no decimal numeral and the integer that it is read as all the same. -/
inductive Misread : Text → Int → Prop
  | strange {negative : Bool} {lead sign unsigned : Text} {n : Int}
      (leads : lead = [] ∨ lead = ['+']) (signed : SignText negative sign)
      (isStrange : StrangeText negative n unsigned) : Misread (lead ++ (sign ++ unsigned)) n
  | signedTwice {negative : Bool} {sign unsigned : Text} {numeral : Numeral}
      (signed : SignText negative sign) (nonempty : sign ≠ [])
      (spelled : numeral.Spells false unsigned) (notRun : negative = true → ¬ IsDigits unsigned) :
      Misread ('+' :: (sign ++ unsigned))
        (Binary64.ofDecimal negative numeral.digits numeral.exponent).toInt64
  | minusDigits {size : Nat} {digits : Text} (decimal : Text.IsDecimal size digits)
      (fits : Text.minInt64 ≤ -size) : Misread ('+' :: '-' :: digits) (-size)

theorem textInteger?_of_isDigits {text : Text}
    (run : IsDigits ((text.trim.dropLeading '+').dropLeading '-')) :
    textInteger? text = Text.int64? (text.trim.dropLeading '+') := by
  rw [textInteger?, if_pos (Text.isDigits_iff.mpr run)]

theorem textInteger?_of_not_isDigits {text : Text}
    (notRun : ¬ IsDigits ((text.trim.dropLeading '+').dropLeading '-')) {n : Int} :
    textInteger? text = some n ↔
      ∃ x, Binary64.read (text.trim.dropLeading '+') = .ok x ∧ x.toInt64 = n := by
  rw [textInteger?, if_neg (mt Text.isDigits_iff.mp notRun)]
  cases Binary64.read (text.trim.dropLeading '+') <;> simp

theorem StrangeText.exists_unsignedText {negative : Bool} {n : Int} {text : Text}
    (isStrange : StrangeText negative n text) :
    ∃ x, Binary64.UnsignedText negative x text ∧ x.toInt64 = n := by
  cases isStrange with
  | infinity isWord => exact ⟨_, .infinity isWord, Binary64.toInt64_infinity negative⟩
  | nan isWord => exact ⟨_, .nan isWord, by decide⟩
  | barePoint spelled => exact ⟨_, .numeral spelled, rfl⟩

theorem StrangeText.not_isDigits {negative : Bool} {n : Int} {text : Text}
    (isStrange : StrangeText negative n text) : ¬ IsDigits text := by
  intro run
  obtain ⟨numeral, spelled⟩ := Numeral.exists_spells_of_isDigits run
  cases isStrange with
  | infinity isWord =>
      rcases isWord with isWord | isWord
      · exact Binary64.toAsciiLower_ne_of_spells spelled ⟨'i', rfl, by decide⟩ isWord
      · exact Binary64.toAsciiLower_ne_of_spells spelled ⟨'i', rfl, by decide⟩ isWord
  | nan isWord =>
      exact Binary64.toAsciiLower_ne_of_spells spelled ⟨'n', rfl, by decide⟩ isWord
  | barePoint barely =>
      rcases barely with ⟨-, -, _ | _, -⟩
      have digit := run.2 '.' (by simp)
      contradiction

/-! ## What is read is a numeral or misread -/

section Misread

variable {negative : Bool} {lead sign unsigned text : Text} {n : Int}

/-- A text is what is left without a leading plus, behind this plus or not. -/
theorem exists_lead (text : Text) :
    ∃ lead, (lead = [] ∨ lead = ['+']) ∧ text = lead ++ text.dropLeading '+' := by
  cases text with
  | nil => exact ⟨[], .inl rfl, rfl⟩
  | cons c rest =>
      by_cases plus : c = '+'
      · exact ⟨['+'], .inr rfl, by simp [Text.dropLeading, plus]⟩
      · exact ⟨[], .inl rfl, by simp [Text.dropLeading, plus]⟩

theorem signText_of_lead (leads : lead = [] ∨ lead = ['+']) : SignText false lead := by
  rcases leads with rfl | rfl
  · exact .absent
  · exact .plus

theorem isDecimalNumeral_of_isDigits (signed : SignText negative sign) (run : IsDigits unsigned) :
    IsDecimalNumeral (sign ++ unsigned) := by
  obtain ⟨numeral, spelled⟩ := Numeral.exists_spells_of_isDigits run
  exact ⟨negative, sign, numeral, unsigned, signed, spelled, rfl⟩

/-- Digits are misread only behind a plus and a minus. -/
theorem misread_of_isSigned (leads : lead = [] ∨ lead = ['+'])
    (notNumeral : ¬ IsDecimalNumeral (lead ++ text)) (run : IsDigits (text.dropLeading '-'))
    (signed : Text.IsSigned n text) (fits : Text.minInt64 ≤ n) : Misread (lead ++ text) n := by
  cases signed with
  | bare decimal =>
      exact absurd (isDecimalNumeral_of_isDigits (signText_of_lead leads) decimal.isDigits)
        notNumeral
  | plus decimal =>
      have digit := run.2 '+' (by simp [Text.dropLeading])
      contradiction
  | minus decimal =>
      rcases leads with rfl | rfl
      · exact absurd (isDecimalNumeral_of_isDigits .minus decimal.isDigits) notNumeral
      · exact .minusDigits decimal fits

/-- Words and bare points are misread behind any signs, numerals behind two. -/
theorem misread_of_unsignedText {x : Binary64} (leads : lead = [] ∨ lead = ['+'])
    (notNumeral : ¬ IsDecimalNumeral (lead ++ (sign ++ unsigned)))
    (notRun : ¬ IsDigits ((sign ++ unsigned).dropLeading '-'))
    (signed : SignText negative sign) (isUnsigned : Binary64.UnsignedText negative x unsigned) :
    Misread (lead ++ (sign ++ unsigned)) x.toInt64 := by
  cases isUnsigned with
  | infinity isWord =>
      rw [Binary64.toInt64_infinity]
      exact .strange leads signed (.infinity isWord)
  | nan isWord => exact .strange leads signed (.nan isWord)
  | @numeral bare numeral _ spelled =>
      cases bare with
      | true => exact .strange leads signed (.barePoint spelled)
      | false =>
          -- behind one sign or none this would be a decimal numeral
          rcases leads with rfl | rfl
          · exact absurd ⟨negative, sign, numeral, unsigned, signed, spelled, rfl⟩ notNumeral
          · have nonempty : sign ≠ [] := by
              rintro rfl
              exact notNumeral ⟨false, ['+'], numeral, unsigned, .plus, spelled, rfl⟩
            have notDigits : negative = true → ¬ IsDigits unsigned := by
              rintro rfl
              cases signed
              simpa [Text.dropLeading] using notRun
            change Misread ('+' :: (sign ++ unsigned)) _
            exact .signedTwice signed nonempty spelled notDigits

/-- What is read although it is no decimal numeral is misread. -/
theorem misread_of_textInteger? (notNumeral : ¬ IsDecimalNumeral text.trim)
    (read : textInteger? text = some n) : Misread text.trim n := by
  obtain ⟨lead, leads, text_eq⟩ := exists_lead text.trim
  by_cases run : IsDigits ((text.trim.dropLeading '+').dropLeading '-')
  · rw [textInteger?_of_isDigits run] at read
    obtain ⟨signed, fits, -⟩ := Text.int64?_eq_some_iff.mp read
    rw [text_eq] at notNumeral ⊢
    exact misread_of_isSigned leads notNumeral run signed fits
  · obtain ⟨x, read_eq, rfl⟩ := (textInteger?_of_not_isDigits run).mp read
    obtain ⟨negative, sign, unsigned, signed, isUnsigned, sign_eq⟩ :=
      Binary64.read_eq_ok_iff.mp read_eq
    rw [sign_eq] at run text_eq
    rw [text_eq] at notNumeral ⊢
    exact misread_of_unsignedText leads notNumeral run signed isUnsigned

/-- The sign that is left when a leading plus has been dropped. -/
theorem exists_sign_of_lead {x : Binary64} (leads : lead = [] ∨ lead = ['+'])
    (signed : SignText negative sign) (isUnsigned : Binary64.UnsignedText negative x unsigned) :
    ∃ left, SignText negative left ∧
      (lead ++ (sign ++ unsigned)).dropLeading '+' = left ++ unsigned := by
  rcases leads with rfl | rfl
  · cases signed with
    | absent =>
        obtain ⟨c, rest, rfl, -, notPlus⟩ := isUnsigned.exists_cons
        exact ⟨[], .absent, by simp [Text.dropLeading, notPlus]⟩
    | plus => exact ⟨[], .absent, rfl⟩
    | minus => exact ⟨['-'], .minus, rfl⟩
  · exact ⟨sign, signed, rfl⟩

/-- Behind a sign that is left, a text is read as a double unless it is a run of digits. -/
theorem textInteger?_of_signed {x : Binary64}
    (unsigned_eq : text.trim.dropLeading '+' = sign ++ unsigned)
    (signed : SignText negative sign) (isUnsigned : Binary64.UnsignedText negative x unsigned)
    (notRun : sign = ['+'] ∨ ¬ IsDigits unsigned) : textInteger? text = some x.toInt64 := by
  have notDigits : ¬ IsDigits ((sign ++ unsigned).dropLeading '-') := by
    cases signed with
    | absent =>
        obtain ⟨c, rest, rfl, notMinus, -⟩ := isUnsigned.exists_cons
        simpa [Text.dropLeading, notMinus] using notRun
    | minus => simpa [Text.dropLeading] using notRun
    | plus =>
        -- only a minus is dropped, so that the plus stays in front
        intro run
        have digit := run.2 '+' (by simp [Text.dropLeading])
        contradiction
  rw [textInteger?_of_not_isDigits (unsigned_eq ▸ notDigits), unsigned_eq]
  exact ⟨x, Binary64.read_eq_ok_iff.mpr ⟨negative, sign, unsigned, signed, isUnsigned, rfl⟩, rfl⟩

/-- A misread text is read indeed. -/
theorem textInteger?_of_misread {trimmed : Text} (trim_eq : text.trim = trimmed)
    (misread : Misread trimmed n) : textInteger? text = some n := by
  cases misread with
  | strange leads signed isStrange =>
      obtain ⟨x, isUnsigned, rfl⟩ := isStrange.exists_unsignedText
      obtain ⟨left, leftSigned, left_eq⟩ := exists_sign_of_lead leads signed isUnsigned
      exact textInteger?_of_signed (trim_eq ▸ left_eq) leftSigned isUnsigned
        (.inr isStrange.not_isDigits)
  | signedTwice signed nonempty spelled notRun =>
      refine textInteger?_of_signed (by rw [trim_eq]; rfl) signed (.numeral spelled) ?_
      cases signed with
      | absent => contradiction
      | plus => exact .inl rfl
      | minus => exact .inr (notRun rfl)
  | @minusDigits size digits decimal fits =>
      have unsigned_eq : text.trim.dropLeading '+' = '-' :: digits := by rw [trim_eq]; rfl
      have upper : -(size : Int) ≤ Text.maxInt64 :=
        Int.le_trans (Int.neg_nonpos_of_nonneg (Int.natCast_nonneg size)) (by decide)
      rw [textInteger?_of_isDigits (unsigned_eq ▸ decimal.isDigits), unsigned_eq]
      exact Text.int64?_eq_some_iff.mpr ⟨.minus decimal, fits, upper⟩

end Misread

/-! ## Lines and levels -/

/-- What the well-known entry of a slot gives when it is a text. -/
theorem knownInteger?_string {policy : Field.Policy} {members : Json.Members} {slot : Slot}
    {greatest : Int} {s : Text} (found : members.find? slot.name = some (.string s)) {n : Int} :
    knownInteger? policy members slot greatest = some n ↔
      policy.admits slot.name = true ∧ textInteger? s = some n ∧ 0 ≤ n ∧ n ≤ greatest := by
  unfold knownInteger? integerAt?
  rw [found, Option.bind_some, integer?]
  cases policy.admits slot.name <;> simp [Option.filter_eq_some_iff]

/-- The line or level of a document in which it is a text and no other entry leads to
the slot. A text that is no decimal numeral fills the slot only if it is misread as an
integer in range, and then it does fill the slot with this integer. -/
theorem line_and_level_of_misread_text (codec : Codec) (raw : RawMessage) {message : Message}
    (decoded : (codec.decode raw).value = .ok message) :
    ∃ text document,
      (Payload.toText raw.payload codec.limit codec.settings.charset).value = .ok text ∧
        Json.Document.ofText text = .ok document ∧
        ∀ slot greatest s, (slot, greatest) ∈ integerSlots →
          document.value.members.find? slot.name = some (.string s) →
          (∀ entry ∈ document.value.members,
            entry.1 ≠ slot.name → (fieldName entry.1).trim ≠ slot.name) →
          ¬ IsDecimalNumeral s.trim →
          ∀ value, message.slotValue? slot = some value ↔
            ∃ n, value = .integer n ∧ codec.policy.admits slot.name = true ∧
              (0 ≤ n ∧ n ≤ greatest) ∧ Misread s.trim n := by
  obtain ⟨text, document, text_eq, read_eq, slotValue?_eq⟩ := exists_slotValues_of_only decoded
  refine ⟨text, document, text_eq, read_eq, ?_⟩
  intro slot greatest s isInteger found only notNumeral value
  have read_iff (n : Int) : textInteger? s = some n ↔ Misread s.trim n :=
    ⟨misread_of_textInteger? notNumeral, textInteger?_of_misread rfl⟩
  rw [slotValue?_eq slot greatest isInteger only, Option.map_eq_some_iff]
  constructor
  · rintro ⟨n, known, rfl⟩
    obtain ⟨admitted, read, inRange⟩ := (knownInteger?_string found).mp known
    exact ⟨n, rfl, admitted, inRange, (read_iff n).mp read⟩
  · rintro ⟨n, rfl, admitted, inRange, misread⟩
    exact ⟨n, (knownInteger?_string found).mpr ⟨admitted, (read_iff n).mpr misread, inRange⟩, rfl⟩

/-- A document whose line is the word for what is no number. -/
def wordDocument : Text :=
  "\x7b\"host\":\"h\",\"short_message\":\"m\",\"line\":\"nan\"\x7d".toList

/-- The entries of the document. -/
def wordMembers : Json.Members :=
  [(hostKey, .string ['h']), (shortMessageKey, .string ['m']),
    (Slot.line.name, .string "nan".toList)]

theorem ofText_wordDocument :
    Json.Document.ofText wordDocument = .ok ⟨.object wordMembers, false⟩ :=
  Json.toOption_eq_some_iff.mp (by decide +kernel)

theorem decode_wordDocument :
    ∃ message, (plainCodec.decode (rawOf wordDocument)).value = .ok message ∧
      message.line? = some 0 := by
  have run : ((plainCodec.decode (rawOf wordDocument)).value.toOption.any fun message =>
      message.line? == some 0) = true := by
    decide +kernel
  obtain ⟨message, decoded, held⟩ := Json.exists_of_any_toOption run
  exact ⟨message, decoded, by simpa using held⟩

/-- No word is a decimal numeral. -/
theorem not_isDecimalNumeral_of_word {c : Char} {rest : Text} (isLetter : 'a' ≤ c)
    (small : Text.toAsciiLower (c :: rest) = c :: rest) : ¬ IsDecimalNumeral (c :: rest) := by
  rintro ⟨negative, sign, numeral, unsigned, signed, spelled, text_eq⟩
  cases signed with
  | absent =>
      subst text_eq
      exact Binary64.toAsciiLower_ne_of_spells spelled ⟨c, rfl, isLetter⟩ small
  | plus =>
      cases text_eq
      exact absurd isLetter (by decide)
  | minus =>
      cases text_eq
      exact absurd isLetter (by decide)

/-- Texts that are no decimal numerals may fill the line. -/
theorem line_of_word :
    ¬ ∀ (codec : Codec) raw message text document slot greatest s,
      (codec.decode raw).value = .ok message →
      (Payload.toText raw.payload codec.limit codec.settings.charset).value = .ok text →
      Json.Document.ofText text = .ok document → (slot, greatest) ∈ integerSlots →
      document.value.members.find? slot.name = some (.string s) →
      (∀ entry ∈ document.value.members,
        entry.1 ≠ slot.name → (fieldName entry.1).trim ≠ slot.name) →
      ¬ IsDecimalNumeral s.trim → message.slotValue? slot = none := by
  intro unread
  obtain ⟨message, decoded, line_eq⟩ := decode_wordDocument
  have word := @value_toText_rawOf wordDocument (by decide +kernel) plainCodec.limit
  have none_eq := unread plainCodec (rawOf wordDocument) message wordDocument _ .line maxLine
    "nan".toList decoded word ofText_wordDocument (by simp [integerSlots])
    (by decide) (by decide +kernel) (not_isDecimalNumeral_of_word (by decide) (by decide))
  simp [Message.slotValue?, line_eq] at none_eq

/-- The word fills the line with zero. -/
theorem line_of_wordDocument :
    ∃ message, (plainCodec.decode (rawOf wordDocument)).value = .ok message ∧
      ¬ IsDecimalNumeral "nan".toList ∧ message.slotValue? .line = some (.integer 0) := by
  obtain ⟨message, decoded, -⟩ := decode_wordDocument
  obtain ⟨text, document, text_eq, read_eq, slots⟩ :=
    line_and_level_of_misread_text plainCodec (rawOf wordDocument) decoded
  have word := @value_toText_rawOf wordDocument (by decide +kernel) plainCodec.limit
  cases word.symm.trans text_eq
  cases ofText_wordDocument.symm.trans read_eq
  have notNumeral : ¬ IsDecimalNumeral "nan".toList :=
    not_isDecimalNumeral_of_word (by decide) (by decide)
  refine ⟨message, decoded, notNumeral, ?_⟩
  refine (slots .line maxLine "nan".toList (by simp [integerSlots]) (by decide)
    (by decide +kernel) notNumeral _).mpr ⟨0, rfl, by decide, by decide, ?_⟩
  exact .strange (.inl rfl) .absent (.nan (by decide))

end LogIntake.Gelf
