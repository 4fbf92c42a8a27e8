import LogIntake.Binary64.Numeral
import LogIntake.Proofs.Digits

/-!
# Texts of doubles

The texts that are read as doubles are numerals and a few words, behind a sign or not.
An unsigned numeral has digits, a fraction or both, and perhaps an exponent. Besides,
a point without digits behind it is read like a missing fraction.
-/

namespace LogIntake

open Json (IsDigits SignText)

/-! ## Numerals -/

namespace Numeral

/-- An exponent and its spellings; a missing one is zero. -/
inductive ExponentText : Int → Text → Prop
  | absent : ExponentText 0 []
  | signed {letter : Char} {exponent : Int} {digits : Text}
      (isLetter : letter = 'e' ∨ letter = 'E') (signed : Text.IsSigned exponent digits) :
      ExponentText exponent (letter :: digits)

/-- The digits of a fraction and its spelling. The point is bare if no digits follow. -/
inductive FractionText : Bool → Text → Text → Prop
  | absent : FractionText false [] []
  | point {bare : Bool} {digits : Text} (run : ∀ c ∈ digits, Text.isDigit c = true)
      (isBare : bare = digits.isEmpty) : FractionText bare digits ('.' :: digits)

/-- An unsigned numeral and its spellings, in which the point may be bare. -/
inductive Spells (bare : Bool) : Numeral → Text → Prop
  | parts {whole fraction fractionText exponentText : Text} {exponent : Int}
      (digits : ∀ c ∈ whole, Text.isDigit c = true) (nonempty : whole ++ fraction ≠ [])
      (fractionSpelled : FractionText bare fraction fractionText)
      (exponentSpelled : ExponentText exponent exponentText) :
      Spells bare ⟨Text.number (whole ++ fraction), exponent - fraction.length⟩
        (whole ++ (fractionText ++ exponentText))

theorem exponent?_eq_some_iff {text : Text} {exponent : Int} :
    exponent? text = some exponent ↔ ExponentText exponent text := by
  constructor
  · intro read
    cases text with
    | nil =>
        cases read
        exact .absent
    | cons letter digits =>
        rw [exponent?] at read
        split at read
        · rename_i isLetter
          exact .signed isLetter (Text.integer?_eq_some_iff.mp read)
        · contradiction
  · rintro (_ | ⟨isLetter, signed⟩)
    · rfl
    · rw [exponent?, if_pos isLetter, Text.integer?_eq_some_iff.mpr signed]

/-- No exponent starts like a fraction or goes on with its digits. -/
theorem ExponentText.stops {exponent : Int} {text : Text} (spelled : ExponentText exponent text) :
    ∀ c ∈ text.head?, Text.isDigit c = false ∧ c ≠ '.' := by
  cases spelled with
  | absent => exact nofun
  | signed isLetter _ =>
      rintro _ ⟨⟩
      rcases isLetter with rfl | rfl <;> decide

/-- What is read of a text, from its run of digits and the fraction behind it. -/
theorem read?_append {bare : Bool} {whole fraction fractionText rest : Text}
    (digits : ∀ c ∈ whole, Text.isDigit c = true)
    (spelled : FractionText bare fraction fractionText)
    (stops : ∀ c ∈ rest.head?, Text.isDigit c = false)
    (notPoint : fractionText = [] → rest.head? ≠ some '.') :
    read? (whole ++ (fractionText ++ rest)) =
      if whole ++ fraction = [] then none
      else (exponent? rest).map fun exponent =>
        ⟨Text.number (whole ++ fraction), exponent - fraction.length⟩ := by
  have wholeStops : ∀ c ∈ (fractionText ++ rest).head?, Text.isDigit c = false := by
    cases spelled with
    | absent => exact stops
    | point =>
        rintro _ ⟨⟩
        rfl
  unfold read?
  rw [Json.takeWhile_run_append digits wholeStops, Json.dropWhile_run_append digits wholeStops]
  cases spelled with
  | absent =>
      cases rest with
      | nil => simp
      | cons c rest =>
          have notPoint : c ≠ '.' := by simpa using notPoint rfl
          simp [notPoint]
  | point run =>
      simp [Json.takeWhile_run_append run stops, Json.dropWhile_run_append run stops]

/-- Every text is a run of digits with a fraction behind it, if it has one. -/
theorem exists_parts (text : Text) :
    ∃ bare whole fraction fractionText rest, text = whole ++ (fractionText ++ rest) ∧
      (∀ c ∈ whole, Text.isDigit c = true) ∧ FractionText bare fraction fractionText ∧
      (∀ c ∈ rest.head?, Text.isDigit c = false) ∧
      (fractionText = [] → rest.head? ≠ some '.') := by
  have run (text : Text) : ∀ c ∈ text.takeWhile Text.isDigit, Text.isDigit c = true :=
    List.all_eq_true.mp List.all_takeWhile
  have stops (text : Text) : ∀ c ∈ (text.dropWhile Text.isDigit).head?, Text.isDigit c = false :=
    Json.head?_dropWhile_stops Text.isDigit text
  have split (text : Text) : text = text.takeWhile Text.isDigit ++ text.dropWhile Text.isDigit :=
    List.takeWhile_append_dropWhile.symm
  -- a point behind the digits belongs to the fraction, whatever follows it
  by_cases isPoint : (text.dropWhile Text.isDigit).head? = some '.'
  · obtain ⟨tail, after_eq⟩ := List.head?_eq_some_iff.mp isPoint
    refine ⟨_, _, _, '.' :: tail.takeWhile Text.isDigit, _, ?_, run text, .point (run tail) rfl,
      stops tail, nofun⟩
    rw [List.cons_append, ← split tail, ← after_eq, ← split]
  · exact ⟨_, _, _, [], _, split text, run text, .absent, stops text, fun _ => isPoint⟩

/-- The numerals that are read are those that are spelled. -/
theorem read?_eq_some_iff {text : Text} {numeral : Numeral} :
    read? text = some numeral ↔ ∃ bare, Spells bare numeral text := by
  constructor
  · intro read
    obtain ⟨bare, whole, fraction, fractionText, rest, rfl, digits, spelled, stops, notPoint⟩ :=
      exists_parts text
    rw [read?_append digits spelled stops notPoint] at read
    split at read
    · contradiction
    · rename_i nonempty
      obtain ⟨exponent, exponent_eq, rfl⟩ := Option.map_eq_some_iff.mp read
      exact ⟨bare, .parts digits nonempty spelled (exponent?_eq_some_iff.mp exponent_eq)⟩
  · rintro ⟨bare, digits, nonempty, spelled, exponentSpelled⟩
    have stops := exponentSpelled.stops
    rw [read?_append digits spelled (fun c head => (stops c head).1)
      (fun _ head => (stops '.' head).2 rfl), if_neg nonempty,
      exponent?_eq_some_iff.mpr exponentSpelled]
    rfl

theorem exists_spells_of_isDigits {digits : Text} (run : IsDigits digits) :
    ∃ numeral, Spells false numeral digits := by
  have spelled := Spells.parts run.2 (by simpa using run.1) .absent .absent
  simp only [List.append_nil] at spelled
  exact ⟨_, spelled⟩

/-- A numeral starts with a digit or a point. -/
theorem Spells.exists_cons {bare : Bool} {numeral : Numeral} {text : Text}
    (spelled : Spells bare numeral text) :
    ∃ c rest, text = c :: rest ∧ (Text.isDigit c = true ∨ c = '.') := by
  rcases spelled with ⟨digits, nonempty, fractionSpelled, -⟩
  rename_i whole _ _ _ _
  cases whole with
  | cons c whole => exact ⟨c, _, rfl, .inl (digits c List.mem_cons_self)⟩
  | nil =>
      cases fractionSpelled with
      | absent => exact absurd rfl nonempty
      | point => exact ⟨'.', _, rfl, .inr rfl⟩

end Numeral

/-! ## Doubles -/

namespace Binary64

/-- An unsigned word or numeral and the double that it denotes with the given sign. -/
inductive UnsignedText (negative : Bool) : Binary64 → Text → Prop
  | infinity {word : Text}
      (isWord : word.toAsciiLower = "inf".toList ∨ word.toAsciiLower = "infinity".toList) :
      UnsignedText negative (infinity negative) word
  | nan {word : Text} (isWord : word.toAsciiLower = "nan".toList) : UnsignedText negative nan word
  | numeral {bare : Bool} {numeral : Numeral} {text : Text} (spelled : numeral.Spells bare text) :
      UnsignedText negative (ofDecimal negative numeral.digits numeral.exponent) text

variable {negative : Bool} {x : Binary64} {text : Text}

theorem toInt64_infinity (negative : Bool) :
    (infinity negative).toInt64 = if negative then Text.minInt64 else Text.maxInt64 := by
  cases negative <;> decide

/-- A text starts with the first letter of its small letters, or with a capital. -/
theorem starts_of_toAsciiLower {letter : Char} {word : Text}
    (lower : text.toAsciiLower = letter :: word) :
    ∃ c rest, text = c :: rest ∧ (c = letter ∨ 'A' ≤ c ∧ c ≤ 'Z') := by
  cases text with
  | nil => contradiction
  | cons c rest =>
      refine ⟨c, rest, rfl, ?_⟩
      rw [Text.toAsciiLower, List.map_cons, List.cons.injEq] at lower
      split at lower
      · rename_i capital
        exact .inr capital
      · exact .inl lower.1

/-- No numeral is a word. -/
theorem toAsciiLower_ne_of_spells {bare : Bool} {numeral : Numeral} {word : Text}
    (spelled : numeral.Spells bare text) (isWord : ∃ letter ∈ word.head?, 'a' ≤ letter) :
    text.toAsciiLower ≠ word := by
  intro lower
  obtain ⟨letter, head, small⟩ := isWord
  obtain ⟨tail, rfl⟩ := List.head?_eq_some_iff.mp head
  obtain ⟨c, rest, rfl, numeralStart⟩ := spelled.exists_cons
  obtain ⟨_, _, ⟨⟩, wordStart⟩ := starts_of_toAsciiLower lower
  have low : c ≤ '9' := by
    rcases numeralStart with digit | rfl
    · simp only [Text.isDigit, Bool.and_eq_true, decide_eq_true_eq] at digit
      exact digit.2
    · decide
  rcases wordStart with rfl | ⟨capital, -⟩
  · exact absurd (Char.le_trans small low) (by decide)
  · exact absurd (Char.le_trans capital low) (by decide)

/-- Words start with a letter, numerals with a digit or a point. -/
theorem UnsignedText.exists_cons (unsigned : UnsignedText negative x text) :
    ∃ c rest, text = c :: rest ∧ c ≠ '-' ∧ c ≠ '+' := by
  have word {letter : Char} {rest : Text} (lower : text.toAsciiLower = letter :: rest)
      (small : 'a' ≤ letter) : ∃ c rest, text = c :: rest ∧ c ≠ '-' ∧ c ≠ '+' := by
    obtain ⟨c, rest, rfl, start⟩ := starts_of_toAsciiLower lower
    refine ⟨c, rest, rfl, ?_, ?_⟩
    all_goals
      rintro rfl
      rcases start with rfl | ⟨capital, -⟩ <;> contradiction
  cases unsigned with
  | infinity isWord => exact isWord.elim (word · (by decide)) (word · (by decide))
  | nan isWord => exact word isWord (by decide)
  | numeral spelled =>
      obtain ⟨c, rest, rfl, start⟩ := spelled.exists_cons
      refine ⟨c, rest, rfl, ?_, ?_⟩
      all_goals
        rintro rfl
        rcases start with digit | point <;> contradiction

theorem readUnsigned_eq_ok_iff :
    readUnsigned negative text = .ok x ↔ UnsignedText negative x text := by
  constructor
  · intro read
    unfold readUnsigned at read
    dsimp only at read
    split at read
    · rename_i isWord
      cases read
      exact .infinity isWord
    · split at read
      · rename_i isWord
        cases read
        exact .nan isWord
      · split at read
        · rename_i numeral numeral_eq
          obtain ⟨bare, spelled⟩ := Numeral.read?_eq_some_iff.mp numeral_eq
          cases read
          exact .numeral spelled
        · contradiction
  · rintro (isWord | isWord | spelled)
    · rw [readUnsigned, if_pos isWord]
    · have notInfinity : ¬ (text.toAsciiLower = "inf".toList ∨
          text.toAsciiLower = "infinity".toList) := by
        rw [isWord]
        decide
      rw [readUnsigned, if_neg notInfinity, if_pos isWord]
    · have notInfinity : ¬ (text.toAsciiLower = "inf".toList ∨
          text.toAsciiLower = "infinity".toList) :=
        not_or_intro (toAsciiLower_ne_of_spells spelled ⟨'i', rfl, by decide⟩)
          (toAsciiLower_ne_of_spells spelled ⟨'i', rfl, by decide⟩)
      have notNan : text.toAsciiLower ≠ "nan".toList :=
        toAsciiLower_ne_of_spells spelled ⟨'n', rfl, by decide⟩
      rw [readUnsigned, if_neg notInfinity, if_neg notNan,
        Numeral.read?_eq_some_iff.mpr ⟨_, spelled⟩]

/-- The texts that are read have at most one sign before a word or a numeral. -/
theorem read_eq_ok_iff :
    read text = .ok x ↔
      ∃ negative sign unsigned, SignText negative sign ∧ UnsignedText negative x unsigned ∧
        text = sign ++ unsigned := by
  constructor
  · intro read_eq
    unfold read at read_eq
    split at read_eq
    · contradiction
    · exact ⟨true, _, _, .minus, readUnsigned_eq_ok_iff.mp read_eq, rfl⟩
    · exact ⟨false, _, _, .plus, readUnsigned_eq_ok_iff.mp read_eq, rfl⟩
    · exact ⟨false, _, _, .absent, readUnsigned_eq_ok_iff.mp read_eq, rfl⟩
  · rintro ⟨negative, sign, unsigned, signed, isUnsigned, rfl⟩
    have read_eq := readUnsigned_eq_ok_iff.mpr isUnsigned
    cases signed with
    | minus => exact read_eq
    | plus => exact read_eq
    | absent =>
        obtain ⟨c, rest, rfl, notMinus, notPlus⟩ := isUnsigned.exists_cons
        rw [List.nil_append]
        unfold read
        split <;> simp_all

end Binary64

end LogIntake
