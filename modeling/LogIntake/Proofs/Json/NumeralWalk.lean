import LogIntake.Proofs.Charset.Utf8
import LogIntake.Proofs.Json.NumeralPattern

/-!
# Walks over the bytes of a token

A walk accepts a token exactly if it is a match of the regular expression for numerals.

Each part of a walk is described twice. Whatever the bytes are, it stops for a mismatch or
passes the bytes of a match; so it never gets beyond the end. And it passes a match whole,
unless the byte behind would prolong it.
-/

namespace LogIntake.Json

namespace NumeralWalk

open NumeralPattern
open RegularExpression (char)

variable {before rest : List UInt8} {c : Char} {text : Text}

/-! ## Bytes -/

@[simp]
theorem bytesOf_append (front back : Text) :
    bytesOf (front ++ back) = bytesOf front ++ bytesOf back :=
  List.flatMap_append

theorem bytesOf_injective : Function.Injective bytesOf := by
  intro first second bytes_eq
  calc
    first = Charset.Utf8.decode (bytesOf first) := (Charset.Utf8.decode_flatMap first).symm
    _ = Charset.Utf8.decode (bytesOf second) := congrArg _ bytes_eq
    _ = second := Charset.Utf8.decode_flatMap second

theorem bytesOf_ascii (ascii : c.toNat < 0x80) : bytesOf [c] = [c.toUInt8] := by
  have encoded := Charset.Utf8.utf8EncodeChar_one ascii
  rw [Char.ofNat_toNat] at encoded
  rw [bytesOf, List.flatMap_singleton, encoded]
  rfl

theorem bytesOf_cons (ascii : c.toNat < 0x80) (text : Text) :
    bytesOf (c :: text) = c.toUInt8 :: bytesOf text := by
  rw [← List.singleton_append, bytesOf_append, bytesOf_ascii ascii]
  rfl

theorem isDigit_iff {byte : UInt8} :
    isDigit byte = true ↔ 48 ≤ byte.toNat ∧ byte.toNat ≤ 57 := by
  have codes : '0'.toUInt8.toNat = 48 ∧ '9'.toUInt8.toNat = 57 := by decide
  simp [isDigit, UInt8.le_iff_toNat_le, codes]

theorem ascii_of_isDigit (digit : Text.isDigit c = true) : c.toNat < 0x80 := by
  have code := Text.isDigit_iff.mp digit
  omega

theorem bytesOf_digit (digit : Text.isDigit c = true) :
    bytesOf [c] = [c.toUInt8] ∧ isDigit c.toUInt8 = true := by
  have ascii := ascii_of_isDigit digit
  rcases Text.isDigit_iff.mp digit with ⟨above, below⟩
  constructor
  · exact bytesOf_ascii ascii
  · have toNat_eq : c.toUInt8.toNat = c.toNat % 256 := rfl
    rw [isDigit_iff, toNat_eq]
    omega

theorem ne_of_isDigit (digit : Text.isDigit c = true) {byte : UInt8}
    (other : isDigit byte = false) : c.toUInt8 ≠ byte := by
  rintro rfl
  exact Bool.false_ne_true (other.symm.trans (bytesOf_digit digit).2)

/-- A digit is the only byte of a character. -/
theorem exists_digit {byte : UInt8} (digit : isDigit byte = true) :
    ∃ c, bytesOf [c] = [byte] ∧ Text.isDigit c = true := by
  rcases isDigit_iff.mp digit with ⟨above, below⟩
  have toNat_eq : (Char.ofNat byte.toNat).toNat = byte.toNat :=
    Charset.toNat_ofNat_of_isValidChar (.inl (by omega))
  exists Char.ofNat byte.toNat
  constructor
  · rw [bytesOf, List.flatMap_singleton, Charset.Utf8.utf8EncodeChar_one (by omega),
      UInt8.ofNat_toNat]
  · rw [Text.isDigit_iff, toNat_eq]
    exact ⟨above, below⟩

/-- The digits in front of the bytes are those of a text. -/
theorem exists_bytesOf_takeWhile (bytes : List UInt8) :
    ∃ text, bytes.takeWhile isDigit = bytesOf text ∧ ∀ c ∈ text, Text.isDigit c = true := by
  induction bytes with
  | nil => exact ⟨[], rfl, by simp⟩
  | cons byte bytes ih =>
      cases digit : isDigit byte with
      | false => exact ⟨[], by simp [digit, bytesOf], by simp⟩
      | true =>
          rcases ih with ⟨text, text_eq, each⟩
          rcases exists_digit digit with ⟨c, c_eq, cDigit⟩
          exists [c] ++ text
          constructor
          · rw [List.takeWhile_cons_of_pos digit, text_eq, bytesOf_append, c_eq]
            rfl
          · simpa [cDigit] using each

theorem isDigit_of_mem_bytesOf (digits : ∀ c ∈ text, Text.isDigit c = true) :
    ∀ byte ∈ bytesOf text, isDigit byte = true := by
  intro byte member
  obtain ⟨c, cMember, member⟩ := List.mem_flatMap.mp member
  rcases bytesOf_digit (digits c cMember) with ⟨c_eq, digit⟩
  rw [bytesOf, List.flatMap_singleton] at c_eq
  rw [c_eq, List.mem_singleton] at member
  rwa [member]

/-! ## What is passed -/

/-- What may come of passing a match behind the bytes `before`: a mismatch, or else the bytes
of one have been passed. -/
inductive Passes (matched : Language Char) (before rest : List UInt8) : Except Stop Nat → Prop
  | mismatch : Passes matched before rest (.error .mismatch)
  | spelled {text : Text} {behind : List UInt8} (isMatch : text ∈ matched)
      (split : rest = bytesOf text ++ behind) :
      Passes matched before rest (.ok (before ++ bytesOf text).length)

namespace Passes

variable {first second : Language Char} {result : Except Stop Nat}

theorem ne_outOfBounds (passes : Passes first before rest result) :
    result ≠ .error .outOfBounds := by
  cases passes <;> simp

theorem mono (passes : Passes first before rest result)
    (included : ∀ text ∈ first, text ∈ second) : Passes second before rest result := by
  cases passes with
  | mismatch => exact .mismatch
  | spelled isMatch split => exact .spelled (included _ isMatch) split

theorem nothing (isMatch : [] ∈ first) : Passes first before rest (.ok before.length) := by
  have passes : Passes first before rest _ := .spelled isMatch (List.nil_append rest).symm
  simpa [bytesOf] using passes

/-- Behind the bytes of a match of `first`. -/
theorem prepend (isMatch : text ∈ first)
    (passes : Passes second (before ++ bytesOf text) rest result) :
    Passes (first * second) before (bytesOf text ++ rest) result := by
  cases passes with
  | mismatch => exact .mismatch
  | @spelled next behind nextMatch split =>
      have both : text ++ next ∈ first * second := Language.append_mem_mul isMatch nextMatch
      rw [List.append_assoc, ← bytesOf_append]
      apply spelled both
      rw [split, bytesOf_append, List.append_assoc]

end Passes

/-- From anywhere on, only matches are passed. -/
def Sound (pass : List UInt8 → Nat → Except Stop Nat) (matched : Language Char) : Prop :=
  ∀ before rest, Passes matched before rest (pass (before ++ rest) before.length)

namespace Sound

variable {pass next : List UInt8 → Nat → Except Stop Nat} {first second : Language Char}

/-- One part after the other. -/
theorem mul (sound : Sound pass first) (nextSound : Sound next second) :
    Sound (fun bytes passed => pass bytes passed >>= next bytes) (first * second) := by
  intro before rest
  have passes := sound before rest
  simp only
  generalize pass (before ++ rest) before.length = result at passes
  cases passes with
  | mismatch => exact .mismatch
  | @spelled text behind isMatch split =>
      have passes := nextSound (before ++ bytesOf text) behind
      rw [List.append_assoc] at passes
      rw [split]
      exact passes.prepend isMatch

/-- Behind a character that has been passed without looking any further. -/
theorem afterChar (sound : Sound pass second) (ascii : c.toNat < 0x80) (isMatch : [c] ∈ first)
    (before rest : List UInt8) :
    Passes (first * second) before (c.toUInt8 :: rest)
      (pass (before ++ c.toUInt8 :: rest) (before.length + 1)) := by
  have passes := (sound (before ++ bytesOf [c]) rest).prepend isMatch
  simpa [bytesOf_ascii ascii] using passes

end Sound

theorem getElem?_front (before rest : List UInt8) :
    (before ++ rest)[before.length]? = rest.head? := by
  rw [List.getElem?_append_right (Nat.le_refl _), Nat.sub_self, List.head?_eq_getElem?]

theorem digitCount_front (before rest : List UInt8) :
    digitCount (before ++ rest) before.length = .ok (rest.takeWhile isDigit).length := by
  simp [digitCount]

theorem passDigits_front (before rest : List UInt8) :
    passDigits (before ++ rest) before.length =
      if (rest.takeWhile isDigit).length = 0 then .error .mismatch
      else .ok (before.length + (rest.takeWhile isDigit).length) := by
  rw [passDigits, digitCount_front]
  rfl

theorem sound_passDigits : Sound passDigits digits.matches' := by
  intro before rest
  rcases exists_bytesOf_takeWhile rest with ⟨text, text_eq, each⟩
  rw [passDigits_front]
  split
  · exact .mismatch
  · rename_i nonempty
    have run : IsDigits text := by
      constructor
      · rintro rfl
        rw [text_eq] at nonempty
        exact nonempty rfl
      · exact each
    rw [text_eq, ← List.length_append]
    apply Passes.spelled (mem_digits.mpr run)
    rw [← text_eq, List.takeWhile_append_dropWhile]

/-- Digits of which the first is not zero are a whole part. -/
theorem exists_whole_takeWhile {byte : UInt8} {bytes : List UInt8} (digit : isDigit byte = true)
    (notZero : byte ≠ '0'.toUInt8) :
    ∃ text, (byte :: bytes).takeWhile isDigit = bytesOf text ∧ IsWhole text := by
  rcases exists_bytesOf_takeWhile bytes with ⟨text, text_eq, each⟩
  rcases exists_digit digit with ⟨c, c_eq, cDigit⟩
  exists c :: text
  constructor
  · rw [List.takeWhile_cons_of_pos digit, text_eq, ← List.singleton_append (x := c),
      bytesOf_append, c_eq]
    rfl
  · apply Or.inr
    constructor
    · exact ⟨List.cons_ne_nil c text, List.forall_mem_cons.mpr ⟨cDigit, each⟩⟩
    · rintro ⟨⟩
      exact notZero (List.singleton_injective (c_eq.symm.trans (bytesOf_ascii (by decide))))

theorem sound_passWhole : Sound passWhole whole.matches' := by
  intro before rest
  rw [passWhole, getElem?_front]
  cases rest with
  | nil => exact .mismatch
  | cons byte rest =>
      simp only [List.head?_cons]
      split
      · rename_i isZero
        subst isZero
        have split : '0'.toUInt8 :: rest = bytesOf ['0'] ++ rest := by
          rw [bytesOf_ascii (by decide)]
          rfl
        have passes : Passes whole.matches' before _ _ := .spelled (mem_whole.mpr (.inl rfl)) split
        simpa [bytesOf_ascii] using passes
      · rename_i notZero
        split
        · rename_i digit
          rcases exists_whole_takeWhile digit notZero with ⟨text, text_eq, isWhole⟩
          rw [digitCount_front, text_eq]
          have split : byte :: rest = bytesOf text ++ (byte :: rest).dropWhile isDigit := by
            rw [← text_eq, List.takeWhile_append_dropWhile]
          have passes : Passes whole.matches' before _ _ := .spelled (mem_whole.mpr isWhole) split
          simpa [Except.map] using passes
        · exact .mismatch

theorem sound_passFraction : Sound passFraction fraction.matches' := by
  intro before rest
  rw [passFraction, getElem?_front]
  split
  · rename_i isPoint
    obtain ⟨tail, rfl⟩ := List.head?_eq_some_iff.mp isPoint
    have passes := sound_passDigits.afterChar (c := '.') (by decide) (mem_char.mpr rfl) before tail
    exact passes.mono fun text isMatch => mem_optional.mpr (.inr isMatch)
  · exact .nothing (mem_optional.mpr (.inl rfl))

theorem sound_passSigned :
    Sound (fun bytes passed => passDigits bytes (passSign bytes passed))
      (optional (oneOf "+-".toList) * digits).matches' := by
  intro before rest
  simp only [passSign, getElem?_front]
  split
  · rename_i isSign
    rcases isSign with isPlus | isMinus
    · obtain ⟨tail, rfl⟩ := List.head?_eq_some_iff.mp isPlus
      exact sound_passDigits.afterChar (by decide) (mem_sign.mpr ⟨false, .plus⟩) before tail
    · obtain ⟨tail, rfl⟩ := List.head?_eq_some_iff.mp isMinus
      exact sound_passDigits.afterChar (by decide) (mem_sign.mpr ⟨true, .minus⟩) before tail
  · exact (sound_passDigits before rest).mono fun text isMatch =>
      Language.append_mem_mul (mem_sign.mpr ⟨false, .absent⟩) isMatch

theorem sound_passExponent : Sound passExponent exponent.matches' := by
  intro before rest
  rw [passExponent, getElem?_front]
  split
  · rename_i isLetter
    obtain ⟨c, letter, ascii, head⟩ : ∃ c, [c] ∈ (oneOf "eE".toList).matches' ∧
        c.toNat < 0x80 ∧ rest.head? = some c.toUInt8 := by
      rcases isLetter with small | capital
      · exact ⟨'e', mem_oneOf.mpr ⟨'e', by decide, rfl⟩, by decide, small⟩
      · exact ⟨'E', mem_oneOf.mpr ⟨'E', by decide, rfl⟩, by decide, capital⟩
    obtain ⟨tail, rfl⟩ := List.head?_eq_some_iff.mp head
    exact (sound_passSigned.afterChar ascii letter before tail).mono fun text isMatch =>
      mem_optional.mpr (.inr isMatch)
  · exact .nothing (mem_optional.mpr (.inl rfl))

theorem sound_passUnsigned : Sound passUnsigned (whole * (fraction * exponent)).matches' :=
  sound_passWhole.mul (sound_passFraction.mul sound_passExponent)

/-- Whatever the bytes are, a walk passes a match or stops for a mismatch. -/
theorem passes_numeral (bytes : List UInt8) : Passes numeral.matches' [] bytes (pass bytes) := by
  rw [pass, ← List.head?_eq_getElem?]
  split
  · rename_i isMinus
    obtain ⟨tail, rfl⟩ := List.head?_eq_some_iff.mp isMinus
    have minus : ['-'] ∈ (optional (char '-')).matches' :=
      mem_optional.mpr (.inr (mem_char.mpr rfl))
    exact sound_passUnsigned.afterChar (by decide) minus [] tail
  · exact (sound_passUnsigned [] bytes).mono fun text isMatch =>
      Language.append_mem_mul (mem_optional.mpr (.inl rfl)) isMatch

/-! ## What is passed whole -/

/-- In front of the given bytes, the text is passed whole. -/
def Takes (pass : List UInt8 → Nat → Except Stop Nat) (text : Text) (rest : List UInt8) : Prop :=
  ∀ before, pass (before ++ (bytesOf text ++ rest)) before.length =
    .ok (before ++ bytesOf text).length

namespace Takes

variable {pass next : List UInt8 → Nat → Except Stop Nat}

theorem append {first second : Text} (takes : Takes pass first (bytesOf second ++ rest))
    (nextTakes : Takes next second rest) :
    Takes (fun bytes passed => pass bytes passed >>= next bytes) (first ++ second) rest := by
  intro before
  have taken := nextTakes (before ++ bytesOf first)
  rw [List.append_assoc] at taken
  simp only [bytesOf_append, List.append_assoc]
  rw [takes before]
  simpa [bind, Except.bind] using taken

theorem afterChar (takes : Takes pass text rest) (ascii : c.toNat < 0x80)
    (before : List UInt8) :
    pass (before ++ (bytesOf (c :: text) ++ rest)) (before.length + 1) =
      .ok (before ++ bytesOf (c :: text)).length := by
  have taken := takes (before ++ bytesOf [c])
  simpa [bytesOf_ascii ascii, bytesOf_cons ascii, Nat.add_assoc, Nat.add_comm 1] using taken

end Takes

theorem head?_bytesOf_append (ascii : c.toNat < 0x80) :
    (bytesOf (c :: text) ++ rest).head? = some c.toUInt8 := by
  rw [bytesOf_cons ascii]
  rfl

theorem digits_front (run : ∀ c ∈ text, Text.isDigit c = true)
    (stops : ∀ byte ∈ rest.head?, isDigit byte = false) :
    (bytesOf text ++ rest).takeWhile isDigit = bytesOf text :=
  takeWhile_run_append (isDigit_of_mem_bytesOf run) stops

theorem takes_digits (run : IsDigits text) (stops : ∀ byte ∈ rest.head?, isDigit byte = false) :
    Takes passDigits text rest := by
  intro before
  have nonempty : (bytesOf text).length ≠ 0 := by
    obtain ⟨c, tail, rfl, digit, -⟩ := run.exists_cons
    simp [bytesOf_cons (ascii_of_isDigit digit)]
  rw [passDigits_front, digits_front run.2 stops, if_neg nonempty, List.length_append]

theorem takes_whole (isWhole : IsWhole text)
    (stops : ∀ byte ∈ rest.head?, isDigit byte = false) : Takes passWhole text rest := by
  intro before
  rw [passWhole, getElem?_front]
  rcases isWhole with rfl | ⟨run, notZero⟩
  · simp [bytesOf_ascii (c := '0') (by decide)]
  · have front := digits_front run.2 stops
    obtain ⟨c, tail, rfl, digit, -⟩ := run.exists_cons
    have notZero : c.toUInt8 ≠ '0'.toUInt8 := by
      intro isZero
      have bytes_eq : bytesOf [c] = bytesOf ['0'] := by
        rw [(bytesOf_digit digit).1, isZero, bytesOf_ascii (by decide)]
      exact notZero (congrArg List.head? (bytesOf_injective bytes_eq))
    rw [head?_bytesOf_append (ascii_of_isDigit digit), digitCount_front, front]
    simp [notZero, (bytesOf_digit digit).2, Except.map]

theorem takes_fraction {fraction : Text} (spelled : FractionText fraction text)
    (stops : ∀ byte ∈ rest.head?, isDigit byte = false ∧ byte ≠ '.'.toUInt8) :
    Takes passFraction text rest := by
  intro before
  rw [passFraction, getElem?_front]
  cases spelled with
  | absent =>
      have noPoint : rest.head? ≠ some '.'.toUInt8 := fun head => (stops _ head).2 rfl
      simp [bytesOf, noPoint]
  | digits run =>
      rw [head?_bytesOf_append (by decide), if_pos rfl]
      exact (takes_digits run fun byte head => (stops byte head).1).afterChar (by decide) before

theorem takes_signed {negative : Bool} {sign digits : Text} (signed : SignText negative sign)
    (run : IsDigits digits) :
    Takes (fun bytes passed => passDigits bytes (passSign bytes passed)) (sign ++ digits) [] := by
  have takes : Takes passDigits digits [] := takes_digits run (by simp)
  intro before
  simp only [passSign, getElem?_front]
  cases signed with
  | absent =>
      obtain ⟨c, tail, rfl, digit, -⟩ := run.exists_cons
      have noSign : ¬ (some c.toUInt8 = some '+'.toUInt8 ∨ some c.toUInt8 = some '-'.toUInt8) := by
        rintro (isPlus | isMinus)
        · exact ne_of_isDigit digit (by decide) (Option.some.inj isPlus)
        · exact ne_of_isDigit digit (by decide) (Option.some.inj isMinus)
      rw [List.nil_append, head?_bytesOf_append (ascii_of_isDigit digit), if_neg noSign]
      exact takes before
  | plus =>
      rw [List.singleton_append, head?_bytesOf_append (by decide), if_pos (.inl rfl)]
      exact takes.afterChar (by decide) before
  | minus =>
      rw [List.singleton_append, head?_bytesOf_append (by decide), if_pos (.inr rfl)]
      exact takes.afterChar (by decide) before

theorem takes_exponent {exponent : Option (Bool × Text)} (spelled : ExponentText exponent text) :
    Takes passExponent text [] := by
  intro before
  rw [passExponent, getElem?_front]
  cases spelled with
  | absent => simp [bytesOf]
  | @digits letter negative sign digits isLetter signed run =>
      have ascii : letter.toNat < 0x80 := by
        rcases isLetter with rfl | rfl <;> decide
      have isLetter : some letter.toUInt8 = some 'e'.toUInt8 ∨
          some letter.toUInt8 = some 'E'.toUInt8 := by
        rcases isLetter with rfl | rfl
        · exact .inl rfl
        · exact .inr rfl
      rw [head?_bytesOf_append ascii, if_pos isLetter]
      exact (takes_signed signed run).afterChar ascii before

/-- An exponent, present or not, prolongs neither digits nor a missing fraction. -/
theorem exponent_stops {exponent : Option (Bool × Text)} (spelled : ExponentText exponent text) :
    ∀ byte ∈ (bytesOf text).head?, isDigit byte = false ∧ byte ≠ '.'.toUInt8 := by
  cases spelled with
  | absent => simp [bytesOf]
  | digits isLetter signed run =>
      intro byte head
      rcases isLetter with rfl | rfl
      all_goals
        rw [bytesOf_cons (by decide)] at head
        cases head
        decide

theorem fraction_stops {fraction : Text} (spelled : FractionText fraction text)
    (stops : ∀ byte ∈ rest.head?, isDigit byte = false ∧ byte ≠ '.'.toUInt8) :
    ∀ byte ∈ (bytesOf text ++ rest).head?, isDigit byte = false := by
  cases spelled with
  | absent => exact fun byte head => (stops byte head).1
  | digits run =>
      intro byte head
      rw [bytesOf_cons (by decide)] at head
      cases head
      decide

theorem takes_unsigned {whole fraction fractionText exponentText : Text}
    {exponent : Option (Bool × Text)} (isWhole : IsWhole whole)
    (fractionSpelled : FractionText fraction fractionText)
    (exponentSpelled : ExponentText exponent exponentText) :
    Takes passUnsigned (whole ++ (fractionText ++ exponentText)) [] := by
  have afterFraction := exponent_stops exponentSpelled
  have afterWhole := fraction_stops fractionSpelled afterFraction
  apply (takes_whole isWhole _).append
  · apply (takes_fraction fractionSpelled _).append (takes_exponent exponentSpelled)
    simpa using afterFraction
  · simpa using afterWhole

theorem pass_minus (takes : Takes passUnsigned text []) :
    pass (bytesOf ('-' :: text)) = .ok (bytesOf ('-' :: text)).length := by
  have passed := takes.afterChar (c := '-') (by decide) []
  rw [List.append_nil] at passed
  rw [pass, ← List.head?_eq_getElem?, bytesOf_cons (by decide), List.head?_cons, if_pos rfl,
    ← bytesOf_cons (by decide)]
  exact passed

theorem pass_digit (takes : Takes passUnsigned (c :: text) []) (digit : Text.isDigit c = true) :
    pass (bytesOf (c :: text)) = .ok (bytesOf (c :: text)).length := by
  have passed := takes []
  have noMinus : some c.toUInt8 ≠ some '-'.toUInt8 := by
    simpa using ne_of_isDigit digit (by decide : isDigit '-'.toUInt8 = false)
  rw [List.append_nil] at passed
  rw [pass, ← List.head?_eq_getElem?, bytesOf_cons (ascii_of_isDigit digit), List.head?_cons,
    if_neg noMinus, ← bytesOf_cons (ascii_of_isDigit digit)]
  exact passed

/-- The spelling of a numeral is passed to its end. -/
theorem pass_numeral {numeral : Numeral} (spelled : NumeralText numeral text) :
    pass (bytesOf text) = .ok (bytesOf text).length := by
  cases spelled with
  | @parts negative whole _ _ _ _ isWhole fractionSpelled exponentSpelled =>
      have takes := takes_unsigned isWhole fractionSpelled exponentSpelled
      cases negative with
      | true => exact pass_minus takes
      | false =>
          obtain ⟨c, tail, rfl, digit⟩ := isWhole.exists_cons
          exact pass_digit takes digit

end NumeralWalk

/-- The whole token is a numeral. -/
theorem isNumeral_iff {token : Text} :
    Document.isNumeral token = true ↔ ∃ numeral, NumeralText numeral token := by
  rw [← NumeralPattern.mem_numeral]
  constructor
  · intro isNumeral
    have passes := NumeralWalk.passes_numeral (NumeralWalk.bytesOf token)
    simp only [Document.isNumeral] at isNumeral
    generalize NumeralWalk.pass (NumeralWalk.bytesOf token) = result at isNumeral passes
    cases passes with
    | mismatch => contradiction
    | @spelled text behind isMatch split =>
        have length_eq := beq_iff_eq.mp isNumeral
        rw [List.nil_append, split, List.length_append] at length_eq
        have noneBehind : behind = [] := List.length_eq_zero_iff.mp (by omega)
        rw [noneBehind, List.append_nil] at split
        rwa [NumeralWalk.bytesOf_injective split]
  · intro isMatch
    obtain ⟨numeral, spelled⟩ := NumeralPattern.mem_numeral.mp isMatch
    simp [Document.isNumeral, NumeralWalk.pass_numeral spelled]

/-- A token counts as a numeral exactly if all of it matches the regular expression. No bytes
whatsoever make a walk cut off some beyond their end. -/
theorem isNumeral_iff_matches_within_bounds (token : Text) :
    (Document.isNumeral token = true ↔ token ∈ NumeralPattern.numeral.matches') ∧
      ∀ bytes, NumeralWalk.pass bytes ≠ .error .outOfBounds := by
  constructor
  · rw [isNumeral_iff, NumeralPattern.mem_numeral]
  · intro bytes
    exact (NumeralWalk.passes_numeral bytes).ne_outOfBounds

end LogIntake.Json
