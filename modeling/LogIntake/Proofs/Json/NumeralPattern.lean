import Mathlib.Computability.RegularExpressions
import LogIntake.Proofs.Json.Scanning

/-!
# Numerals as a regular language

The spellings of numerals are the matches of a regular expression. Each of its parts matches
the spellings of one part of a numeral.
-/

namespace LogIntake.Json.NumeralPattern

open RegularExpression (char)

/-! ## The expression -/

/-- One of several characters. -/
def oneOf (chars : Text) : RegularExpression Char :=
  (chars.map char).sum

/-- A match or nothing. -/
def optional (pattern : RegularExpression Char) : RegularExpression Char :=
  1 + pattern

def digit : RegularExpression Char :=
  oneOf "0123456789".toList

/-- At least one digit. -/
def digits : RegularExpression Char :=
  digit * digit.star

def whole : RegularExpression Char :=
  char '0' + oneOf "123456789".toList * digit.star

def fraction : RegularExpression Char :=
  optional (char '.' * digits)

def exponent : RegularExpression Char :=
  optional (oneOf "eE".toList * (optional (oneOf "+-".toList) * digits))

/-- The spellings of numerals: `-?(0|[1-9][0-9]*)(\.[0-9]+)?([eE][+-]?[0-9]+)?`. -/
def numeral : RegularExpression Char :=
  optional (char '-') * (whole * (fraction * exponent))

/-! ## Its matches -/

variable {text : Text}

theorem mem_char {c : Char} : text ∈ (char c).matches' ↔ text = [c] :=
  Iff.rfl

theorem mem_oneOf {chars : Text} : text ∈ (oneOf chars).matches' ↔ ∃ c ∈ chars, text = [c] := by
  induction chars with
  | nil => exact iff_of_false (Language.notMem_zero text) (by simp)
  | cons c chars ih =>
      change text ∈ (char c + oneOf chars).matches' ↔ _
      rw [RegularExpression.matches'_add, Language.mem_add, ih, mem_char]
      simp

theorem mem_optional {pattern : RegularExpression Char} :
    text ∈ (optional pattern).matches' ↔ text = [] ∨ text ∈ pattern.matches' := by
  rw [optional, RegularExpression.matches'_add, Language.mem_add,
    RegularExpression.matches'_epsilon, Language.mem_one]

theorem mem_digitChars {c : Char} : c ∈ "0123456789".toList ↔ Text.isDigit c = true := by
  constructor
  · exact List.all_eq_true.mp (rfl : "0123456789".toList.all Text.isDigit = true) c
  · intro isDigit
    rcases Text.isDigit_iff.mp isDigit with ⟨above, below⟩
    have listed : ∀ n < 10, Char.ofNat (48 + n) ∈ "0123456789".toList := by decide
    have member := listed (c.toNat - 48) (by omega)
    rwa [Nat.add_sub_cancel' above, Char.ofNat_toNat] at member

/-- The digits but zero. -/
theorem mem_nonzeroChars {c : Char} :
    c ∈ "123456789".toList ↔ Text.isDigit c = true ∧ c ≠ '0' := by
  have digits_eq : "0123456789".toList = '0' :: "123456789".toList := rfl
  rw [← mem_digitChars, digits_eq, List.mem_cons]
  constructor
  · intro member
    constructor
    · exact .inr member
    · rintro rfl
      exact absurd member (by decide)
  · rintro ⟨isZero | member, notZero⟩
    · contradiction
    · exact member

theorem mem_digit : text ∈ digit.matches' ↔ ∃ c, Text.isDigit c = true ∧ text = [c] := by
  simp only [digit, mem_oneOf, mem_digitChars]

theorem mem_star_digit : text ∈ digit.star.matches' ↔ ∀ c ∈ text, Text.isDigit c = true := by
  rw [RegularExpression.matches'_star, Language.mem_kstar]
  constructor
  · rintro ⟨parts, rfl, each⟩ c member
    obtain ⟨part, partMember, member⟩ := List.mem_flatten.mp member
    obtain ⟨d, isDigit, rfl⟩ := mem_digit.mp (each part partMember)
    cases List.mem_singleton.mp member
    exact isDigit
  · intro each
    exists text.map fun c => [c]
    constructor
    · induction text with
      | nil => rfl
      | cons c text ih => simpa using ih fun d member => each d (List.mem_cons_of_mem c member)
    · intro part partMember
      obtain ⟨c, member, rfl⟩ := List.mem_map.mp partMember
      exact mem_digit.mpr ⟨c, each c member, rfl⟩

theorem mem_digits : text ∈ digits.matches' ↔ IsDigits text := by
  rw [digits, RegularExpression.matches'_mul, Language.mem_mul]
  constructor
  · rintro ⟨first, firstMatches, rest, restMatches, rfl⟩
    obtain ⟨c, isDigit, rfl⟩ := mem_digit.mp firstMatches
    constructor
    · exact List.cons_ne_nil c rest
    · exact List.forall_mem_cons.mpr ⟨isDigit, mem_star_digit.mp restMatches⟩
  · intro run
    obtain ⟨c, rest, rfl, isDigit, each⟩ := run.exists_cons
    exact ⟨[c], mem_digit.mpr ⟨c, isDigit, rfl⟩, rest, mem_star_digit.mpr each, rfl⟩

theorem mem_whole : text ∈ whole.matches' ↔ IsWhole text := by
  rw [whole, RegularExpression.matches'_add, Language.mem_add, mem_char,
    RegularExpression.matches'_mul, Language.mem_mul]
  apply or_congr_right
  constructor
  · rintro ⟨first, firstMatches, rest, restMatches, rfl⟩
    obtain ⟨c, member, rfl⟩ := mem_oneOf.mp firstMatches
    rcases mem_nonzeroChars.mp member with ⟨isDigit, notZero⟩
    constructor
    · exact ⟨List.cons_ne_nil c rest,
        List.forall_mem_cons.mpr ⟨isDigit, mem_star_digit.mp restMatches⟩⟩
    · simpa using notZero
  · rintro ⟨run, notZero⟩
    obtain ⟨c, rest, rfl, isDigit, each⟩ := run.exists_cons
    have member := mem_nonzeroChars.mpr ⟨isDigit, by simpa using notZero⟩
    exact ⟨[c], mem_oneOf.mpr ⟨c, member, rfl⟩, rest, mem_star_digit.mpr each, rfl⟩

theorem mem_fraction : text ∈ fraction.matches' ↔ ∃ digits, FractionText digits text := by
  rw [fraction, mem_optional, RegularExpression.matches'_mul, Language.mem_mul]
  constructor
  · rintro (rfl | ⟨point, rfl, digits, digitsMatch, rfl⟩)
    · exact ⟨[], .absent⟩
    · exact ⟨digits, .digits (mem_digits.mp digitsMatch)⟩
  · rintro ⟨digits, spelled⟩
    cases spelled with
    | absent => exact .inl rfl
    | digits run => exact .inr ⟨['.'], rfl, digits, mem_digits.mpr run, rfl⟩

theorem mem_sign :
    text ∈ (optional (oneOf "+-".toList)).matches' ↔ ∃ negative, SignText negative text := by
  rw [mem_optional, mem_oneOf]
  constructor
  · rintro (rfl | ⟨c, member, rfl⟩)
    · exact ⟨false, .absent⟩
    · have isSign : c = '+' ∨ c = '-' := by simpa using member
      rcases isSign with rfl | rfl
      · exact ⟨false, .plus⟩
      · exact ⟨true, .minus⟩
  · rintro ⟨negative, signed⟩
    cases signed with
    | absent => exact .inl rfl
    | plus => exact .inr ⟨'+', by decide, rfl⟩
    | minus => exact .inr ⟨'-', by decide, rfl⟩

theorem mem_exponent : text ∈ exponent.matches' ↔ ∃ exponent, ExponentText exponent text := by
  rw [exponent, mem_optional, RegularExpression.matches'_mul, Language.mem_mul]
  simp only [RegularExpression.matches'_mul, Language.mem_mul, mem_sign, mem_digits, mem_oneOf]
  constructor
  · rintro (rfl | ⟨_, ⟨letter, member, rfl⟩, _, ⟨sign, ⟨negative, signed⟩, digits, run, rfl⟩, rfl⟩)
    · exact ⟨none, .absent⟩
    · exact ⟨some (negative, digits), .digits (by simpa using member) signed run⟩
  · rintro ⟨exponent, spelled⟩
    cases spelled with
    | absent => exact .inl rfl
    | @digits letter negative sign digits isLetter signed run =>
        exact .inr ⟨[letter], ⟨letter, by simpa using isLetter, rfl⟩, sign ++ digits,
          ⟨sign, ⟨negative, signed⟩, digits, run, rfl⟩, rfl⟩

/-- The matches are the spellings of numerals. -/
theorem mem_numeral : text ∈ numeral.matches' ↔ ∃ numeral, NumeralText numeral text := by
  rw [numeral, RegularExpression.matches'_mul, Language.mem_mul]
  simp only [RegularExpression.matches'_mul, Language.mem_mul, mem_optional, mem_char, mem_whole,
    mem_fraction, mem_exponent]
  constructor
  · rintro ⟨minus, isMinus, _, ⟨whole, isWhole, _, ⟨fractionText, ⟨fraction, fractionSpelled⟩,
      exponentText, ⟨exponent, exponentSpelled⟩, rfl⟩, rfl⟩, rfl⟩
    rcases isMinus with rfl | rfl
    · exact ⟨⟨false, whole, fraction, exponent⟩, .parts isWhole fractionSpelled exponentSpelled⟩
    · exact ⟨⟨true, whole, fraction, exponent⟩, .parts isWhole fractionSpelled exponentSpelled⟩
  · rintro ⟨_, @⟨negative, whole, fraction, fractionText, exponentText, exponent, isWhole,
      fractionSpelled, exponentSpelled⟩⟩
    have isMinus : minusText negative = [] ∨ minusText negative = ['-'] := by
      cases negative
      · exact .inl rfl
      · exact .inr rfl
    exact ⟨_, isMinus, _, ⟨whole, isWhole, _, ⟨fractionText, ⟨fraction, fractionSpelled⟩,
      exponentText, ⟨exponent, exponentSpelled⟩, rfl⟩, rfl⟩, rfl⟩

end LogIntake.Json.NumeralPattern
