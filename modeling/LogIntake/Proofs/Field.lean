import LogIntake.Field
import LogIntake.Proofs.Trim

/-!
# Names and values of fields

No character of a field name is a blank, so field names are trimmed. A value is
stored as it is unless it is a text with blanks at its ends.
-/

namespace LogIntake

/-! ## Names -/

/-- The code points of the blank characters. -/
def Text.blankCodes : List Nat :=
  [0x09, 0x0A, 0x0B, 0x0C, 0x0D, 0x20, 0x85, 0xA0, 0x1680, 0x2000, 0x2001, 0x2002, 0x2003,
    0x2004, 0x2005, 0x2006, 0x2007, 0x2008, 0x2009, 0x200A, 0x2028, 0x2029, 0x202F, 0x205F,
    0x3000]

theorem Text.toNat_mem_blankCodes {c : Char} (blank : isBlankChar c = true) :
    c.toNat ∈ blankCodes := by
  simp only [isBlankChar, Bool.or_eq_true, Bool.and_eq_true, decide_eq_true_eq,
    beq_iff_eq] at blank
  simp only [blankCodes, List.mem_cons, List.not_mem_nil, or_false]
  omega

/-- A class of characters that has none of the blank ones. -/
theorem Text.isBlankChar_of_avoids {p : Char → Bool} {c : Char}
    (avoids : (blankCodes.all fun n => !p (Char.ofNat n)) = true) (member : p c = true) :
    isBlankChar c = false := by
  cases blank : isBlankChar c with
  | false => rfl
  | true =>
      have outside := List.all_eq_true.mp avoids _ (toNat_mem_blankCodes blank)
      rw [Char.ofNat_toNat, member] at outside
      exact absurd outside Bool.false_ne_true

theorem Text.isBlankChar_of_isDigit {c : Char} (digit : isDigit c = true) :
    isBlankChar c = false :=
  isBlankChar_of_avoids (p := isDigit) (by decide) digit

namespace Field

theorem isBlankChar_of_isNameChar {c : Char} (nameChar : isNameChar c = true) :
    Text.isBlankChar c = false :=
  Text.isBlankChar_of_avoids (p := isNameChar) (by decide +kernel) nameChar

/-- The characters of a field name, of which there is at least one. -/
theorem isName_iff {name : Text} :
    isName name = true ↔ name ≠ [] ∧ ∀ c ∈ name, isNameChar c = true := by
  simp [isName]

theorem trimmed_of_isName {name : Text} (named : isName name = true) : Text.Trimmed name := by
  rcases isName_iff.mp named with ⟨-, chars⟩
  constructor
  · intro c head
    exact isBlankChar_of_isNameChar (chars c (List.mem_of_mem_head? head))
  · intro c last
    exact isBlankChar_of_isNameChar (chars c (List.mem_of_mem_getLast? last))

/-! ## Values -/

/-- A text that is stored as it is: not empty and trimmed. -/
def IsPlain (text : Text) : Prop :=
  text ≠ [] ∧ Text.Trimmed text

theorem IsPlain.isBlank_eq {text : Text} (plain : IsPlain text) : text.isBlank = false := by
  rcases plain with ⟨nonempty, starts, -⟩
  cases text with
  | nil => contradiction
  | cons c text => simp [Text.isBlank, starts c rfl]

theorem isPlain_trim {text : Text} (filled : text.isBlank = false) : IsPlain text.trim :=
  ⟨Text.trim_ne_nil filled, Text.trimmed_trim text⟩

theorem IsPlain.normalized?_eq {text : Text} (plain : IsPlain text) :
    (Value.text text).normalized? = some (.text text) := by
  simp [Value.normalized?, plain.isBlank_eq, plain.2.trim_eq]

/-- Nothing but a blank text is refused for its value. -/
theorem Value.normalized?_eq_none_iff {value : Value} :
    value.normalized? = none ↔ ∃ text, value = .text text ∧ text.isBlank = true := by
  cases value with
  | text text => simp [normalized?]
  | integer n => simp [normalized?]
  | double x => simp [normalized?]

end Field

end LogIntake
