import LogIntake.Json.Printer
import LogIntake.Proofs.Field

/-!
# Texts without blanks

Numbers are written without blanks, and something is always written for them. So the
text of a number is stored as it is, and a value that is stored never reads as a
blank text.
-/

namespace LogIntake

namespace Text

/-- A text without a blank. -/
def Blankless (text : Text) : Prop :=
  ∀ c ∈ text, isBlankChar c = false

instance (text : Text) : Decidable (Blankless text) :=
  List.decidableBAll (isBlankChar · = false) text

/-- A text of at least one character, none of which is a blank. -/
def Unbroken (text : Text) : Prop :=
  text ≠ [] ∧ Blankless text

instance (text : Text) : Decidable (Unbroken text) :=
  inferInstanceAs (Decidable (text ≠ [] ∧ Blankless text))

variable {first second text : Text}

theorem blankless_append : Blankless (first ++ second) ↔ Blankless first ∧ Blankless second :=
  List.forall_mem_append

theorem blankless_cons {c : Char} :
    Blankless (c :: text) ↔ isBlankChar c = false ∧ Blankless text :=
  List.forall_mem_cons

theorem Blankless.take (blankless : Blankless text) (count : Nat) : Blankless (text.take count) :=
  fun c member => blankless c (List.mem_of_mem_take member)

theorem Blankless.drop (blankless : Blankless text) (count : Nat) : Blankless (text.drop count) :=
  fun c member => blankless c (List.mem_of_mem_drop member)

theorem blankless_replicate_zero (count : Nat) : Blankless (List.replicate count '0') := by
  intro c member
  rw [List.eq_of_mem_replicate member]
  rfl

theorem Unbroken.append (unbroken : Unbroken text) (blankless : Blankless second) :
    Unbroken (text ++ second) :=
  ⟨by simp [unbroken.1], blankless_append.mpr ⟨unbroken.2, blankless⟩⟩

theorem Blankless.append (blankless : Blankless first) (unbroken : Unbroken text) :
    Unbroken (first ++ text) :=
  ⟨by simp [unbroken.1], blankless_append.mpr ⟨blankless, unbroken.2⟩⟩

/-- Unbroken texts are stored as they are. -/
theorem Unbroken.isPlain (unbroken : Unbroken text) : Field.IsPlain text := by
  refine ⟨unbroken.1, ?_, ?_⟩
  · exact fun c head => unbroken.2 c (List.mem_of_mem_head? head)
  · exact fun c last => unbroken.2 c (List.mem_of_mem_getLast? last)

/-- Blanks around a text without blanks are all that trimming takes off. -/
theorem Unbroken.trim_between {before after : Text} (unbroken : Unbroken text)
    (blankBefore : before.isBlank = true) (blankAfter : after.isBlank = true) :
    (before ++ (text ++ after)).trim = text := by
  obtain ⟨-, starts, ends⟩ := unbroken.isPlain
  have start_eq : (text ++ after).trimStart = text ++ after := by
    apply trimStart_eq_self
    cases text with
    | nil => exact absurd rfl unbroken.1
    | cons c rest => exact starts
  rw [trim, trimStart_append_of_isBlank blankBefore, start_eq,
    trimEnd_append_of_isBlank blankAfter, trimEnd_eq_self ends]

/-! ## Whole numbers -/

theorem unbroken_ofNat (n : Nat) : Unbroken (ofNat n) := by
  constructor
  · exact Nat.toDigits_ne_nil
  · intro c member
    exact isBlankChar_of_isDigit (Nat.isDigit_of_mem_toDigits (by decide) (by decide) member)

theorem unbroken_ofInt (n : Int) : Unbroken (ofInt n) := by
  cases n with
  | ofNat n => exact unbroken_ofNat n
  | negSucc n => exact ⟨nofun, blankless_cons.mpr ⟨rfl, (unbroken_ofNat (n + 1)).2⟩⟩

end Text

/-! ## Doubles -/

namespace Binary64

open Text (Blankless Unbroken)

variable {wholeSuffix digits : Text}

theorem unbroken_positionalText (suffixBlankless : Blankless wholeSuffix)
    (digitsUnbroken : Unbroken digits) (exponent : Int) :
    Unbroken (positionalText wholeSuffix digits exponent) := by
  unfold positionalText
  dsimp only
  split
  · refine Blankless.append ?_ digitsUnbroken
    exact Text.blankless_append.mpr ⟨by decide, Text.blankless_replicate_zero _⟩
  · split
    · exact (digitsUnbroken.append (Text.blankless_replicate_zero _)).append suffixBlankless
    · have point : Unbroken ['.'] := by decide
      exact ((digitsUnbroken.2.take _).append point).append (digitsUnbroken.2.drop _)

theorem unbroken_scientificText (digitsUnbroken : Unbroken digits) (exponent : Int) :
    Unbroken (scientificText digits exponent) := by
  unfold scientificText
  refine Blankless.append (Text.blankless_append.mpr ⟨?_, ?_⟩) (Text.unbroken_ofNat _)
  · split
    · have parts := digitsUnbroken.2
      simp only [Text.blankless_cons] at parts ⊢
      exact ⟨parts.1, rfl, parts.2⟩
    · exact digitsUnbroken.2
  · split <;> decide

/-- Whatever the layout, a double is written without blanks. -/
theorem unbroken_write {layout : Layout} (suffixBlankless : Blankless layout.wholeSuffix)
    (x : Binary64) : Unbroken (write layout x) := by
  have signBlankless : Blankless (if x.isNegative then ['-'] else []) := by
    split <;> decide
  unfold write
  dsimp only
  split
  · have zero : Unbroken ['0'] := by decide
    exact (signBlankless.append zero).append suffixBlankless
  · refine signBlankless.append ?_
    split
    · exact unbroken_positionalText suffixBlankless (Text.unbroken_ofNat _) _
    · exact unbroken_scientificText (Text.unbroken_ofNat _) _

theorem unbroken_toText (x : Binary64) : Unbroken x.toText := by
  unfold toText
  split
  · decide
  split
  · exact unbroken_write (by decide) x
  split <;> decide

end Binary64

/-! ## Numbers and stored values -/

theorem Json.Number.unbroken_toText (n : Json.Number) : Text.Unbroken n.toText := by
  cases n with
  | integer n => exact Text.unbroken_ofInt n
  | double x =>
      cases finite : x.isFinite with
      | true =>
          have suffixBlankless : Text.Blankless Json.doubleLayout.wholeSuffix := by decide
          simpa [Json.Number.toText, finite] using Binary64.unbroken_write suffixBlankless x
      | false =>
          have null : Text.Unbroken "null".toList := by decide
          simpa [Json.Number.toText, finite] using null

namespace Field

/-- A value that is stored reads as a text that is not blank. -/
theorem Value.isPlain_toText {value stored : Value} (normalized : value.normalized? = some stored) :
    IsPlain stored.toText := by
  cases value with
  | text text =>
      cases blank : text.isBlank with
      | true => simp [normalized?, blank] at normalized
      | false =>
          simp only [normalized?, blank, Bool.false_eq_true, if_false, Option.some.injEq]
            at normalized
          rw [← normalized]
          exact isPlain_trim blank
  | integer n =>
      cases normalized
      exact (Text.unbroken_ofInt n).isPlain
  | double x =>
      cases normalized
      exact x.unbroken_toText.isPlain

end Field

end LogIntake
