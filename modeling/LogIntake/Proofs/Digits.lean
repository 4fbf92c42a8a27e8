import Mathlib.Algebra.Group.Nat.Defs
import Mathlib.Data.List.Induction
import LogIntake.Proofs.Json.Printing

/-!
# Numerals

A run of digits is the decimal notation of its value behind zeros. An unsigned numeral
is such a run, or one behind a plus sign. A signed numeral may have a minus sign instead.
-/

namespace LogIntake.Text

/-- A digit is the notation of its value. -/
theorem ofNat_digitValue {c : Char} (digit : isDigit c = true) :
    digitValue c < 10 ∧ ofNat (digitValue c) = [c] := by
  have code := isDigit_iff.mp digit
  have value_eq : digitValue c = c.toNat - 48 := rfl
  have each : ∀ n < 10, ofNat n = [Char.ofNat (48 + n)] := by decide
  have below : digitValue c < 10 := by omega
  refine ⟨below, ?_⟩
  rw [each _ below, show 48 + digitValue c = c.toNat by omega, Char.ofNat_toNat]

theorem number_concat (front : Text) (c : Char) :
    number (front ++ [c]) = 10 * number front + digitValue c := by
  simp [number, numberFrom]

/-- A run of digits is the notation of its value, behind zeros. -/
theorem exists_zeros {digits : Text} (isDigits : Json.IsDigits digits) :
    ∃ zeros, digits = List.replicate zeros '0' ++ ofNat (number digits) := by
  rcases isDigits with ⟨nonempty, each⟩
  induction digits using List.reverseRecOn with
  | nil => contradiction
  | append_singleton front c ih =>
      obtain ⟨below, notation_eq⟩ := ofNat_digitValue (each c (by simp))
      rw [number_concat]
      by_cases none : front = []
      · refine ⟨0, ?_⟩
        rw [none, show number [] = 0 from rfl, Nat.mul_zero, Nat.zero_add, notation_eq]
        rfl
      · obtain ⟨zeros, front_eq⟩ := ih none fun d member => each d (by simp [member])
        cases value_eq : number front with
        | zero =>
            -- the front is all zeros, the last of which is its own notation
            rw [value_eq] at front_eq
            refine ⟨zeros + 1, ?_⟩
            rw [Nat.mul_zero, Nat.zero_add, notation_eq, List.replicate_succ']
            exact congrArg (· ++ [c]) front_eq
        | succ n =>
            rw [value_eq] at front_eq
            refine ⟨zeros, ?_⟩
            rw [ofNat, ← Nat.toDigits_append_toDigits (by decide) (Nat.succ_pos n) below,
              show Nat.toDigits 10 (digitValue c) = [c] from notation_eq, ← List.append_assoc]
            exact congrArg (· ++ [c]) front_eq

theorem numberFrom_zeros (zeros : Nat) (digits : Text) :
    numberFrom 0 (List.replicate zeros '0' ++ digits) = numberFrom 0 digits := by
  induction zeros with
  | zero => rfl
  | succ zeros ih => exact ih

/-- A decimal notation of a number, which may have zeros in front. -/
def IsDecimal (n : Nat) (digits : Text) : Prop :=
  ∃ zeros, digits = List.replicate zeros '0' ++ ofNat n

theorem isDigits_iff {digits : Text} :
    (!digits.isEmpty && digits.all isDigit) = true ↔ Json.IsDigits digits := by
  simp [Json.IsDigits]

theorem IsDecimal.isDigits {n : Nat} {digits : Text} (decimal : IsDecimal n digits) :
    Json.IsDigits digits := by
  obtain ⟨zeros, rfl⟩ := decimal
  obtain ⟨nonempty, each⟩ := Json.isDigits_ofNat n
  refine ⟨List.append_ne_nil_of_right_ne_nil _ nonempty, fun c member => ?_⟩
  rcases List.mem_append.mp member with zero | digit
  · rw [List.eq_of_mem_replicate zero]
    rfl
  · exact each c digit

theorem digits?_eq_some_iff {digits : Text} {n : Nat} :
    digits? digits = some n ↔ IsDecimal n digits := by
  constructor
  · intro read
    unfold digits? at read
    split at read
    · rename_i isDigits
      cases read
      exact exists_zeros (isDigits_iff.mp isDigits)
    · contradiction
  · intro decimal
    rw [digits?, if_pos (isDigits_iff.mpr decimal.isDigits)]
    obtain ⟨zeros, rfl⟩ := decimal
    change some (numberFrom 0 _) = _
    rw [numberFrom_zeros]
    exact congrArg some (Json.number_ofNat n)

theorem not_isDecimal_cons {n : Nat} {c : Char} {digits : Text} (other : isDigit c = false) :
    ¬ IsDecimal n (c :: digits) := by
  intro decimal
  have digit := decimal.isDigits.2 c List.mem_cons_self
  rw [other] at digit
  contradiction

/-- A decimal notation, behind a plus sign or not. -/
def IsNumeral (n : Nat) (text : Text) : Prop :=
  IsDecimal n text ∨ ∃ digits, text = '+' :: digits ∧ IsDecimal n digits

theorem natural?_eq_some_iff {text : Text} {n : Nat} :
    natural? text = some n ↔ IsNumeral n text := by
  unfold natural? IsNumeral
  rw [digits?_eq_some_iff]
  cases text with
  | nil => simp [dropLeading]
  | cons c rest =>
      by_cases plus : c = '+'
      · subst plus
        simp [dropLeading, not_isDecimal_cons (c := '+') rfl]
      · simp [dropLeading, plus]

/-- A numeral of 64 bits is an unsigned numeral with a value of 64 bits. -/
theorem uint64?_eq_some_iff {text : Text} {n : Nat} :
    uint64? text = some n ↔ IsNumeral n text ∧ n < 2 ^ 64 := by
  have fits_iff : n < Nat.pow 2 64 ↔ n < 2 ^ 64 := Iff.rfl
  rw [uint64?, Option.filter_eq_some_iff, decide_eq_true_iff, natural?_eq_some_iff, fits_iff]

/-- A decimal notation, behind a sign or not. -/
inductive IsSigned : Int → Text → Prop
  | bare {n : Nat} {digits : Text} (decimal : IsDecimal n digits) : IsSigned n digits
  | plus {n : Nat} {digits : Text} (decimal : IsDecimal n digits) : IsSigned n ('+' :: digits)
  | minus {n : Nat} {digits : Text} (decimal : IsDecimal n digits) : IsSigned (-n) ('-' :: digits)

theorem integer?_eq_some_iff {text : Text} {n : Int} :
    integer? text = some n ↔ IsSigned n text := by
  constructor
  · intro read
    unfold integer? at read
    split at read
    all_goals
      obtain ⟨_, lifted, rfl⟩ := Option.map_eq_some_iff.mp read
      obtain ⟨size, size_eq, ⟨⟩⟩ := Option.bind_eq_some_iff.mp lifted
      have decimal := digits?_eq_some_iff.mp size_eq
    · exact .minus decimal
    · exact .plus decimal
    · exact .bare decimal
  · rintro (⟨decimal⟩ | ⟨decimal⟩ | ⟨decimal⟩)
    · have notMinus (rest : Text) (isMinus : text = '-' :: rest) : False :=
        not_isDecimal_cons rfl (isMinus ▸ decimal)
      have notPlus (rest : Text) (isPlus : text = '+' :: rest) : False :=
        not_isDecimal_cons rfl (isPlus ▸ decimal)
      rw [integer?.eq_3 text notMinus notPlus, digits?_eq_some_iff.mpr decimal]
      rfl
    · rw [integer?, digits?_eq_some_iff.mpr decimal]
      rfl
    · rw [integer?, digits?_eq_some_iff.mpr decimal]
      rfl

/-- A numeral of 64 bits with sign is a signed numeral with a value of 64 bits. -/
theorem int64?_eq_some_iff {text : Text} {n : Int} :
    int64? text = some n ↔ IsSigned n text ∧ minInt64 ≤ n ∧ n ≤ maxInt64 := by
  rw [int64?, Option.filter_eq_some_iff, integer?_eq_some_iff, fitsInt64, Bool.and_eq_true,
    decide_eq_true_iff, decide_eq_true_iff]

end LogIntake.Text
