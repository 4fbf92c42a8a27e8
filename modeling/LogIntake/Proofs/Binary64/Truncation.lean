import Mathlib.Algebra.Order.Field.Power
import Mathlib.Data.Rat.Floor
import LogIntake.Binary64.Basic

/-!
# Truncation

A finite double stands for a rational number, its significand scaled by a power of two.
Truncation takes this number to the next integer towards zero.
-/

namespace LogIntake.Binary64

/-- The rational number that a finite double stands for. -/
def value (x : Binary64) : ℚ :=
  let size := x.significand * (2 : ℚ) ^ x.exponent
  if x.isNegative then -size else size

/-- The next integer towards zero. -/
def towardsZero (q : ℚ) : Int :=
  if q < 0 then ⌈q⌉ else ⌊q⌋

theorem towardsZero_neg (q : ℚ) : towardsZero (-q) = -towardsZero q := by
  unfold towardsZero
  rcases lt_trichotomy q 0 with negative | rfl | positive
  · rw [if_pos negative, if_neg (by linarith), Int.floor_neg]
  · simp
  · rw [if_pos (by linarith), if_neg (by linarith), Int.ceil_neg]

/-- The scaled ratio, as a quotient of naturals. -/
theorem scaleTwo_eq (num den : Nat) (shift : Int) :
    ((scaleTwo num den shift).1 : ℚ) / (scaleTwo num den shift).2 = num / den / 2 ^ shift := by
  unfold scaleTwo
  split
  · rename_i upwards
    obtain ⟨n, rfl⟩ := Int.eq_ofNat_of_zero_le upwards
    simp [div_div]
  · rename_i downwards
    obtain ⟨n, rfl⟩ := Int.exists_eq_neg_ofNat (le_of_not_ge downwards)
    simp [div_mul_eq_mul_div]

/-- A double loses its fraction. -/
theorem truncate_eq (x : Binary64) : x.truncate = towardsZero x.value := by
  have size_eq := scaleTwo_eq x.significand 1 (-x.exponent)
  rw [Nat.cast_one, div_one, zpow_neg, div_inv_eq_mul] at size_eq
  have nonneg : 0 ≤ x.significand * (2 : ℚ) ^ x.exponent := by positivity
  unfold truncate value withSign
  generalize scaleTwo x.significand 1 (-x.exponent) = scaled at size_eq ⊢
  have whole_eq : towardsZero (x.significand * (2 : ℚ) ^ x.exponent) =
      (scaled.1 / scaled.2 : Nat) := by
    rw [towardsZero, if_neg (not_lt.mpr nonneg), ← size_eq, Rat.floor_natCast_div_natCast,
      Int.natCast_div]
  dsimp only
  rw [← whole_eq]
  split
  · rw [towardsZero_neg]
  · rfl

/-- The integer of 64 bits that a finite double gives. -/
theorem toInt64_eq {x : Binary64} (finite : x.isFinite = true) :
    x.toInt64 = saturate (towardsZero x.value) := by
  have number : x.isNaN = false := by
    unfold isFinite at finite
    unfold isNaN
    rw [decide_eq_true_eq] at finite
    exact decide_eq_false (Nat.lt_asymm finite)
  simp [toInt64, toInt64With, number, finite, truncate_eq]

end LogIntake.Binary64
