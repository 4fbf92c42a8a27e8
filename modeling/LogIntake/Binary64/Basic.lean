import LogIntake.Text.Digits

/-!
# Doubles

A double is its 64 bits: a sign, eleven bits of exponent and 52 bits of
fraction. A finite double stands for `± significand * 2 ^ exponent`, and every
operation below is exact arithmetic on naturals followed by one rounding to
the nearest double, ties to the even significand.

Conversions to integers round as their names say and then go to the nearest
end of the range of 64 bits when the result lies outside.
-/

namespace LogIntake

/-- A double, by its bits, the sign first. -/
structure Binary64 where
  bits : UInt64
deriving DecidableEq, Repr

namespace Binary64

/-! ## Parts -/

/-- Whether the sign bit is set. -/
def isNegative (x : Binary64) : Bool :=
  Nat.pow 2 63 ≤ x.bits.toNat

/-- The bits after the sign; they order doubles of one sign by size. -/
def magnitude (x : Binary64) : Nat :=
  x.bits.toNat % Nat.pow 2 63

/-- The eleven exponent bits. -/
def exponentField (x : Binary64) : Nat :=
  x.magnitude / Nat.pow 2 52

/-- The magnitude of infinity; every finite double lies below. -/
def infinityMagnitude : Nat :=
  2047 * Nat.pow 2 52

/-- Neither infinite nor a NaN. -/
def isFinite (x : Binary64) : Bool :=
  x.magnitude < infinityMagnitude

/-- Not a number. -/
def isNaN (x : Binary64) : Bool :=
  infinityMagnitude < x.magnitude

/-- Positive or negative zero. -/
def isZero (x : Binary64) : Bool :=
  x.magnitude == 0

/-- The integer factor of a finite double. -/
def significand (x : Binary64) : Nat :=
  if x.exponentField = 0 then x.magnitude else x.magnitude % Nat.pow 2 52 + Nat.pow 2 52

/-- The power of two that scales the significand of a finite double. -/
def exponent (x : Binary64) : Int :=
  max x.exponentField 1 - 1075

/-- The double with the given sign and magnitude. -/
def ofMagnitude (negative : Bool) (magnitude : Nat) : Binary64 :=
  ⟨UInt64.ofNat (if negative then Nat.pow 2 63 + magnitude else magnitude)⟩

/-- The zero of the given sign. -/
def zero (negative : Bool) : Binary64 :=
  ofMagnitude negative 0

/-- The infinity of the given sign. -/
def infinity (negative : Bool) : Binary64 :=
  ofMagnitude negative infinityMagnitude

/-- The quiet NaN. -/
def nan : Binary64 :=
  ofMagnitude false (infinityMagnitude + Nat.pow 2 51)

/-- The same double with the opposite sign. -/
def negate (x : Binary64) : Binary64 :=
  ofMagnitude (!x.isNegative) x.magnitude

/-! ## Rounding to the nearest double -/

/-- The quotient to the nearest natural, a half going to the even one. -/
def roundHalfEven (num den : Nat) : Nat :=
  let quotient := num / den
  let rest := 2 * (num % den)
  if den < rest ∨ (rest = den ∧ quotient % 2 = 1) then quotient + 1 else quotient

/-- Numerator and denominator of `num / den / 2 ^ shift`. -/
def scaleTwo (num den : Nat) (shift : Int) : Nat × Nat :=
  if 0 ≤ shift then (num, den * Nat.pow 2 shift.toNat) else (num * Nat.pow 2 (-shift).toNat, den)

/-- The greatest power of two not above the positive ratio `num / den`. -/
def floorLog2 (num den : Nat) : Int :=
  let estimate : Int := (num.log2 : Int) - den.log2
  let (n, d) := scaleTwo num den estimate
  if d ≤ n then estimate else estimate - 1

/-- The double nearest to `num / den`, ties to even; a ratio beyond the finite
doubles gives infinity. A significand that rounds up to `2 ^ 53` carries into
the exponent field by itself. -/
def nearest (negative : Bool) (num den : Nat) : Binary64 :=
  if num = 0 then zero negative
  else
    let shift : Int := max (floorLog2 num den - 52) (-1074)
    let (n, d) := scaleTwo num den shift
    ofMagnitude negative
      (min ((shift + 1074).toNat * Nat.pow 2 52 + roundHalfEven n d) infinityMagnitude)

/-- The double nearest to an integer. -/
def ofInt (n : Int) : Binary64 :=
  nearest (n < 0) n.natAbs 1

/-- The double nearest to `± digits * 10 ^ exponent`. Exponents far outside the
range of doubles are settled without forming the power. -/
def ofDecimal (negative : Bool) (digits : Nat) (exponent : Int) : Binary64 :=
  if digits = 0 then zero negative
  else if 400 < exponent then infinity negative
  else if exponent + digits.log2 < -400 then zero negative
  else if 0 ≤ exponent then nearest negative (digits * Nat.pow 10 exponent.toNat) 1
  else nearest negative digits (Nat.pow 10 (-exponent).toNat)

/-- The product of two finite doubles. -/
def mul (x y : Binary64) : Binary64 :=
  let (n, d) := scaleTwo (x.significand * y.significand) 1 (-(x.exponent + y.exponent))
  nearest (x.isNegative != y.isNegative) n d

/-- The quotient of a finite double by a finite double other than zero. -/
def div (x y : Binary64) : Binary64 :=
  let (n, d) := scaleTwo x.significand y.significand (y.exponent - x.exponent)
  nearest (x.isNegative != y.isNegative) n d

/-! ## Conversion to integers -/

/-- An integer outside 64 bits goes to the nearer end of the range. -/
def saturate (n : Int) : Int :=
  max Text.minInt64 (min Text.maxInt64 n)

/-- Puts the sign of a double on a magnitude. -/
def withSign (x : Binary64) (n : Nat) : Int :=
  if x.isNegative then -(n : Int) else n

/-- A finite double without its fraction. -/
def truncate (x : Binary64) : Int :=
  let (n, d) := scaleTwo x.significand 1 (-x.exponent)
  x.withSign (n / d)

/-- A finite double to the nearest integer, a half going away from zero. -/
def roundHalfAway (x : Binary64) : Int :=
  let (n, d) := scaleTwo x.significand 1 (-x.exponent)
  x.withSign ((2 * n + d) / (2 * d))

/-- The 64-bit integer that `round` gives for a finite double. Infinities go to
the ends of the range, a NaN to zero. -/
def toInt64With (round : Binary64 → Int) (x : Binary64) : Int :=
  if x.isNaN then 0
  else if x.isFinite then saturate (round x)
  else if x.isNegative then Text.minInt64
  else Text.maxInt64

/-- The 64-bit integer without the fraction. -/
def toInt64 (x : Binary64) : Int :=
  toInt64With truncate x

/-- Greater than zero; never so for a NaN. -/
def isPositive (x : Binary64) : Bool :=
  !x.isNegative && !x.isZero && !x.isNaN

end Binary64

end LogIntake
