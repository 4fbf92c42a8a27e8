import LogIntake.Json.Fault
import LogIntake.Json.Value

/-!
# JSON numerals

A numeral has an optional minus sign, a whole part without superfluous leading
zeros, and an optional fraction and exponent. `Numeral.scan` takes the longest
numeral from the front of a text.

A numeral without fraction and exponent denotes an integer if it fits 64 bits,
with a sign when it is negative; minus zero does not. Every other numeral
denotes a double, which is computed in double arithmetic from the leading
digits that fit 64 bits and a power of ten. That double is near the exact value
but need not be the nearest one.
-/

namespace LogIntake.Json

/-- The parts of a numeral. A missing fraction has no digits. -/
structure Numeral where
  negative : Bool
  whole : Text
  fraction : Text
  /-- The sign and the digits of the exponent. -/
  exponent : Option (Bool × Text)
deriving DecidableEq, Repr

namespace Numeral

/-! ## Scanning -/

/-- Takes the whole part. A zero stands alone. -/
def scanWhole : Text → Except Fault (Text × Text)
  | [] => .error (.before .unfinishedValue [])
  | '0' :: rest =>
    match rest with
    | c :: _ => if Text.isDigit c then .error (.next .invalidNumber rest) else .ok (['0'], rest)
    | [] => .ok (['0'], rest)
  | c :: rest =>
    if Text.isDigit c then
      .ok (c :: rest.takeWhile Text.isDigit, rest.dropWhile Text.isDigit)
    else .error ⟨.invalidNumber, c :: rest, 1⟩

/-- Takes a fraction if a point comes next; digits must follow it. -/
def scanFraction : Text → Except Fault (Text × Text)
  | '.' :: rest =>
    match rest with
    | [] => .error (.next .unfinishedValue [])
    | c :: _ =>
      if Text.isDigit c then .ok (rest.takeWhile Text.isDigit, rest.dropWhile Text.isDigit)
      else .error (.next .invalidNumber rest)
  | text => .ok ([], text)

/-- The sign of an exponent and the text after it. -/
def exponentSign : Text → Bool × Text
  | '-' :: rest => (true, rest)
  | '+' :: rest => (false, rest)
  | text => (false, text)

/-- Takes an exponent if its letter comes next; digits must follow its sign. -/
def scanExponent : Text → Except Fault (Option (Bool × Text) × Text)
  | [] => .ok (none, [])
  | c :: rest =>
    if c = 'e' ∨ c = 'E' then
      let (negative, digits) := exponentSign rest
      match digits with
      | [] => .error (.before .unfinishedValue [])
      | d :: _ =>
        if Text.isDigit d then
          .ok (some (negative, digits.takeWhile Text.isDigit), digits.dropWhile Text.isDigit)
        else .error ⟨.invalidNumber, digits, 1⟩
    else .ok (none, c :: rest)

/-- Takes an unsigned numeral, which is then given its sign. -/
def scanUnsigned (negative : Bool) (text : Text) : Except Fault (Numeral × Text) := do
  let (whole, afterWhole) ← scanWhole text
  let (fraction, afterFraction) ← scanFraction afterWhole
  let (exponent, rest) ← scanExponent afterFraction
  .ok (⟨negative, whole, fraction, exponent⟩, rest)

/-- Takes the longest numeral from the front of a text. -/
def scan : Text → Except Fault (Numeral × Text)
  | '-' :: text => scanUnsigned true text
  | text => scanUnsigned false text

/-! ## Value -/

/-- Digits are taken into a significand as long as it fits 64 bits. The rest of
the digits is returned untaken. -/
def takeDigits (significand : Nat) : Text → Nat × Text
  | [] => (significand, [])
  | c :: rest =>
    let next := 10 * significand + Text.digitValue c
    if next < Nat.pow 2 64 then takeDigits next rest else (significand, c :: rest)

/-- The exponents that are taken as they are; a greater one makes the numeral
zero or puts it out of range. -/
def greatestExponent : Nat :=
  Nat.pow 2 31 - 1

/-- The digits of an exponent from the first that makes it too great, if any. -/
def excessExponent? (exponent : Nat) : Text → Option Text
  | [] => none
  | c :: rest =>
    let next := 10 * exponent + Text.digitValue c
    if greatestExponent < next then some rest else excessExponent? next rest

/-- The double nearest to `10 ^ n`. -/
def powerOfTen (n : Nat) : Binary64 :=
  Binary64.nearest false (Nat.pow 10 n) 1

/-- The product of a double and `10 ^ exponent`, by one multiplication or
division by a power up to `10 ^ 308`. Smaller exponents are reached by dividing
by `10 ^ 308` first; after two such divisions every significand is zero. -/
def scaleTen : Nat → Binary64 → Int → Option Binary64
  | 0, x, _ => some x
  | fuel + 1, x, exponent =>
    if exponent.natAbs ≤ 308 then
      if 0 ≤ exponent then
        let product := x.mul (powerOfTen exponent.toNat)
        if product.isFinite then some product else none
      else some (x.div (powerOfTen (-exponent).toNat))
    else if x.isZero then some x
    else if 0 ≤ exponent then none
    else scaleTen fuel (x.div (powerOfTen 308)) (exponent + 308)

/-- The double with the given significand, sign and decimal exponent, unless it
is out of range. -/
def assemble (negative : Bool) (significand : Nat) (exponent : Int) : Option Binary64 :=
  (scaleTen 3 (Binary64.ofInt significand) exponent).map fun x =>
    if negative then x.negate else x

/-- The significand of the digits before and after the point, and the decimal
exponent that belongs to it. A digit before the point that does not fit counts
one more; digits after the point are taken while they fit. -/
def significand (numeral : Numeral) : Nat × Int :=
  let (whole, untaken) := takeDigits 0 numeral.whole
  let (all, ignored) := takeDigits whole numeral.fraction
  (all, (untaken.length : Int) - (numeral.fraction.length - ignored.length : Nat))

/-- The double that a numeral denotes. `rest` is the text behind the numeral,
where a number out of range is noticed; an exponent that is too great is
noticed at its digit. -/
def double (numeral : Numeral) (rest : Text) : Except Fault Binary64 :=
  let (significand, shift) := numeral.significand
  let inRange (exponent : Int) : Except Fault Binary64 :=
    match assemble numeral.negative significand exponent with
    | some x => .ok x
    | none => .error (.before .numberOutOfRange rest)
  match numeral.exponent with
  | none => inRange shift
  | some (negative, digits) =>
    match excessExponent? 0 digits with
    | none =>
      let exponent : Int := Text.number digits
      inRange (if negative then shift - exponent else shift + exponent)
    | some untaken =>
      if significand ≠ 0 ∧ !negative then
        .error (.before .numberOutOfRange (untaken ++ rest))
      else .ok (.zero numeral.negative)

/-- A whole number by its notation: neither fraction nor exponent. -/
def isWhole (numeral : Numeral) : Bool :=
  numeral.fraction.isEmpty && numeral.exponent.isNone

/-- The number that a numeral denotes. -/
def value (numeral : Numeral) (rest : Text) : Except Fault Number :=
  let n : Int := Text.number numeral.whole
  if numeral.isWhole && !numeral.negative && n < Int.pow 2 64 then .ok (.integer n)
  else if numeral.isWhole && numeral.negative && n ≤ Int.pow 2 63 && n ≠ 0 then .ok (.integer (-n))
  else (numeral.double rest).map .double

/-- Reads a number from the front of a text. -/
def read (text : Text) : Except Fault (Number × Text) := do
  let (numeral, rest) ← scan text
  let number ← numeral.value rest
  .ok (number, rest)

end Numeral

end LogIntake.Json
