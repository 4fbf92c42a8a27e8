import LogIntake.Text.Basic

/-!
# Digits

Whole numbers are written in decimal without leading zeros, and with a minus
sign when they are negative; hexadecimal is written in small letters.

Reading is the inverse on runs of digits. A run has any number of leading
zeros and any length; limits on the value belong to the reader of the number.
-/

namespace LogIntake.Text

/-- The decimal digits of a natural number. -/
def ofNat (n : Nat) : Text :=
  Nat.toDigits 10 n

/-- The decimal notation of an integer. -/
def ofInt : Int → Text
  | .ofNat n => ofNat n
  | .negSucc n => '-' :: ofNat (n + 1)

/-- The hexadecimal digits of a natural number, in small letters. -/
def hex (n : Nat) : Text :=
  Nat.toDigits 16 n

/-- Zeros are put in front until the text has `width` characters. -/
def padZeros (width : Nat) (digits : Text) : Text :=
  List.replicate (width - digits.length) '0' ++ digits

/-- The ASCII digits. -/
def isDigit (c : Char) : Bool :=
  '0' ≤ c && c ≤ '9'

theorem isDigit_iff {c : Char} : isDigit c = true ↔ 48 ≤ c.toNat ∧ c.toNat ≤ 57 := by
  simp [isDigit, Char.le_def, UInt32.le_iff_toNat_le]

/-- The value of an ASCII digit. -/
def digitValue (c : Char) : Nat :=
  c.toNat - '0'.toNat

/-- The number that a run of digits denotes, continued from `start`. -/
def numberFrom (start : Nat) (digits : Text) : Nat :=
  digits.foldl (fun n c => 10 * n + digitValue c) start

/-- The number that a run of digits denotes. -/
def number (digits : Text) : Nat :=
  numberFrom 0 digits

/-- The value of a hexadecimal digit in letters of either case. -/
def hexDigit? (c : Char) : Option Nat :=
  if isDigit c then some (digitValue c)
  else if 'a' ≤ c ∧ c ≤ 'f' then some (c.toNat - 'a'.toNat + 10)
  else if 'A' ≤ c ∧ c ≤ 'F' then some (c.toNat - 'A'.toNat + 10)
  else none

/-- A nonempty run of decimal digits, read as a number. -/
def digits? (text : Text) : Option Nat :=
  if !text.isEmpty && text.all isDigit then some (number text) else none

/-- An unsigned numeral: at most one plus sign, then digits. -/
def natural? (text : Text) : Option Nat :=
  digits? (text.dropLeading '+')

/-- A signed numeral: at most one sign, then digits. -/
def integer? : Text → Option Int
  | '-' :: digits => (digits? digits).map fun n => -(n : Int)
  | '+' :: digits => (digits? digits).map fun n => (n : Int)
  | digits => (digits? digits).map fun n => (n : Int)

/-- The least integer of 64 bits with sign. -/
def minInt64 : Int :=
  -(Int.pow 2 63)

/-- The greatest integer of 64 bits with sign. -/
def maxInt64 : Int :=
  Int.pow 2 63 - 1

/-- Whether an integer fits 64 bits with sign. -/
def fitsInt64 (n : Int) : Bool :=
  minInt64 ≤ n && n ≤ maxInt64

/-- A signed numeral whose value fits 64 bits with sign. -/
def int64? (text : Text) : Option Int :=
  (integer? text).filter fitsInt64

/-- An unsigned numeral whose value fits 64 bits without sign. -/
def uint64? (text : Text) : Option Nat :=
  (natural? text).filter (· < Nat.pow 2 64)

end LogIntake.Text
