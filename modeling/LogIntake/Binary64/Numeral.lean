import LogIntake.Binary64.Basic

/-!
# Reading doubles

A decimal numeral has at most one sign, digits with an optional point among or
around them, and an optional exponent with a sign of its own. It is read as
the nearest double. Besides numerals the words `inf`, `infinity` and `nan` are
read, in letters of either case and with an optional sign.
-/

namespace LogIntake

/-- A decimal numeral without its sign: `digits * 10 ^ exponent`. -/
structure Numeral where
  digits : Nat
  exponent : Int
deriving DecidableEq, Repr

namespace Numeral

/-- What stands after the `e` of an exponent: at most one sign, then digits. -/
def exponent? : Text → Option Int
  | [] => some 0
  | c :: rest => if c = 'e' ∨ c = 'E' then Text.integer? rest else none

/-- Reads an unsigned decimal numeral. -/
def read? (text : Text) : Option Numeral :=
  let whole := text.takeWhile Text.isDigit
  let afterWhole := text.dropWhile Text.isDigit
  let (fraction, rest) :=
    match afterWhole with
    | '.' :: tail => (tail.takeWhile Text.isDigit, tail.dropWhile Text.isDigit)
    | _ => ([], afterWhole)
  if whole.isEmpty && fraction.isEmpty then none
  else
    (exponent? rest).map fun exponent =>
      ⟨Text.number (whole ++ fraction), exponent - fraction.length⟩

end Numeral

namespace Binary64

/-- Why a text is not read as a double. -/
inductive NumeralFault
  | empty
  | malformed
deriving DecidableEq, Repr

/-- The wording of a fault. -/
def NumeralFault.message : NumeralFault → Text
  | .empty => "cannot parse float from empty string".toList
  | .malformed => "invalid float literal".toList

/-- Reads a double without a sign, giving it the sign `negative`. -/
def readUnsigned (negative : Bool) (text : Text) : Except NumeralFault Binary64 :=
  let word := text.toAsciiLower
  if word = "inf".toList ∨ word = "infinity".toList then .ok (infinity negative)
  else if word = "nan".toList then .ok nan
  else
    match Numeral.read? text with
    | some numeral => .ok (ofDecimal negative numeral.digits numeral.exponent)
    | none => .error .malformed

/-- Reads a double with at most one sign. -/
def read : Text → Except NumeralFault Binary64
  | [] => .error .empty
  | '-' :: text => readUnsigned true text
  | '+' :: text => readUnsigned false text
  | text => readUnsigned false text

end Binary64

end LogIntake
