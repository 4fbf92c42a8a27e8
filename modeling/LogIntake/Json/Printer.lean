import LogIntake.Binary64.Shortest
import LogIntake.Json.Escape
import LogIntake.Json.Value

/-!
# Compact JSON text

The printer writes a value without blanks. Strings escape the quote, the
backslash and the control characters and nothing else. Doubles have the
shortest digits that read back, always with a point in positional notation;
very large and very small ones have an exponent with a sign.
-/

namespace LogIntake.Json

/-- A string with its quotes. -/
def stringText (s : Text) : Text :=
  ['"'] ++ s.flatMap escape ++ ['"']

/-- Doubles are positional with leading digits from the hundred-thousandths to
the quadrillions. -/
def doubleLayout : Binary64.Layout where
  tieToEven := true
  positional exponent := -5 ≤ exponent && exponent ≤ 15
  wholeSuffix := ['.', '0']

/-- The text of a number. A double that is not finite has no notation. -/
def Number.toText : Number → Text
  | .integer n => Text.ofInt n
  | .double x => if x.isFinite then x.write doubleLayout else "null".toList

mutual

/-- Writes a value behind the text that is already there, which is kept in
reverse. -/
def writeOnto (reversed : Text) : Json → Text
  | .null => "null".toList.reverseAux reversed
  | .bool true => "true".toList.reverseAux reversed
  | .bool false => "false".toList.reverseAux reversed
  | .number n => n.toText.reverseAux reversed
  | .string s => (stringText s).reverseAux reversed
  | .array [] => ']' :: '[' :: reversed
  | .array (element :: elements) =>
    ']' :: writeElements (writeOnto ('[' :: reversed) element) elements
  | .object [] => '\x7d' :: '\x7b' :: reversed
  | .object ((key, value) :: members) =>
    '\x7d' :: writeMembers
      (writeOnto (':' :: (stringText key).reverseAux ('\x7b' :: reversed)) value) members

/-- Writes the further elements of an array, each behind a comma. -/
def writeElements (reversed : Text) : List Json → Text
  | [] => reversed
  | element :: elements => writeElements (writeOnto (',' :: reversed) element) elements

/-- Writes the further members of an object, each behind a comma. -/
def writeMembers (reversed : Text) : List (Text × Json) → Text
  | [] => reversed
  | (key, value) :: members =>
    writeMembers
      (writeOnto (':' :: (stringText key).reverseAux (',' :: reversed)) value) members

end

/-- The compact text of a value. -/
def toText (value : Json) : Text :=
  (writeOnto [] value).reverse

end LogIntake.Json
