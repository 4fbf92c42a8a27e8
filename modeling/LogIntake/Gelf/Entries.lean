import LogIntake.Event
import LogIntake.Field
import LogIntake.Json.Printer

/-!
# Entries of GELF documents

Senders are lax about types: numbers come as texts and texts as numbers. These
are the readings of an entry as text, as an integer and as seconds, and the
value that an entry has as an additional field.
-/

namespace LogIntake.Gelf

/-! ## Text -/

/-- The text of a scalar: texts as they are, numbers and booleans in their
notation. Everything else has the empty text. -/
def scalarText : Json → Text
  | .string s => s
  | .number n => n.toText
  | .bool true => "true".toList
  | .bool false => "false".toList
  | .null | .array _ | .object _ => []

/-- The name of the kind of a value. -/
def kindName : Json → Text
  | .null => "NULL".toList
  | .bool _ => "BOOLEAN".toList
  | .number _ => "NUMBER".toList
  | .string _ => "STRING".toList
  | .array _ => "ARRAY".toList
  | .object _ => "OBJECT".toList

/-- The text of an entry; absent and null entries have none. -/
def textAt? (members : Json.Members) (key : Text) : Option Text :=
  match members.find? key with
  | none | some .null => none
  | some value => some (scalarText value)

/-! ## Integers -/

/-- The double nearest to a number. -/
def numberDouble : Json.Number → Binary64
  | .integer n => .ofInt n
  | .double x => x

/-- A number as an integer of 64 bits: doubles lose their fraction, and numbers
beyond the range go to its ends. -/
def numberInteger : Json.Number → Int
  | .integer n => if Text.fitsInt64 n then n else (Binary64.ofInt n).toInt64
  | .double x => x.toInt64

/-- A text as an integer of 64 bits, without blanks at the ends and after one
plus sign. A run of digits, perhaps negative, must fit; any other notation of a
double loses its fraction. -/
def textInteger? (text : Text) : Option Int :=
  let unsigned := text.trim.dropLeading '+'
  let digits := unsigned.dropLeading '-'
  if !digits.isEmpty && digits.all Text.isDigit then Text.int64? unsigned
  else
    match Binary64.read unsigned with
    | .ok x => some x.toInt64
    | .error _ => none

/-- A value as an integer; true counts one and false zero. -/
def integer? : Json → Option Int
  | .number n => some (numberInteger n)
  | .string s => textInteger? s
  | .bool true => some 1
  | .bool false => some 0
  | _ => none

/-- The integer of an entry if it lies between zero and the given greatest. -/
def integerAt? (members : Json.Members) (key : Text) (greatest : Int) : Option Int :=
  ((members.find? key).bind integer?).filter fun n => 0 ≤ n && n ≤ greatest

/-! ## Seconds -/

/-- The finite number of seconds that a value gives. A text that is no double is
noted. -/
def seconds? : Json → Logged (Option Binary64)
  | .number n => pure (some (numberDouble n))
  | .string s =>
    match Binary64.read s.trim with
    | .ok x => pure (if x.isFinite then some x else none)
    | .error fault => do
      Logged.note (.timestampUnreadable s fault)
      pure none
  | _ => pure none

/-! ## Additional fields -/

/-- The value of an entry as an additional field: containers as their compact
text, integers beyond 64 bits with sign as doubles. Null and booleans are no
values of fields, and each is noted. -/
def fieldValue? (name : Text) : Json → Logged (Option Field.Value)
  | .string s => pure (some (.text s))
  | .number (.integer n) =>
    pure (some (if Text.fitsInt64 n then .integer n else .double (.ofInt n)))
  | .number (.double x) => pure (some (.double x))
  | .array elements => pure (some (.text (Json.array elements).toText))
  | .object members => pure (some (.text (Json.object members).toText))
  | .null => do
    Logged.note (.fieldNull name)
    pure none
  | .bool _ => do
    Logged.note (.fieldUnsupported name)
    pure none

end LogIntake.Gelf
