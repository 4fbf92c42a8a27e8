import LogIntake.Text.Digits

/-!
# Faults of a JSON text

A fault has a cause and a place. The reader knows the place as the text that it
had not read yet; the position that a diagnostic shows is computed from it and
the whole text: the line, and the column as a count of bytes of UTF-8 from the
start of that line.

Some faults lie at the next character, which has not been taken yet, and some
behind bytes that have been taken. A fault may lie inside the bytes of one
character.
-/

namespace LogIntake.Json

/-- What is wrong with a JSON text. -/
inductive Cause
  | expectedValue
  | unfinishedValue
  | unfinishedList
  | unfinishedObject
  | unfinishedString
  | expectedListCommaOrEnd
  | expectedObjectCommaOrEnd
  | expectedColon
  | expectedWord
  | keyNotAString
  | trailingComma
  | trailingCharacters
  | nestedTooDeep
  | invalidNumber
  | numberOutOfRange
  | invalidEscape
  | unpairedSurrogate
  | missingLowSurrogate
  | rawControlCharacter
  | notAnObject (found : Text)
deriving DecidableEq, Repr

/-- The wording of a cause. -/
def Cause.message : Cause → Text
  | .expectedValue => "expected value".toList
  | .unfinishedValue => "EOF while parsing a value".toList
  | .unfinishedList => "EOF while parsing a list".toList
  | .unfinishedObject => "EOF while parsing an object".toList
  | .unfinishedString => "EOF while parsing a string".toList
  | .expectedListCommaOrEnd => "expected `,` or `]`".toList
  | .expectedObjectCommaOrEnd => "expected `,` or `\x7d`".toList
  | .expectedColon => "expected `:`".toList
  | .expectedWord => "expected ident".toList
  | .keyNotAString => "key must be a string".toList
  | .trailingComma => "trailing comma".toList
  | .trailingCharacters => "trailing characters".toList
  | .nestedTooDeep => "recursion limit exceeded".toList
  | .invalidNumber => "invalid number".toList
  | .numberOutOfRange => "number out of range".toList
  | .invalidEscape => "invalid escape".toList
  | .unpairedSurrogate => "lone leading surrogate in hex escape".toList
  | .missingLowSurrogate => "unexpected end of hex escape".toList
  | .rawControlCharacter =>
    "control character (\\u0000-\\u001F) found while parsing a string".toList
  | .notAnObject found => Text.concat ["invalid type: ".toList, found, ", expected a map".toList]

/-- A cause and the place where it was met: `taken` bytes into the text `rest`. -/
structure Fault where
  cause : Cause
  rest : Text
  taken : Nat
deriving DecidableEq, Repr

namespace Fault

/-- A fault met right before `rest`. -/
def before (cause : Cause) (rest : Text) : Fault :=
  ⟨cause, rest, 0⟩

/-- A fault of the next character, if there is one. -/
def next (cause : Cause) (rest : Text) : Fault :=
  ⟨cause, rest, if rest.isEmpty then 0 else 1⟩

end Fault

/-- The number of bytes that a text takes in UTF-8. -/
def byteSize (text : Text) : Nat :=
  text.foldl (fun size c => size + c.utf8Size) 0

/-- A line and a column, in bytes. -/
structure Position where
  line : Nat
  column : Nat
deriving DecidableEq, Repr

/-- Moves a position over the first `count` bytes of a text. -/
def Position.advance (position : Position) : Nat → Text → Position
  | _, [] => position
  | count, c :: rest =>
    if count < c.utf8Size then { position with column := position.column + count }
    else if c = '\n' then Position.advance ⟨position.line + 1, 0⟩ (count - c.utf8Size) rest
    else
      Position.advance { position with column := position.column + c.utf8Size }
        (count - c.utf8Size) rest

/-- The position of a fault in the text that was read. -/
def Fault.position (fault : Fault) (text : Text) : Position :=
  Position.advance ⟨1, 0⟩ (byteSize text - byteSize fault.rest + fault.taken) text

/-- The wording of a fault in the text that was read. -/
def Fault.message (fault : Fault) (text : Text) : Text :=
  let position := fault.position text
  Text.concat
    [fault.cause.message, " at line ".toList, Text.ofNat position.line, " column ".toList,
      Text.ofNat position.column]

end LogIntake.Json
