import LogIntake.Json.Escape
import LogIntake.Json.Numeral

/-!
# Reading JSON

The reader takes one value from the front of a text and returns it with the
text behind it. It is strict: no comma may follow the last element of a
container, and no raw control character may stand in a string. At most 127
containers may be open at a time.

Both kinds of container are read by one loop over the reader of a part, which is
a value or an entry. The values inside are read by an `item` reader that has one
level of nesting less to spend. The loop counts down a `fuel` that the length of
the text always covers, since each round takes a character.
-/

namespace LogIntake.Json

/-- The blanks of JSON, fewer than those of text at large. -/
def isBlank (c : Char) : Bool :=
  c == ' ' || c == '\t' || c == '\n' || c == '\r'

/-- The text behind its leading blanks. -/
def skipBlanks (text : Text) : Text :=
  text.dropWhile isBlank

/-! ## Strings -/

/-- The fault of a code unit that is not four hexadecimal digits. Four bytes are
taken before they are looked at. -/
def codeUnitFault (rest : Text) : Fault :=
  if byteSize rest < 4 then .before .unfinishedString [] else ⟨.invalidEscape, rest, 4⟩

/-- The fault of a text that does not go on with a second code unit. -/
def secondUnitFault : Text → Fault
  | [] => .before .unfinishedString []
  | '\\' :: [] => .before .unfinishedString []
  | '\\' :: 'u' :: rest => codeUnitFault rest
  | '\\' :: rest => ⟨.missingLowSurrogate, rest, 1⟩
  | rest => ⟨.missingLowSurrogate, rest, 1⟩

/-- Reads a string behind its opening quote. The characters read so far are kept
in reverse. -/
def readString (reversed : Text) : Text → Except Fault (Text × Text)
  | [] => .error (.before .unfinishedString [])
  | '"' :: rest => .ok (reversed.reverse, rest)
  | '\\' :: 'u' :: a :: b :: c :: d :: rest =>
    match codeUnit? a b c d with
    | none => .error (codeUnitFault (a :: b :: c :: d :: rest))
    | some unit =>
      if Text.isLowSurrogate unit then .error (.before .unpairedSurrogate rest)
      else if Text.isHighSurrogate unit then
        match rest with
        | '\\' :: 'u' :: e :: f :: g :: h :: rest' =>
          match codeUnit? e f g h with
          | none => .error (codeUnitFault (e :: f :: g :: h :: rest'))
          | some second =>
            if Text.isLowSurrogate second then
              readString (Text.pairChar unit second :: reversed) rest'
            else .error (.before .unpairedSurrogate rest')
        | rest => .error (secondUnitFault rest)
      else readString (Char.ofNat unit :: reversed) rest
  | '\\' :: 'u' :: rest => .error (codeUnitFault rest)
  | '\\' :: c :: rest =>
    match escapedChar? c with
    | some escaped => readString (escaped :: reversed) rest
    | none => .error ⟨.invalidEscape, c :: rest, 1⟩
  | '\\' :: [] => .error (.before .unfinishedString [])
  | c :: rest =>
    if c.toNat < 0x20 then .error ⟨.rawControlCharacter, c :: rest, 1⟩
    else readString (c :: reversed) rest

/-! ## Words -/

/-- Takes the letters of a word. -/
def readWord : Text → Text → Except Fault Text
  | [], text => .ok text
  | _ :: _, [] => .error (.before .unfinishedValue [])
  | letter :: letters, c :: rest =>
    if c = letter then readWord letters rest else .error ⟨.expectedWord, c :: rest, 1⟩

/-! ## Containers -/

section Parts

variable {α : Type} (part : Text → Except Fault (α × Text)) (closing : Char)
  (unfinished misplaced : Cause)

/-- Reads the parts of a container from the one that is due, up to the character
that closes the container. The causes are those of a text that ends too early and
of a part that is followed by neither a comma nor the end. -/
def readParts : Nat → List α → Text → Except Fault (List α × Text)
  | 0, _, text => .error (.before unfinished text)
  | fuel + 1, reversed, text => do
    let (value, rest) ← part text
    match skipBlanks rest with
    | [] => .error (.next unfinished [])
    | c :: rest =>
      if c = closing then .ok ((value :: reversed).reverse, rest)
      else if c = ',' then
        match skipBlanks rest with
        | [] => .error (.next .unfinishedValue [])
        | d :: rest =>
          if d = closing then .error (.next .trailingComma (d :: rest))
          else readParts fuel (value :: reversed) (d :: rest)
      else .error (.next misplaced (c :: rest))

/-- Reads a container behind its opening character. -/
def readContainer (fuel : Nat) (text : Text) : Except Fault (List α × Text) :=
  match skipBlanks text with
  | [] => .error (.next unfinished [])
  | c :: rest =>
    if c = closing then .ok ([], rest)
    else readParts part closing unfinished misplaced fuel [] (c :: rest)

end Parts

section Containers

variable (item : Text → Except Fault (Json × Text))

/-- Reads an array behind its opening bracket. -/
def readArray (fuel : Nat) (text : Text) : Except Fault (List Json × Text) :=
  readContainer item ']' .unfinishedList .expectedListCommaOrEnd fuel text

/-- Reads an entry of an object: a key, a colon and a value. -/
def readEntry : Text → Except Fault ((Text × Json) × Text)
  | '"' :: text => do
    let (key, rest) ← readString [] text
    match skipBlanks rest with
    | [] => .error (.next .unfinishedObject [])
    | ':' :: rest => do
      let (value, rest) ← item rest
      .ok ((key, value), rest)
    | rest => .error (.next .expectedColon rest)
  | text => .error (.next .keyNotAString text)

/-- Reads an object behind its opening brace. -/
def readObject (fuel : Nat) (text : Text) : Except Fault (Members × Text) := do
  let (entries, rest) ←
    readContainer (readEntry item) '\x7d' .unfinishedObject .expectedObjectCommaOrEnd fuel text
  .ok (Members.ofEntries entries, rest)

end Containers

/-! ## Values -/

/-- Reads a value whose inner values are read by `nested?`; without it no
container may be opened. -/
def readWith (nested? : Option (Text → Except Fault (Json × Text))) (fuel : Nat) (text : Text) :
    Except Fault (Json × Text) :=
  match skipBlanks text with
  | [] => .error (.next .unfinishedValue [])
  | '"' :: rest => do
    let (value, rest) ← readString [] rest
    .ok (.string value, rest)
  | '[' :: rest =>
    match nested? with
    | none => .error (.next .nestedTooDeep ('[' :: rest))
    | some item => do
      let (elements, rest) ← readArray item fuel rest
      .ok (.array elements, rest)
  | '\x7b' :: rest =>
    match nested? with
    | none => .error (.next .nestedTooDeep ('\x7b' :: rest))
    | some item => do
      let (members, rest) ← readObject item fuel rest
      .ok (.object members, rest)
  | 'n' :: rest => do
    let rest ← readWord "ull".toList rest
    .ok (.null, rest)
  | 't' :: rest => do
    let rest ← readWord "rue".toList rest
    .ok (.bool true, rest)
  | 'f' :: rest => do
    let rest ← readWord "alse".toList rest
    .ok (.bool false, rest)
  | c :: rest =>
    if c = '-' ∨ Text.isDigit c then do
      let (n, rest) ← Numeral.read (c :: rest)
      .ok (.number n, rest)
    else .error (.next .expectedValue (c :: rest))

/-- Reads a value in which at most `depth` containers are open at a time. -/
def readNested (fuel : Nat) : Nat → Text → Except Fault (Json × Text)
  | 0 => readWith none fuel
  | depth + 1 => readWith (some (readNested fuel depth)) fuel

/-- The number of containers that may be open at a time. -/
def depthLimit : Nat :=
  127

/-- Reads the first value of a text. -/
def readValue (text : Text) : Except Fault (Json × Text) :=
  readNested text.length depthLimit text

/-- Nothing but blanks may follow. -/
def endOfText (text : Text) : Except Fault Unit :=
  match skipBlanks text with
  | [] => .ok ()
  | rest => .error (.next .trailingCharacters rest)

/-- Reads a text that holds one value and nothing else. -/
def ofText (text : Text) : Except Fault Json := do
  let (value, rest) ← readValue text
  endOfText rest
  .ok value

end LogIntake.Json
