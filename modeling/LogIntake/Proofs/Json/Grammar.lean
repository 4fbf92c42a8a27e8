import LogIntake.Json.Document

/-!
# The grammar of JSON texts

A value, a string and a numeral are related to their spellings, without regard
to how a text is read. The grammar comes in two dialects. The strict one is the
standard notation. The tolerant one admits raw control characters in strings,
though not right behind a backslash, and one comma behind the last element or
entry of a container.

A value is spelled at a depth, the number of containers that may be open inside
the spelling. Repeated keys of an object keep the place of the first and the
value of the last, and a numeral spells the number that it denotes; one that is
out of range spells nothing.
-/

namespace LogIntake.Json

/-- How far a spelling may depart from the standard notation. -/
inductive Dialect
  | strict
  | tolerant
deriving DecidableEq

/-- A run of JSON blanks. -/
def Blanks (text : Text) : Prop :=
  ∀ c ∈ text, isBlank c = true

/-- A text that is empty or starts with a delimiter. -/
def AtBoundary (text : Text) : Prop :=
  ∀ c ∈ text.head?, Document.isDelimiter c = true

/-! ## Numerals -/

/-- A nonempty run of digits. -/
def IsDigits (text : Text) : Prop :=
  text ≠ [] ∧ ∀ c ∈ text, Text.isDigit c = true

/-- Whole parts are zero alone, or digits of which the first is not zero. -/
def IsWhole (text : Text) : Prop :=
  text = ['0'] ∨ IsDigits text ∧ text.head? ≠ some '0'

/-- The digits of a fraction and its spelling. A missing fraction has neither. -/
inductive FractionText : Text → Text → Prop
  | absent : FractionText [] []
  | digits {digits : Text} (run : IsDigits digits) : FractionText digits ('.' :: digits)

/-- The sign of an exponent, which is negative or not, and its spellings. -/
inductive SignText : Bool → Text → Prop
  | absent : SignText false []
  | plus : SignText false ['+']
  | minus : SignText true ['-']

/-- The sign and the digits of an exponent, and its spellings. -/
inductive ExponentText : Option (Bool × Text) → Text → Prop
  | absent : ExponentText none []
  | digits {letter : Char} {negative : Bool} {sign digits : Text}
      (isLetter : letter = 'e' ∨ letter = 'E') (signed : SignText negative sign)
      (run : IsDigits digits) :
      ExponentText (some (negative, digits)) (letter :: (sign ++ digits))

/-- The spelling of the sign of a numeral. -/
def minusText (negative : Bool) : Text :=
  if negative then ['-'] else []

/-- A numeral and its spellings. -/
inductive NumeralText : Numeral → Text → Prop
  | parts {negative : Bool} {whole fraction fractionText exponentText : Text}
      {exponent : Option (Bool × Text)} (isWhole : IsWhole whole)
      (fractionSpelled : FractionText fraction fractionText)
      (exponentSpelled : ExponentText exponent exponentText) :
      NumeralText ⟨negative, whole, fraction, exponent⟩
        (minusText negative ++ (whole ++ (fractionText ++ exponentText)))

/-! ## Strings -/

/-- The letters behind a backslash and the characters that they stand for. -/
def letterEscapes : List (Char × Char) :=
  [('"', '"'), ('\\', '\\'), ('/', '/'), ('b', Char.ofNat 8), ('f', Char.ofNat 12),
    ('n', '\n'), ('r', '\r'), ('t', '\t')]

/-- The characters of a string and its spellings between the quotes. -/
inductive StringText (dialect : Dialect) : Text → Text → Prop
  | nil : StringText dialect [] []
  | char {c : Char} {value spelling : Text} (notQuote : c ≠ '"') (notBackslash : c ≠ '\\')
      (control : c.toNat < 0x20 → dialect = .tolerant)
      (rest : StringText dialect value spelling) :
      StringText dialect (c :: value) (c :: spelling)
  | letter {letter c : Char} {value spelling : Text} (escape : (letter, c) ∈ letterEscapes)
      (rest : StringText dialect value spelling) :
      StringText dialect (c :: value) ('\\' :: letter :: spelling)
  | unit {a b c d : Char} {unit : Nat} {value spelling : Text}
      (denotes : codeUnit? a b c d = some unit) (notHigh : Text.isHighSurrogate unit = false)
      (notLow : Text.isLowSurrogate unit = false) (rest : StringText dialect value spelling) :
      StringText dialect (Char.ofNat unit :: value) ('\\' :: 'u' :: a :: b :: c :: d :: spelling)
  | pair {a b c d e f g h : Char} {high low : Nat} {value spelling : Text}
      (first : codeUnit? a b c d = some high) (isHigh : Text.isHighSurrogate high = true)
      (second : codeUnit? e f g h = some low) (isLow : Text.isLowSurrogate low = true)
      (rest : StringText dialect value spelling) :
      StringText dialect (Text.pairChar high low :: value)
        ('\\' :: 'u' :: a :: b :: c :: d :: '\\' :: 'u' :: e :: f :: g :: h :: spelling)

/-- A spelling between quotes. -/
def quoted (spelling : Text) : Text :=
  '"' :: (spelling ++ ['"'])

/-! ## Values -/

/-- A part of a container: its value and its spelling, with what stands before and
after it. -/
structure Part (α : Type) where
  before : Text
  value : α
  spelling : Text
  after : Text

namespace Part

variable {α : Type}

/-- The part as it stands in a text. -/
def text (part : Part α) : Text :=
  part.before ++ (part.spelling ++ part.after)

/-- There are only blanks around the spelling. -/
def Padded (part : Part α) : Prop :=
  Blanks part.before ∧ Blanks part.after

end Part

/-- An entry of an object: its key, and its value as the part behind the colon. -/
structure Entry where
  before : Text
  key : Text
  keySpelling : Text
  between : Text
  element : Part Json

namespace Entry

/-- The entry as a part of its object. Blanks behind the value stand behind the
entry. -/
def part (entry : Entry) : Part (Text × Json) where
  before := entry.before
  value := (entry.key, entry.element.value)
  spelling := quoted entry.keySpelling ++
    (entry.between ++ ':' :: (entry.element.before ++ entry.element.spelling))
  after := entry.element.after

/-- There are only blanks around the key and the value. -/
def Padded (entry : Entry) : Prop :=
  Blanks entry.before ∧ Blanks entry.between ∧ entry.element.Padded

end Entry

/-- Parts with a comma between any two. -/
def separated {α : Type} (parts : List (Part α)) : Text :=
  [','].intercalate (parts.map Part.text)

/-- What may stand between the last part of a container and its end: blanks, and in
the tolerant dialect a comma in front of them. -/
inductive EndText (dialect : Dialect) : Text → Prop
  | blanks {blanks : Text} (blank : Blanks blanks) : EndText dialect blanks
  | comma {blanks : Text} (tolerant : dialect = .tolerant) (blank : Blanks blanks) :
      EndText dialect (',' :: blanks)

/-- A value and its spellings with at most the given number of open containers. -/
inductive ValueText (dialect : Dialect) : Nat → Json → Text → Prop
  | nullWord {depth : Nat} : ValueText dialect depth .null "null".toList
  | trueWord {depth : Nat} : ValueText dialect depth (.bool true) "true".toList
  | falseWord {depth : Nat} : ValueText dialect depth (.bool false) "false".toList
  | number {depth : Nat} {numeral : Numeral} {n : Number} {spelling : Text}
      (spelled : NumeralText numeral spelling) (denotes : numeral.value [] = .ok n) :
      ValueText dialect depth (.number n) spelling
  | string {depth : Nat} {value spelling : Text} (spelled : StringText dialect value spelling) :
      ValueText dialect depth (.string value) (quoted spelling)
  | emptyArray {depth : Nat} {blanks : Text} (blank : Blanks blanks) :
      ValueText dialect (depth + 1) (.array []) ('[' :: (blanks ++ [']']))
  | array {depth : Nat} {elements : List (Part Json)} {ending : Text} (nonempty : elements ≠ [])
      (padded : ∀ element ∈ elements, element.Padded)
      (spelled : ∀ element ∈ elements, ValueText dialect depth element.value element.spelling)
      (ends : EndText dialect ending) :
      ValueText dialect (depth + 1) (.array (elements.map Part.value))
        ('[' :: (separated elements ++ (ending ++ [']'])))
  | emptyObject {depth : Nat} {blanks : Text} (blank : Blanks blanks) :
      ValueText dialect (depth + 1) (.object []) ('\x7b' :: (blanks ++ ['\x7d']))
  | object {depth : Nat} {entries : List Entry} {ending : Text} (nonempty : entries ≠ [])
      (padded : ∀ entry ∈ entries, entry.Padded)
      (keys : ∀ entry ∈ entries, StringText dialect entry.key entry.keySpelling)
      (spelled : ∀ entry ∈ entries,
        ValueText dialect depth entry.element.value entry.element.spelling)
      (ends : EndText dialect ending) :
      ValueText dialect (depth + 1)
        (.object (Members.ofEntries ((entries.map Entry.part).map Part.value)))
        ('\x7b' :: (separated (entries.map Entry.part) ++ (ending ++ ['\x7d'])))

/-! ## What follows a value -/

/-- The words and the numerals. -/
def TokenText (token : Text) : Prop :=
  token = "true".toList ∨ token = "false".toList ∨ token = "null".toList ∨
    ∃ numeral, NumeralText numeral token

/-- A text that starts with a token: the first character of a container or a
string, or a whole word or numeral. -/
inductive StartsToken : Text → Prop
  | opening {c : Char} {rest : Text} (opens : c = '\x7b' ∨ c = '[' ∨ c = '"') :
      StartsToken (c :: rest)
  | whole {token rest : Text} (isToken : TokenText token) (boundary : AtBoundary rest) :
      StartsToken (token ++ rest)

/-- A text behind a value, and whether it goes on with another token. -/
inductive Continues : Text → Bool → Prop
  | ends {text : Text} (blank : Blanks text) : Continues text false
  | token {blanks rest : Text} (blank : Blanks blanks) (starts : StartsToken rest) :
      Continues (blanks ++ rest) true

/-- Behind a word or a numeral a delimiter or the end of the text is due. -/
def EndsBefore (value : Json) (rest : Text) : Prop :=
  Document.isSelfDelimiting value = true ∨ AtBoundary rest

end LogIntake.Json
