/-!
# Text

A text is the list of its characters, so that every rule of the formats below
is a rule on lists and can be proved by induction on them.

Blank characters are those with the Unicode property White_Space. Trimming
takes them off both ends and nothing else, and a text is blank when nothing
remains.
-/

namespace LogIntake

/-- A text, as the list of its characters. -/
abbrev Text := List Char

namespace Text

/-- The texts one after another. -/
def concat (parts : List Text) : Text :=
  parts.flatten

/-- The characters with the property White_Space. -/
def isBlankChar (c : Char) : Bool :=
  let n := c.toNat
  (0x09 ≤ n && n ≤ 0x0D) || n == 0x20 || n == 0x85 || n == 0xA0 || n == 0x1680 ||
    (0x2000 ≤ n && n ≤ 0x200A) || n == 0x2028 || n == 0x2029 || n == 0x202F ||
    n == 0x205F || n == 0x3000

/-- A blank text has no character but blanks. -/
def isBlank (text : Text) : Bool :=
  text.all isBlankChar

/-- The text without its leading blanks. -/
def trimStart (text : Text) : Text :=
  text.dropWhile isBlankChar

/-- The text without its trailing blanks. -/
def trimEnd (text : Text) : Text :=
  (text.reverse.dropWhile isBlankChar).reverse

/-- The text without blanks at either end. -/
def trim (text : Text) : Text :=
  trimEnd (trimStart text)

/-- The text without one leading `c`, if it starts with one. -/
def dropLeading (c : Char) : Text → Text
  | [] => []
  | first :: rest => if first = c then rest else first :: rest

/-- ASCII capitals become small letters; every other character is kept. -/
def toAsciiLower (text : Text) : Text :=
  text.map fun c => if 'A' ≤ c ∧ c ≤ 'Z' then Char.ofNat (c.toNat + 32) else c

@[simp]
theorem concat_nil : concat [] = [] :=
  rfl

@[simp]
theorem concat_cons (first : Text) (rest : List Text) :
    concat (first :: rest) = first ++ concat rest := by
  simp [concat]

/-! ## Code units -/

/-- Whether a code unit of sixteen bits starts a pair: it is a high surrogate. -/
def isHighSurrogate (unit : Nat) : Bool :=
  0xD800 ≤ unit && unit < 0xDC00

/-- Whether a code unit ends a pair: it is a low surrogate. -/
def isLowSurrogate (unit : Nat) : Bool :=
  0xDC00 ≤ unit && unit < 0xE000

/-- The character beyond the first plane that a pair of code units denotes. Every code unit
outside of pairs is a character by itself. -/
def pairChar (high low : Nat) : Char :=
  Char.ofNat (0x10000 + (high - 0xD800) * 0x400 + (low - 0xDC00))

end Text

end LogIntake
