import LogIntake.Text.Digits

/-!
# Escapes in JSON strings

Inside a string a backslash begins an escape: with a letter for the most common
characters, or with the letter `u` and four hexadecimal digits for a code unit.

The printer escapes what it must, with a letter where there is one; the reader
takes every escape.
-/

namespace LogIntake.Json

/-! ## Writing -/

/-- The escape of a character of one code unit by its number. -/
def unicodeEscape (c : Char) : Text :=
  ['\\', 'u'] ++ Text.padZeros 4 (Text.hex c.toNat)

/-- A character inside a string. -/
def escape (c : Char) : Text :=
  if c = '"' then ['\\', '"']
  else if c = '\\' then ['\\', '\\']
  else if c = '\n' then ['\\', 'n']
  else if c = '\r' then ['\\', 'r']
  else if c = '\t' then ['\\', 't']
  else if c = Char.ofNat 8 then ['\\', 'b']
  else if c = Char.ofNat 12 then ['\\', 'f']
  else if c.toNat < 0x20 then unicodeEscape c
  else [c]

/-! ## Reading -/

/-- The code unit that four hexadecimal digits denote. -/
def codeUnit? (a b c d : Char) : Option Nat := do
  let a ← Text.hexDigit? a
  let b ← Text.hexDigit? b
  let c ← Text.hexDigit? c
  let d ← Text.hexDigit? d
  some (((a * 16 + b) * 16 + c) * 16 + d)

/-- The character that a letter after a backslash stands for. -/
def escapedChar? (c : Char) : Option Char :=
  if c = '"' ∨ c = '\\' ∨ c = '/' then some c
  else if c = 'b' then some (Char.ofNat 8)
  else if c = 'f' then some (Char.ofNat 12)
  else if c = 'n' then some '\n'
  else if c = 'r' then some '\r'
  else if c = 't' then some '\t'
  else none

end LogIntake.Json
