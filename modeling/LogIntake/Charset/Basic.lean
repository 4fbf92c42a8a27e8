import LogIntake.Charset.Utf16

/-!
# Charsets

A charset says how the bytes of a payload stand for text. Decoding never fails:
what a charset cannot decode gives replacement characters.

Charsets are named by a canonical name and by aliases. Names are compared
without blanks at the ends and without regard to the case of ASCII letters.
-/

namespace LogIntake

/-- The charsets of payloads. `utf16` takes its byte order from a mark. -/
inductive Charset
  | utf8
  | usAscii
  | latin1
  | utf16
  | utf16BE
  | utf16LE
deriving DecidableEq, Repr

namespace Charset

/-- All charsets. -/
def all : List Charset :=
  [.utf8, .usAscii, .latin1, .utf16, .utf16BE, .utf16LE]

/-- The canonical name. -/
def name : Charset → Text
  | .utf8 => "UTF-8".toList
  | .usAscii => "US-ASCII".toList
  | .latin1 => "ISO-8859-1".toList
  | .utf16 => "UTF-16".toList
  | .utf16BE => "UTF-16BE".toList
  | .utf16LE => "UTF-16LE".toList

/-- The names by which a charset is known, in small letters. -/
def aliases : Charset → List String
  | .utf8 => ["utf-8", "utf8", "utf_8"]
  | .usAscii => ["us-ascii", "ascii", "us_ascii", "iso646-us", "646"]
  | .latin1 =>
    ["iso-8859-1", "iso8859-1", "iso_8859_1", "iso8859_1", "8859_1", "latin1", "l1", "cp819"]
  | .utf16 => ["utf-16", "utf16", "utf_16", "unicode"]
  | .utf16BE => ["utf-16be", "utf16be", "utf_16be", "x-utf-16be", "unicodebigunmarked"]
  | .utf16LE => ["utf-16le", "utf16le", "utf_16le", "x-utf-16le", "unicodelittleunmarked"]

/-- Whether a charset is known by the name. -/
def isNamed (charset : Charset) (name : Text) : Bool :=
  let name := name.trim.toAsciiLower
  charset.aliases.any fun known => known.toList == name

/-- The charset that is known by the name. -/
def ofName? (name : Text) : Option Charset :=
  all.find? (·.isNamed name)

/-- The character of a byte below 128. -/
def asciiChar (byte : UInt8) : Char :=
  if byte < 128 then Char.ofNat byte.toNat else replacement

/-- The text that the bytes hold. -/
def decode (charset : Charset) (bytes : List UInt8) : Text :=
  match charset with
  | .utf8 => Utf8.decode bytes
  | .usAscii => bytes.map asciiChar
  | .latin1 => bytes.map fun byte => Char.ofNat byte.toNat
  | .utf16 => Utf16.decodeMarked bytes
  | .utf16BE => Utf16.decode .bigEndian bytes
  | .utf16LE => Utf16.decode .littleEndian bytes

end Charset

end LogIntake
