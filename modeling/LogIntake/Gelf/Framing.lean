import LogIntake.Text.Basic

/-!
# Framing of GELF payloads

The first two bytes of a payload tell how it is framed: compressed with gzip or
zlib, a chunk of a longer message, or plain text. A payload of fewer bytes
cannot be told.
-/

namespace LogIntake.Gelf

/-- How a payload is framed. -/
inductive Framing
  | zlib
  | gzip
  | chunked
  | uncompressed
deriving DecidableEq, Repr

namespace Framing

/-- The name of a framing. -/
def name : Framing → Text
  | zlib => "zlib".toList
  | gzip => "gzip".toList
  | chunked => "chunked".toList
  | uncompressed => "uncompressed".toList

/-- The second bytes of zlib headers: no compression, fast, default and best. -/
def zlibLevels : List UInt8 :=
  [0x01, 0x5E, 0x9C, 0xDA]

/-- The framing of a payload of at least two bytes. -/
def ofPayload? : List UInt8 → Option Framing
  | first :: second :: _ =>
    some <|
      if first = 0x1F ∧ second = 0x8B then gzip
      else if first = 0x1E ∧ second = 0x0F then chunked
      else if first = 0x78 ∧ second ∈ zlibLevels then zlib
      else uncompressed
  | _ => none

end Framing

end LogIntake.Gelf
