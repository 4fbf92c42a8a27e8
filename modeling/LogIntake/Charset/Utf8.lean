import LogIntake.Text.Basic

/-!
# Reading UTF-8

The decoder goes through the bytes one at a time. Between two characters it
holds nothing; inside one it holds what the bytes so far contribute and the
range in which the next byte must lie, so overlong forms, surrogates and values
beyond the last code point end with their second byte.

A byte outside that range ends the sequence before it, which gives one
replacement character, and is looked at again as the start of a character. A
byte that cannot start a character gives one replacement character too.
-/

namespace LogIntake.Charset

/-- The character that stands for what cannot be decoded. -/
def replacement : Char :=
  Char.ofNat 0xFFFD

namespace Utf8

/-- An unfinished sequence: the bits so far, how many bytes are due, and the
range of the next one. -/
structure Pending where
  value : Nat
  due : Nat
  low : Nat
  high : Nat
deriving DecidableEq, Repr

/-- The sequence that a byte begins, if it begins one of several bytes. -/
def begin? (byte : Nat) : Option Pending :=
  if byte < 0xC2 then none
  else if byte < 0xE0 then some ⟨byte - 0xC0, 1, 0x80, 0xBF⟩
  else if byte = 0xE0 then some ⟨0, 2, 0xA0, 0xBF⟩
  else if byte = 0xED then some ⟨0xD, 2, 0x80, 0x9F⟩
  else if byte < 0xF0 then some ⟨byte - 0xE0, 2, 0x80, 0xBF⟩
  else if byte = 0xF0 then some ⟨0, 3, 0x90, 0xBF⟩
  else if byte < 0xF4 then some ⟨byte - 0xF0, 3, 0x80, 0xBF⟩
  else if byte = 0xF4 then some ⟨4, 3, 0x80, 0x8F⟩
  else none

/-- What a byte between characters yields. -/
def start (byte : Nat) : Text × Option Pending :=
  if byte < 0x80 then ([Char.ofNat byte], none)
  else
    match begin? byte with
    | some pending => ([], some pending)
    | none => ([replacement], none)

/-- What a byte yields in a sequence or between characters. -/
def step (pending? : Option Pending) (byte : Nat) : Text × Option Pending :=
  match pending? with
  | none => start byte
  | some pending =>
    if pending.low ≤ byte ∧ byte ≤ pending.high then
      let value := pending.value * 64 + byte % 64
      if pending.due = 1 then ([Char.ofNat value], none)
      else ([], some ⟨value, pending.due - 1, 0x80, 0xBF⟩)
    else
      let (written, pending?) := start byte
      (replacement :: written, pending?)

/-- Decodes bytes after an unfinished sequence. The characters so far are kept
in reverse. -/
def decodeFrom (pending? : Option Pending) (reversed : Text) : List UInt8 → Text
  | [] => (if pending?.isSome then replacement :: reversed else reversed).reverse
  | byte :: rest =>
    let (written, pending?) := step pending? byte.toNat
    decodeFrom pending? (written.reverseAux reversed) rest

/-- The text that the bytes hold. -/
def decode (bytes : List UInt8) : Text :=
  decodeFrom none [] bytes

end Utf8

end LogIntake.Charset
