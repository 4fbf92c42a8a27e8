import LogIntake.Json.Equality
import LogIntake.Json.Mended
import LogIntake.Json.NumeralWalk
import LogIntake.Text.Quoted

/-!
# The first document of a text

A payload holds one JSON document. Reading is tolerant: a byte order mark in
front is dropped and the text is mended first. Only the first value counts.
Whether another token follows is reported beside it, because two documents in
one payload are what a lost fragment leaves behind.

Containers and strings count as a further token from their first character on;
words and numerals must be complete up to the next delimiter.
-/

namespace LogIntake.Json

/-- Why a text has no first document. -/
inductive Document.Error
  | empty
  | nullDocument
  | unreadable (reason : Text)
  | trailingGarbage (found : Char)
  | invalidToken (token : Text)
deriving DecidableEq, Repr

/-- The wording of an error. -/
def Document.Error.message : Document.Error → Text
  | .empty => "payload is empty".toList
  | .nullDocument => "null result".toList
  | .unreadable reason => reason
  | .trailingGarbage found =>
    Text.concat
      ["unexpected character ".toList, Text.quotedChar found, " after JSON document".toList]
  | .invalidToken token =>
    Text.concat ["unrecognized token ".toList, Text.quoted token, " after JSON document".toList]

/-- The first value of a text, and whether another token follows it. -/
structure Document where
  value : Json
  isFollowed : Bool
deriving DecidableEq, Repr

namespace Document

/-- The characters that end a word or a numeral. -/
def isDelimiter (c : Char) : Bool :=
  isBlank c || c == '\x7b' || c == '\x7d' || c == '[' || c == ']' || c == ',' || c == ':' ||
    c == '"'

/-- Whether a token is a numeral from its first to its last byte. -/
def isNumeral (token : Text) : Bool :=
  let bytes := NumeralWalk.bytesOf token
  match NumeralWalk.pass bytes with
  | .ok passed => passed == bytes.length
  | .error _ => false

/-- Whether a token is complete and denotes a value. -/
def isToken (token : Text) : Bool :=
  token == "true".toList || token == "false".toList || token == "null".toList ||
    isNumeral token

/-- The characters that may start a word or a numeral. -/
def startsToken (c : Char) : Bool :=
  c == 't' || c == 'f' || c == 'n' || c == '-' || Text.isDigit c

/-- Whether another token follows in the text behind the first value. -/
def furtherToken (rest : Text) : Except Document.Error Bool :=
  match skipBlanks rest with
  | [] => .ok false
  | c :: rest =>
    if c = '\x7b' ∨ c = '[' ∨ c = '"' then .ok true
    else if startsToken c then
      let token := (c :: rest).takeWhile fun c => !isDelimiter c
      if isToken token then .ok true else .error (.invalidToken token)
    else .error (.trailingGarbage c)

/-- Containers and strings end by themselves; behind every other value a
delimiter or the end of the text is due. -/
def isSelfDelimiting : Json → Bool
  | .string _ | .array _ | .object _ => true
  | _ => false

/-- The fault of a value that runs into the text behind it. -/
def delimited (value : Json) (rest : Text) : Except Fault Unit :=
  match rest with
  | [] => .ok ()
  | c :: _ =>
    if isSelfDelimiting value || isDelimiter c then .ok ()
    else .error (.next .trailingCharacters rest)

/-- Reads the first value of a text with the text behind it, and makes sure that
it ends there. -/
def readDelimited (text : Text) : Except Fault (Json × Text) := do
  let (value, rest) ← readValue text
  delimited value rest
  .ok (value, rest)

/-- Reads the first document of a mended text. -/
def ofMended (text : Text) : Except Document.Error Document :=
  if (skipBlanks text).isEmpty then .error .empty
  else
    match readDelimited text with
    | .error fault => .error (.unreadable (fault.message text))
    | .ok (.null, _) => .error .nullDocument
    | .ok (value, rest) => (furtherToken rest).map fun isFollowed => ⟨value, isFollowed⟩

/-- The character that some senders put in front as a byte order mark. -/
def byteOrderMark : Char :=
  Char.ofNat 0xFEFF

/-- Reads the first document of a text. -/
def ofText (text : Text) : Except Document.Error Document :=
  ofMended (mend (text.dropLeading byteOrderMark))

end Document

end LogIntake.Json
