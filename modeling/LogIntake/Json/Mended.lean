import LogIntake.Json.Reader

/-!
# Mending JSON

Some senders write raw control characters into strings, or a comma behind the
last element of a container. Both are mended before the text is read: inside
strings control characters are escaped, and outside them a comma is dropped
when a value stands before it and the end of a container follows.

A comma without a value before it stays, and so does everything else; the
reader refuses what is still wrong.
-/

namespace LogIntake.Json

/-- Where in a text the next character stands. -/
inductive Region
  /-- Outside strings, behind the given character; blanks do not count. -/
  | outside (last : Option Char)
  /-- Inside a string. -/
  | inside
  /-- Inside a string, behind a backslash. -/
  | escaped
deriving DecidableEq, Repr

/-- Whether a comma behind `last` and before `rest` ends a container's last
element. -/
def isSuperfluousComma (last : Option Char) (rest : Text) : Bool :=
  let afterValue :=
    match last with
    | none => false
    | some c => !(c == '\x7b' || c == '[' || c == ',')
  let beforeEnd :=
    match skipBlanks rest with
    | [] => false
    | c :: _ => c == '\x7d' || c == ']'
  afterValue && beforeEnd

/-- A character of a string that is not behind a backslash. -/
def mendedChar (c : Char) : Text :=
  if c.toNat < 0x20 then unicodeEscape c else [c]

/-- What is written for the character `c` with `rest` behind it, and the region
of the character after it. -/
def mendStep (region : Region) (c : Char) (rest : Text) : Text × Region :=
  match region with
  | .escaped => ([c], .inside)
  | .inside =>
    if c = '\\' then ([c], .escaped)
    else if c = '"' then ([c], .outside (some c))
    else (mendedChar c, .inside)
  | .outside last =>
    if c = '"' then ([c], .inside)
    else if c = ',' then
      if isSuperfluousComma last rest then ([], .outside last) else ([c], .outside (some c))
    else ([c], .outside (if isBlank c then last else some c))

/-- Mends a text that starts in the given region. What has been written is kept
in reverse. -/
def mendFrom (region : Region) (reversed : Text) : Text → Text
  | [] => reversed.reverse
  | c :: rest =>
    let (written, region) := mendStep region c rest
    mendFrom region (written.reverseAux reversed) rest

/-- The mended text. -/
def mend (text : Text) : Text :=
  mendFrom (.outside none) [] text

end LogIntake.Json
