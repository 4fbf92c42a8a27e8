import LogIntake.Text.Digits

/-!
# Network addresses

An endpoint is an address of IP version 4 or 6 and the number of a service at
it; an address of version 6 may have a scope. Addresses of version 6 are written
in groups of hexadecimal digits without leading zeros, and the first of the
longest runs of two or more zero groups is left out. Those that map an address
of version 4 are written with that address at the end.
-/

namespace LogIntake

/-- An IP address of version 4, as four bytes, or 6, as eight groups. -/
inductive IpAddress
  | v4 (a b c d : Nat)
  | v6 (groups : List Nat)
deriving DecidableEq, Repr

/-- An address, with a scope that only version 6 has, and the number of a service
at it. -/
structure Endpoint where
  ip : IpAddress
  scope : Nat
  service : Nat
deriving DecidableEq, Repr

namespace IpAddress

/-! ## Writing -/

/-- The four bytes with points between them. -/
def v4Text (a b c d : Nat) : Text :=
  Text.concat
    [Text.ofNat a, ['.'], Text.ofNat b, ['.'], Text.ofNat c, ['.'], Text.ofNat d]

/-- Groups with colons between them. -/
def groupsText (groups : List Nat) : Text :=
  [':'].intercalate (groups.map Text.hex)

/-- The number of zeros at the front. -/
def zeroRun (groups : List Nat) : Nat :=
  (groups.takeWhile (· == 0)).length

/-- Start and length of the first of the longest runs of zeros. -/
def longestZeroRun (groups : List Nat) : Nat × Nat :=
  (List.range groups.length).foldl
    (fun best start =>
      let size := zeroRun (groups.drop start)
      if best.2 < size then (start, size) else best)
    (0, 0)

/-- The address that an address of version 6 maps, if it does. -/
def mapped? : List Nat → Option (Nat × Nat)
  | [0, 0, 0, 0, 0, 0xFFFF, high, low] => some (high, low)
  | _ => none

/-- The text of an address. -/
def toText : IpAddress → Text
  | v4 a b c d => v4Text a b c d
  | v6 groups =>
    match mapped? groups with
    | some (high, low) =>
      "::ffff:".toList ++ v4Text (high / 256) (high % 256) (low / 256) (low % 256)
    | none =>
      let (start, size) := longestZeroRun groups
      if size < 2 then groupsText groups
      else
        Text.concat
          [groupsText (groups.take start), "::".toList, groupsText (groups.drop (start + size))]

/-! ## Reading -/

/-- A decimal number below a bound. -/
def below? (bound : Nat) (text : Text) : Option Nat :=
  (Text.digits? text).filter (· < bound)

/-- Four bytes with points between them. -/
def ofV4Text? (text : Text) : Option (Nat × Nat × Nat × Nat) :=
  match (text.splitOn '.').mapM (below? 256) with
  | some [a, b, c, d] => some (a, b, c, d)
  | _ => none

/-- A group of one to four hexadecimal digits. -/
def group? (text : Text) : Option Nat := do
  let digits ← text.mapM Text.hexDigit?
  if 0 < digits.length ∧ digits.length ≤ 4 then
    some (digits.foldl (fun n digit => 16 * n + digit) 0)
  else none

/-- Groups with colons between them; an address of version 4 may stand for the
last two. -/
def groups? : List Text → Option (List Nat)
  | [] => some []
  | [last] =>
    match ofV4Text? last with
    | some (a, b, c, d) => some [a * 256 + b, c * 256 + d]
    | none => (group? last).map fun group => [group]
  | first :: rest => do
    let group ← group? first
    let groups ← groups? rest
    some (group :: groups)

/-- The groups of a text that may be empty. -/
def groupsOfText? (text : Text) : Option (List Nat) :=
  if text.isEmpty then some [] else groups? (text.splitOn ':')

/-- Parts a text at its first pair of colons. -/
def splitGap : Text → Option (Text × Text)
  | [] => none
  | [_] => none
  | c :: d :: rest =>
    if c = ':' ∧ d = ':' then some ([], rest)
    else (splitGap (d :: rest)).map fun (before, after) => (c :: before, after)

/-- Reads the groups of an address of version 6. -/
def ofV6Text? (text : Text) : Option (List Nat) :=
  match splitGap text with
  | none => (groupsOfText? text).filter (·.length == 8)
  | some (before, after) => do
    let before ← groupsOfText? before
    let after ← groupsOfText? after
    if before.length + after.length < 8 then
      some (before ++ List.replicate (8 - before.length - after.length) 0 ++ after)
    else none

end IpAddress

namespace Endpoint

/-- The text of an endpoint. -/
def toText (endpoint : Endpoint) : Text :=
  match endpoint.ip with
  | .v4 .. => Text.concat [endpoint.ip.toText, [':'], Text.ofNat endpoint.service]
  | .v6 _ =>
    let scope := if endpoint.scope = 0 then [] else '%' :: Text.ofNat endpoint.scope
    Text.concat [['['], endpoint.ip.toText, scope, "]:".toList, Text.ofNat endpoint.service]

/-- Reads an endpoint of version 6 behind its opening bracket. -/
def ofV6Text? (text : Text) : Option Endpoint := do
  let inner := text.takeWhile (· != ']')
  let address := inner.takeWhile (· != '%')
  let groups ← IpAddress.ofV6Text? address
  let scope ←
    match inner.dropWhile (· != '%') with
    | [] => some 0
    | _ :: digits => IpAddress.below? (Nat.pow 2 32) digits
  match text.dropWhile (· != ']') with
  | ']' :: ':' :: digits => do
    let service ← IpAddress.below? (Nat.pow 2 16) digits
    some ⟨.v6 groups, scope, service⟩
  | _ => none

/-- Reads an endpoint. -/
def ofText? : Text → Option Endpoint
  | '[' :: text => ofV6Text? text
  | text => do
    let (a, b, c, d) ← IpAddress.ofV4Text? (text.takeWhile (· != ':'))
    let service ← IpAddress.below? (Nat.pow 2 16) ((text.dropWhile (· != ':')).drop 1)
    some ⟨.v4 a b c d, 0, service⟩

end Endpoint

end LogIntake
