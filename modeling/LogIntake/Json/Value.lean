import LogIntake.Binary64.Basic

/-!
# JSON values

A number is an integer or a double, as its notation decides; integers lie
between the least integer of 64 bits with sign and the greatest without.

The members of an object keep the order in which their keys first appeared. A
key that appears again takes the later value at the place of the first.
-/

namespace LogIntake

/-- A JSON number: integers and doubles are told apart. -/
inductive Json.Number
  | integer (value : Int)
  | double (value : Binary64)
deriving DecidableEq, Repr

/-- A JSON value. The members of an object are in order and have distinct keys. -/
inductive Json
  | null
  | bool (value : Bool)
  | number (value : Json.Number)
  | string (value : Text)
  | array (elements : List Json)
  | object (members : List (Text × Json))
deriving Repr

namespace Json

/-- The members of an object, in order. -/
abbrev Members :=
  List (Text × Json)

namespace Members

/-- The value under a key. -/
def find? (members : Members) (key : Text) : Option Json :=
  members.lookup key

/-- Gives `key` the value; a new key goes to the end. -/
def put (members : Members) (key : Text) (value : Json) : Members :=
  if members.any (·.1 == key) then
    members.map fun member => if member.1 = key then (key, value) else member
  else members ++ [(key, value)]

/-- The members that a sequence of entries leaves, repeated keys included. -/
def ofEntries (entries : List (Text × Json)) : Members :=
  entries.foldl (fun members entry => members.put entry.1 entry.2) []

end Members

/-- The members of an object; every other value has none. -/
def members : Json → Members
  | .object members => members
  | _ => []

end Json

end LogIntake
