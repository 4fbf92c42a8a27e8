import LogIntake.Json.Printer
import LogIntake.Message.Basic

/-!
# Messages in JSON

A message is written as one flat object of its fields. Fields that are not set
are left out, and the timestamp is written as date and time. The text of a
message has the members in the order of their names.
-/

namespace LogIntake

namespace Json

/-- Puts a member before the first one with a greater or equal name. -/
def insertByName (member : Text × Json) : Members → Members
  | [] => [member]
  | first :: rest =>
      if first.1 < member.1 then first :: insertByName member rest
      else member :: first :: rest

/-- The members in the order of their names. -/
def sortByName (members : Members) : Members :=
  members.foldr insertByName []

end Json

namespace Message

/-- The member that a slot adds to the object, if it is filled. -/
def slotMember? (message : Message) : Slot → Option (Text × Json)
  | .timestamp => some (Slot.timestamp.name, .string message.timestamp.toText)
  | slot => (message.slotValue? slot).map fun value => (slot.name, value.toJson)

/-- The members of the object, the slots first. -/
def jsonMembers (message : Message) : Json.Members :=
  Slot.all.filterMap message.slotMember? ++
    message.additional.entries.map fun (name, value) => (name, value.toJson)

/-- The message as an object. -/
def toJson (message : Message) : Json :=
  .object message.jsonMembers

/-- The compact text of the message. -/
def toText (message : Message) : Text :=
  (Json.object (Json.sortByName message.jsonMembers)).toText

end Message

end LogIntake
