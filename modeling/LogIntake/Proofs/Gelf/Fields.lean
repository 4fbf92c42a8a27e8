import LogIntake.Gelf.Decoder
import LogIntake.Proofs.Logged
import LogIntake.Proofs.Message.History

/-!
# Additional fields of GELF documents

Whatever the entries of a document are, each offers at most one value to one field:
the field of its name without blanks at the ends. Whether a field is set already is
asked about the name with its blanks, however, and a message has no field under a
name with blanks at its ends.

An entry with a padded name therefore replaces the value of its field, and any other
entry gives way to it. The fields that remain after a run over all entries follow:
the last padded offer counts, else the value from before the run, else the first
offer without padding.
-/

namespace LogIntake.Gelf

/-! ## Offers -/

/-- The value that an entry offers to its field, if it may be an additional field and
its value is accepted. -/
def offered? (policy : Field.Policy) (entry : Text × Json) : Option Field.Value :=
  let name := fieldName entry.1
  if isAdditional entry.1 && policy.admits name then
    (fieldValue? name entry.2).value.bind (Message.accepted? policy name)
  else none

/-- The value that an entry offers to the field with the given name. -/
def offerTo? (policy : Field.Policy) (name : Text) (entry : Text × Json) : Option Field.Value :=
  if (fieldName entry.1).trim = name then offered? policy entry else none

/-- Whether the name that an entry gives has blanks at its ends. -/
def isPadded (entry : Text × Json) : Bool :=
  (fieldName entry.1).trim != fieldName entry.1

/-- The message after the given entries have been added. -/
def addEntries (policy : Field.Policy) (message : Message) (entries : Json.Members) : Message :=
  entries.foldl (fun message entry => (addEntry policy message entry).value) message

variable {policy : Field.Policy} {message : Message}

/-! ## One field -/

theorem value_addField (policy : Field.Policy) (name : Text) (value : Field.Value)
    (message : Message) :
    (addField policy name value message).value = message.apply (.field policy name value) := by
  simp only [addField, Message.apply]
  cases message.insert policy name value <;> rfl

/-- Adding a field changes the field of its name without blanks at the ends alone, and
only when the value is accepted. -/
theorem get?_addField (policy : Field.Policy) (name other : Text) (value : Field.Value)
    (message : Message) :
    (addField policy name value message).value.get? other =
      if name.trim = other then
        (Message.accepted? policy name value).or (message.get? other)
      else message.get? other := by
  rw [value_addField, Message.get?_apply, Message.Change.gives?]
  split
  · rfl
  · rw [Option.none_or]

theorem changesTo_addField (name : Text) (value : Field.Value) :
    message.ChangesTo (addField policy name value message).value := by
  rw [value_addField]
  exact .apply message _

/-! ## One entry -/

/-- What an entry makes of a message. -/
theorem value_addEntry (entry : Text × Json) :
    (addEntry policy message entry).value =
      if isAdditional entry.1 && !message.contains (fieldName entry.1) &&
          policy.admits (fieldName entry.1) then
        match (fieldValue? (fieldName entry.1) entry.2).value with
        | some value => (addField policy (fieldName entry.1) value message).value
        | none => message
      else message := by
  unfold addEntry
  dsimp only
  split
  · rw [Logged.value_bind]
    cases (fieldValue? (fieldName entry.1) entry.2).value <;> rfl
  · rfl

theorem changesTo_addEntry (policy : Field.Policy) (message : Message) (entry : Text × Json) :
    message.ChangesTo (addEntry policy message entry).value := by
  rw [value_addEntry]
  split
  · split
    · exact changesTo_addField _ _
    · exact .refl message
  · exact .refl message

/-- An entry offers its value unless there is a field under its very name. -/
theorem get?_addEntry (entry : Text × Json) (other : Text) :
    (addEntry policy message entry).value.get? other =
      if message.contains (fieldName entry.1) then message.get? other
      else (offerTo? policy other entry).or (message.get? other) := by
  rw [value_addEntry]
  unfold offerTo? offered?
  dsimp only
  cases contained : message.contains (fieldName entry.1) with
  | true => simp
  | false =>
      simp only [Bool.not_false, Bool.and_true, Bool.false_eq_true, if_false]
      split
      · cases (fieldValue? (fieldName entry.1) entry.2).value with
        | none => simp
        | some value =>
            dsimp only
            rw [get?_addField, Option.bind_some]
            split
            · rfl
            · rw [Option.none_or]
      · simp

/-- A padded offer replaces the value of its field, and any other offer gives way to
it. -/
theorem get?_addEntry_of_tidy (policy : Field.Policy) (tidy : message.Tidy)
    (entry : Text × Json) (other : Text) :
    (addEntry policy message entry).value.get? other =
      if isPadded entry then (offerTo? policy other entry).or (message.get? other)
      else (message.get? other).or (offerTo? policy other entry) := by
  rw [get?_addEntry, message.contains_eq_isSome_get?]
  cases padded : isPadded entry with
  | true =>
      rw [isPadded, bne_iff_ne] at padded
      simp [tidy.get?_eq_none padded]
  | false =>
      rw [isPadded, bne_eq_false_iff_eq] at padded
      simp only [Bool.false_eq_true, if_false]
      by_cases same : (fieldName entry.1).trim = other
      · rw [padded] at same
        subst same
        cases message.get? (fieldName entry.1) <;> simp
      · simp [offerTo?, same]

/-! ## All entries -/

theorem addEntries_cons (entry : Text × Json) (entries : Json.Members) :
    addEntries policy message (entry :: entries) =
      addEntries policy (addEntry policy message entry).value entries :=
  rfl

theorem addEntries_append (front back : Json.Members) :
    addEntries policy message (front ++ back) =
      addEntries policy (addEntries policy message front) back :=
  List.foldl_append

theorem changesTo_addEntries (policy : Field.Policy) (message : Message)
    (entries : Json.Members) : message.ChangesTo (addEntries policy message entries) :=
  .foldl (changesTo_addEntry policy) entries message

theorem tidy_addEntries (policy : Field.Policy) (entries : Json.Members) (tidy : message.Tidy) :
    (addEntries policy message entries).Tidy :=
  (changesTo_addEntries policy message entries).tidy tidy

theorem timestamp_addEntries (entries : Json.Members) :
    (addEntries policy message entries).timestamp = message.timestamp :=
  (changesTo_addEntries policy message entries).timestamp_eq

/-- The last value that a padded entry offers to the field with the given name. -/
def lastPadded? (policy : Field.Policy) (name : Text) (entries : Json.Members) :
    Option Field.Value :=
  (entries.filter isPadded).reverse.findSome? (offerTo? policy name)

/-- The first value that an entry without padding offers to the field with the given
name. -/
def firstUnpadded? (policy : Field.Policy) (name : Text) (entries : Json.Members) :
    Option Field.Value :=
  (entries.filter (!isPadded ·)).findSome? (offerTo? policy name)

/-- The fields that remain after all entries: the last padded offer counts, else the
value from before, else the first offer without padding. -/
theorem get?_addEntries (policy : Field.Policy) (tidy : message.Tidy) (entries : Json.Members)
    (name : Text) :
    (addEntries policy message entries).get? name =
      (lastPadded? policy name entries).or
        ((message.get? name).or (firstUnpadded? policy name entries)) := by
  unfold lastPadded? firstUnpadded?
  induction entries generalizing message with
  | nil => simp [addEntries]
  | cons entry entries ih =>
      have entryTidy := (changesTo_addEntry policy message entry).tidy tidy
      rw [addEntries_cons, ih entryTidy, get?_addEntry_of_tidy policy tidy]
      cases padded : isPadded entry with
      | true => simp [padded, List.findSome?_append, Option.or_assoc]
      | false =>
          cases offer : offerTo? policy name entry <;> simp [padded, offer]

/-- What is offered for one of the entries. -/
theorem exists_offer_of_findSome? {policy : Field.Policy} {name : Text} {held : Field.Value}
    {chosen entries : Json.Members} (subset : ∀ entry ∈ chosen, entry ∈ entries)
    (found : chosen.findSome? (offerTo? policy name) = some held) :
    ∃ entry ∈ entries, offerTo? policy name entry = some held := by
  obtain ⟨entry, member, offer⟩ := List.exists_of_findSome?_eq_some found
  exact ⟨entry, subset entry member, offer⟩

/-- A field that is set after all entries was set before or has been offered its value
by an entry. -/
theorem get?_addEntries_cases (tidy : message.Tidy) {entries : Json.Members} {name : Text}
    {held : Field.Value} (present : (addEntries policy message entries).get? name = some held) :
    message.get? name = some held ∨ ∃ entry ∈ entries, offerTo? policy name entry = some held := by
  rw [get?_addEntries policy tidy, Option.or_eq_some_iff, Option.or_eq_some_iff] at present
  rcases present with padded | ⟨-, before | ⟨-, unpadded⟩⟩
  · refine .inr (exists_offer_of_findSome? (fun entry member => ?_) padded)
    exact (List.mem_filter.mp (List.mem_reverse.mp member)).1
  · exact .inl before
  · refine .inr (exists_offer_of_findSome? (fun entry member => ?_) unpadded)
    exact (List.mem_filter.mp member).1

/-- A field that has been offered a value by one of the entries is set after all of
them. -/
theorem isSome_get?_addEntries (tidy : message.Tidy) {entries : Json.Members} {name : Text}
    {entry : Text × Json} (member : entry ∈ entries)
    (offers : (offerTo? policy name entry).isSome) :
    ((addEntries policy message entries).get? name).isSome := by
  rw [get?_addEntries policy tidy, Option.isSome_or, Option.isSome_or]
  cases padded : isPadded entry with
  | true =>
      have found : (lastPadded? policy name entries).isSome := by
        refine List.findSome?_isSome_iff.mpr ⟨entry, ?_, offers⟩
        exact List.mem_reverse.mpr (List.mem_filter.mpr ⟨member, padded⟩)
      rw [found, Bool.true_or]
  | false =>
      have found : (firstUnpadded? policy name entries).isSome := by
        refine List.findSome?_isSome_iff.mpr ⟨entry, ?_, offers⟩
        exact List.mem_filter.mpr ⟨member, by rw [padded, Bool.not_false]⟩
      rw [found, Bool.or_true, Bool.or_true]

/-- No text that is offered is empty or has blanks at its ends. -/
theorem isPlain_of_offerTo? {name text : Text} {entry : Text × Json}
    (offer : offerTo? policy name entry = some (.text text)) : Field.IsPlain text := by
  unfold offerTo? offered? at offer
  dsimp only at offer
  split at offer
  · split at offer
    · obtain ⟨value, -, accepted⟩ := Option.bind_eq_some_iff.mp offer
      exact Message.isPlain_of_accepted? accepted
    · contradiction
  · contradiction

/-! ## The message before its additional fields -/

/-- The message of a document before its additional fields: the main text, the host,
the timestamp and the well-known entries. -/
def startMessage (policy : Field.Policy) (raw : RawMessage) (members : Json.Members) : Message :=
  (addKnownFields policy members
    (Message.create (mainText members) (textAt? members hostKey)
      (timestamp raw members).value)).value

variable {raw : RawMessage} {members : Json.Members}

theorem value_toMessage :
    (toMessage policy raw members).value =
      addEntries policy (startMessage policy raw members) members := by
  unfold toMessage
  simp only [Logged.value_bind, Logged.value_foldlM]
  rfl

/-- The message after a slot has been filled, if there is a value for it. -/
def fillSlot (policy : Field.Policy) (message : Message) (known : Slot × Option Field.Value) :
    Message :=
  known.2.elim message fun value => (addField policy known.1.name value message).value

theorem changesTo_fillSlot (message : Message) (known : Slot × Option Field.Value) :
    message.ChangesTo (fillSlot policy message known) := by
  unfold fillSlot
  cases known.2 with
  | none => exact .refl message
  | some value => exact changesTo_addField _ _

theorem get?_fillSlot (known : Slot × Option Field.Value) (other : Text) :
    (fillSlot policy message known).get? other =
      if known.1.name = other then
        (known.2.bind (Message.accepted? policy other)).or (message.get? other)
      else message.get? other := by
  unfold fillSlot
  cases known.2 with
  | none => simp
  | some value =>
      rw [Option.elim_some, get?_addField, known.1.name_trim, Option.bind_some]
      split
      · rename_i same
        rw [same]
      · rfl

/-- The message after the given slots have been filled. -/
def fillSlots (policy : Field.Policy) (message : Message)
    (known : List (Slot × Option Field.Value)) : Message :=
  known.foldl (fillSlot policy) message

theorem value_addKnownFields :
    (addKnownFields policy members message).value =
      fillSlots policy message (knownFields members) := by
  unfold addKnownFields fillSlots
  rw [Logged.value_foldlM]
  congr
  funext message known
  rcases known with ⟨slot, value?⟩
  cases value? <;> rfl

section FillSlots

variable {known : List (Slot × Option Field.Value)}

theorem fillSlots_cons (first : Slot × Option Field.Value) :
    fillSlots policy message (first :: known) =
      fillSlots policy (fillSlot policy message first) known :=
  rfl

/-- Only the given slots are filled. -/
theorem get?_fillSlots_of_ne {name : Text} (other : ∀ filled ∈ known, filled.1.name ≠ name) :
    (fillSlots policy message known).get? name = message.get? name := by
  induction known generalizing message with
  | nil => rfl
  | cons first known ih =>
      rcases List.forall_mem_cons.mp other with ⟨firstOther, others⟩
      rw [fillSlots_cons, ih others, get?_fillSlot, if_neg firstOther]

/-- A slot that is given once holds its value, if it is accepted. -/
theorem get?_fillSlots {slot : Slot} {value? : Option Field.Value}
    (distinct : (known.map Prod.fst).Nodup) (filled : (slot, value?) ∈ known) :
    (fillSlots policy message known).get? slot.name =
      (value?.bind (Message.accepted? policy slot.name)).or (message.get? slot.name) := by
  induction known generalizing message with
  | nil => contradiction
  | cons first known ih =>
      rcases List.nodup_cons.mp distinct with ⟨firstOther, others⟩
      rw [fillSlots_cons]
      rcases List.mem_cons.mp filled with rfl | later
      · have notLater : ∀ next ∈ known, next.1.name ≠ slot.name := by
          intro next member same
          exact firstOther (List.mem_map.mpr ⟨next, member, Slot.name_inj.mp same⟩)
        rw [get?_fillSlots_of_ne notLater, get?_fillSlot, if_pos rfl]
      · have notFirst : first.1.name ≠ slot.name := by
          intro same
          exact firstOther (List.mem_map.mpr ⟨_, later, (Slot.name_inj.mp same).symm⟩)
        rw [ih others later, get?_fillSlot, if_neg notFirst]

end FillSlots

theorem changesTo_startMessage :
    (Message.create (mainText members) (textAt? members hostKey)
      (timestamp raw members).value).ChangesTo (startMessage policy raw members) := by
  rw [startMessage, value_addKnownFields]
  exact .foldl changesTo_fillSlot _ _

theorem tidy_startMessage : (startMessage policy raw members).Tidy :=
  changesTo_startMessage.tidy (Message.tidy_create _ _ _)

theorem timestamp_startMessage :
    (startMessage policy raw members).timestamp = (timestamp raw members).value :=
  changesTo_startMessage.timestamp_eq

/-- A document makes changes to the message of its mandatory entries. -/
theorem changesTo_toMessage :
    (Message.create (mainText members) (textAt? members hostKey)
      (timestamp raw members).value).ChangesTo (toMessage policy raw members).value := by
  rw [value_toMessage]
  exact changesTo_startMessage.trans (changesTo_addEntries policy _ members)

/-- The slots that well-known entries fill. -/
def knownSlots : List Slot :=
  [.fullMessage, .file, .line, .level, .facility]

theorem map_knownFields : (knownFields members).map Prod.fst = knownSlots :=
  rfl

/-- Well-known entries fill their own slots only. -/
theorem get?_startMessage_of_ne {name : Text} (other : ∀ slot ∈ knownSlots, slot.name ≠ name) :
    (startMessage policy raw members).get? name =
      (Message.create (mainText members) (textAt? members hostKey)
        (timestamp raw members).value).get? name := by
  rw [startMessage, value_addKnownFields]
  apply get?_fillSlots_of_ne
  intro known member
  apply other
  rw [← @map_knownFields members]
  exact List.mem_map_of_mem member

/-- Well-known entries fill no additional field. -/
theorem get?_startMessage_of_notSlot {name : Text} (notSlot : Slot.ofName? name = none) :
    (startMessage policy raw members).get? name = none := by
  have other := Slot.ofName?_eq_none_iff.mp notSlot
  rw [get?_startMessage_of_ne fun slot _ => other slot, Message.get?, notSlot]
  rfl

/-- The slot of a well-known entry holds what the entry gives, if it is accepted. -/
theorem get?_startMessage {slot : Slot} {value? : Option Field.Value}
    (known : (slot, value?) ∈ knownFields members) :
    (startMessage policy raw members).get? slot.name =
      value?.bind (Message.accepted? policy slot.name) := by
  have isKnown : slot ∈ knownSlots := by
    rw [← @map_knownFields members]
    exact List.mem_map_of_mem known
  have empty : (Message.create (mainText members) (textAt? members hostKey)
      (timestamp raw members).value).get? slot.name = none := by
    rw [Message.get?_slotName]
    cases slot <;> first | rfl | contradiction
  have distinct : ((knownFields members).map Prod.fst).Nodup := by
    rw [map_knownFields]
    decide
  rw [startMessage, value_addKnownFields, get?_fillSlots distinct known, empty, Option.or_none]

theorem get?_message_startMessage :
    (startMessage policy raw members).get? Slot.message.name =
      some (.text (mainText members)) := by
  rw [get?_startMessage_of_ne (by decide)]
  rfl

theorem get?_source_startMessage :
    (startMessage policy raw members).get? Slot.source.name =
      ((textAt? members hostKey).filter fun host => !host.isBlank).map .text := by
  rw [get?_startMessage_of_ne (by decide)]
  rfl

end LogIntake.Gelf
