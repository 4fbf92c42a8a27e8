import LogIntake.Message.Basic
import LogIntake.Proofs.Field
import LogIntake.Proofs.NameMap
import LogIntake.Proofs.Unbroken

/-!
# Fields of messages

Setting a field changes the value of one name, without blanks at its ends, and of
no other. Whether it is set at all depends on the policy, the name and the value,
but not on the message.

Names of additional fields have no blanks at their ends, so a message has no field
under any other name.
-/

namespace LogIntake

/-! ## Values in slots -/

theorem Slot.ofName?_eq_some_iff {name : Text} {slot : Slot} :
    Slot.ofName? name = some slot ↔ slot.name = name := by
  constructor
  · intro found
    simpa using List.find?_some found
  · rintro rfl
    cases slot <;> decide

theorem Slot.ofName?_eq_none_iff {name : Text} :
    Slot.ofName? name = none ↔ ∀ slot : Slot, slot.name ≠ name := by
  rw [Option.eq_none_iff_forall_ne_some]
  simp only [ne_eq, Slot.ofName?_eq_some_iff]

theorem Slot.isName_name (slot : Slot) : Field.isName slot.name = true := by
  cases slot <;> decide

theorem Slot.name_trim (slot : Slot) : slot.name.trim = slot.name :=
  (Field.trimmed_of_isName slot.isName_name).trim_eq

theorem Slot.name_inj {first second : Slot} : first.name = second.name ↔ first = second := by
  rw [← ofName?_eq_some_iff, ofName?_eq_some_iff.mpr rfl, Option.some.injEq, eq_comm]

/-- The value that a slot holds once it has been filled, if it takes the value. -/
def Slot.held? (slot : Slot) (value : Field.Value) : Option Field.Value :=
  match slot with
  | .timestamp => none
  | .line | .level => value.integer?.map .integer
  | _ => some (.text value.toText)

namespace Message

/-- The value that a field holds once it has been stored, if it takes the value. -/
def held? (name : Text) (value : Field.Value) : Option Field.Value :=
  match Slot.ofName? name with
  | some slot => slot.held? value
  | none => some value

/-- The value that a field holds once it has been set, if the policy, the name and
the value admit it. -/
def accepted? (policy : Field.Policy) (name : Text) (value : Field.Value) :
    Option Field.Value :=
  if Field.isName name.trim && policy.admits name.trim then
    value.normalized?.bind (held? name.trim)
  else none

theorem accepted?_eq {policy : Field.Policy} {name : Text} {value : Field.Value}
    (named : Field.isName name = true) (admitted : policy.admits name = true)
    (stored : value.normalized? = some value) :
    accepted? policy name value = held? name value := by
  simp [accepted?, (Field.trimmed_of_isName named).trim_eq, named, admitted, stored]

theorem held?_slotName (slot : Slot) (value : Field.Value) :
    held? slot.name value = slot.held? value := by
  rw [held?, Slot.ofName?_eq_some_iff.mpr rfl]

theorem accepted?_eq_some_iff {policy : Field.Policy} {name : Text} {value held : Field.Value} :
    accepted? policy name value = some held ↔
      Field.isName name.trim = true ∧ policy.admits name.trim = true ∧
        ∃ stored, value.normalized? = some stored ∧ held? name.trim stored = some held := by
  unfold accepted?
  split
  · rename_i admitted
    rw [Bool.and_eq_true] at admitted
    simp [admitted, Option.bind_eq_some_iff]
  · rename_i refused
    rw [Bool.and_eq_true] at refused
    constructor
    · exact nofun
    · rintro ⟨named, admitted, -⟩
      exact absurd ⟨named, admitted⟩ refused

/-- A text that a field holds is the text of the value that was stored. -/
theorem toText_of_held? {name text : Text} {value : Field.Value}
    (held : held? name value = some (.text text)) : value.toText = text := by
  unfold held? at held
  cases found : Slot.ofName? name with
  | none =>
      rw [found] at held
      cases held
      rfl
  | some slot =>
      rw [found] at held
      cases slot
      case timestamp => contradiction
      case line | level => simp [Slot.held?] at held
      all_goals simpa [Slot.held?] using held

/-- No text that is accepted is empty or has blanks at its ends. -/
theorem isPlain_of_accepted? {policy : Field.Policy} {name text : Text} {value : Field.Value}
    (accepted : accepted? policy name value = some (.text text)) : Field.IsPlain text := by
  obtain ⟨-, -, stored, normalized, held⟩ := accepted?_eq_some_iff.mp accepted
  rw [← toText_of_held? held]
  exact Field.Value.isPlain_toText normalized

/-- The names of additional fields have no blanks at their ends and belong to no
slot. -/
structure Tidy (message : Message) : Prop where
  trimmed : ∀ name, (message.additional.get? name).isSome → name.trim = name
  notSlot : ∀ name, (message.additional.get? name).isSome → Slot.ofName? name = none

variable {message : Message}

/-! ## Looking up -/

theorem contains_eq_isSome_get? (message : Message) (name : Text) :
    message.contains name = (message.get? name).isSome := by
  unfold contains get?
  split
  · rename_i slot _
    cases slot <;> simp [fills, slotValue?]
  · exact message.additional.contains_eq_isSome_get? name

/-- A message has no field under a name with blanks at its ends. -/
theorem Tidy.get?_eq_none {name : Text} (tidy : message.Tidy) (padded : name.trim ≠ name) :
    message.get? name = none := by
  unfold get?
  cases found : Slot.ofName? name with
  | some slot =>
      rw [Slot.ofName?_eq_some_iff] at found
      rw [← found, slot.name_trim] at padded
      contradiction
  | none =>
      cases held : message.additional.get? name with
      | none => rfl
      | some value => exact absurd (tidy.trimmed name (by simp [held])) padded

theorem Tidy.additional_eq_none {name : Text} {slot : Slot} (tidy : message.Tidy)
    (found : Slot.ofName? name = some slot) : message.additional.get? name = none := by
  cases held : message.additional.get? name with
  | none => rfl
  | some value =>
      have notSlot := tidy.notSlot name (by simp [held])
      rw [found] at notSlot
      contradiction

/-- Additional fields are looked up by name like any other. -/
theorem Tidy.get?_of_mem {name : Text} {value : Field.Value} (tidy : message.Tidy)
    (member : (name, value) ∈ message.additional.entries) :
    Slot.ofName? name = none ∧ message.get? name = some value := by
  have held := NameMap.get?_eq_some_iff.mpr member
  have notSlot := tidy.notSlot name (by simp [held])
  rw [get?, notSlot]
  exact ⟨rfl, held⟩

theorem tidy_create (text : Text) (source? : Option Text) (timestamp : Instant) :
    (create text source? timestamp).Tidy := by
  constructor <;>
    · intro name held
      simp [create] at held

/-! ## Setting -/

theorem get?_slotName (message : Message) (slot : Slot) :
    message.get? slot.name = message.slotValue? slot := by
  rw [get?, Slot.ofName?_eq_some_iff.mpr rfl]

/-- Tidy messages are told apart by their fields and their timestamps. -/
theorem eq_of_get?_eq {first second : Message} (firstTidy : first.Tidy) (secondTidy : second.Tidy)
    (timestamp_eq : first.timestamp = second.timestamp)
    (get?_eq : ∀ name, first.get? name = second.get? name) : first = second := by
  have slot_eq (slot : Slot) : first.slotValue? slot = second.slotValue? slot := by
    rw [← get?_slotName, ← get?_slotName, get?_eq]
  have additional_eq : first.additional = second.additional := by
    apply NameMap.eq_of_get?_eq
    intro name
    cases found : Slot.ofName? name with
    | some slot => rw [firstTidy.additional_eq_none found, secondTidy.additional_eq_none found]
    | none =>
        have name_eq := get?_eq name
        rwa [get?, get?, found] at name_eq
  have text_inj {a b : Option Text} : a.map Field.Value.text = b.map .text → a = b :=
    (Option.map_inj_right fun _ _ => Field.Value.text.inj).mp
  have integer_inj {a b : Option Int} : a.map Field.Value.integer = b.map .integer → a = b :=
    (Option.map_inj_right fun _ _ => Field.Value.integer.inj).mp
  have text_eq : first.text = second.text :=
    Field.Value.text.inj (Option.some.inj (slot_eq .message))
  have source_eq := text_inj (slot_eq .source)
  have fullMessage_eq := text_inj (slot_eq .fullMessage)
  have file_eq := text_inj (slot_eq .file)
  have line_eq := integer_inj (slot_eq .line)
  have level_eq := integer_inj (slot_eq .level)
  have facility_eq := text_inj (slot_eq .facility)
  cases first
  cases second
  rw [mk.injEq]
  exact ⟨text_eq, source_eq, timestamp_eq, fullMessage_eq, file_eq, line_eq, level_eq,
    facility_eq, additional_eq⟩

/-- Filling a slot changes the value in this slot alone. -/
theorem fill_spec (message : Message) (slot : Slot) (value : Field.Value) :
    match slot.held? value with
    | none => ∃ refusal, message.fill slot value = .error refusal
    | some held => ∃ filled, message.fill slot value = .ok filled ∧
        filled.additional = message.additional ∧ filled.timestamp = message.timestamp ∧
        ∀ other, filled.slotValue? other = if other = slot then some held else
          message.slotValue? other := by
  cases slot
  case timestamp => exact ⟨_, rfl⟩
  case line | level =>
      simp only [Slot.held?, fill]
      cases value.integer? with
      | none => exact ⟨_, rfl⟩
      | some n => exact ⟨_, rfl, rfl, rfl, fun other => by cases other <;> rfl⟩
  all_goals exact ⟨_, rfl, rfl, rfl, fun other => by cases other <;> rfl⟩

/-- Filling a slot changes the field of its name alone. -/
theorem get?_of_slotValue? {filled : Message} {slot : Slot} {held : Field.Value}
    (slots_eq : ∀ other, filled.slotValue? other = if other = slot then some held else
      message.slotValue? other)
    (additional_eq : filled.additional = message.additional) (name : Text) :
    filled.get? name = if name = slot.name then some held else message.get? name := by
  unfold get?
  cases found : Slot.ofName? name with
  | some other =>
      rw [Slot.ofName?_eq_some_iff] at found
      simp only [slots_eq, ← found, Slot.name_inj]
  | none =>
      have distinct : name ≠ slot.name := (Slot.ofName?_eq_none_iff.mp found slot).symm
      rw [if_neg distinct, additional_eq]

section Additional

variable {name : Text} (value : Field.Value) (notSlot : Slot.ofName? name = none)

include notSlot

/-- Storing an additional field changes the field of its name alone. -/
theorem get?_insertAdditional (other : Text) :
    ({ message with additional := message.additional.insert name value } : Message).get? other =
      if other = name then some value else message.get? other := by
  unfold get?
  cases found : Slot.ofName? other with
  | some slot =>
      have distinct : other ≠ name := by
        rintro rfl
        simp [notSlot] at found
      rw [if_neg distinct]
      rfl
  | none => exact NameMap.get?_insert _ _ _ _

theorem Tidy.insertAdditional (tidy : message.Tidy) (trimmed : name.trim = name) :
    ({ message with additional := message.additional.insert name value } : Message).Tidy := by
  have stored (other : Text)
      (held : ((message.additional.insert name value).get? other).isSome) :
      other = name ∨ (message.additional.get? other).isSome := by
    rw [NameMap.get?_insert] at held
    by_cases same : other = name
    · exact .inl same
    · exact .inr (by rwa [if_neg same] at held)
  constructor
  · intro other held
    rcases stored other held with rfl | before
    · exact trimmed
    · exact tidy.trimmed other before
  · intro other held
    rcases stored other held with rfl | before
    · exact notSlot
    · exact tidy.notSlot other before

end Additional

/-- Storing a value changes the field of its name alone. -/
theorem store_spec (message : Message) (name : Text) (value : Field.Value) :
    match held? name value with
    | none => ∃ refusal, message.store name value = .error refusal
    | some held => ∃ stored, message.store name value = .ok stored ∧
        (∀ other, stored.get? other = if other = name then some held else message.get? other) ∧
        stored.timestamp = message.timestamp ∧
        (message.Tidy → name.trim = name → stored.Tidy) := by
  unfold held? store
  cases found : Slot.ofName? name with
  | some slot =>
      have filled := message.fill_spec slot value
      dsimp only
      cases held_eq : slot.held? value with
      | none => simpa only [held_eq] using filled
      | some held =>
          simp only [held_eq] at filled
          obtain ⟨stored, stored_eq, additional_eq, timestamp_eq, slots_eq⟩ := filled
          rw [Slot.ofName?_eq_some_iff] at found
          subst found
          refine ⟨stored, stored_eq, get?_of_slotValue? slots_eq additional_eq, timestamp_eq,
            fun tidy _ => ⟨?_, ?_⟩⟩
          · rw [additional_eq]
            exact tidy.trimmed
          · rw [additional_eq]
            exact tidy.notSlot
  | none =>
      exact ⟨_, rfl, get?_insertAdditional value found, rfl,
        fun tidy => tidy.insertAdditional value found⟩

/-- Setting a field changes the field of its name without blanks at the ends alone,
and only when the value is accepted. -/
theorem insert_spec (message : Message) (policy : Field.Policy) (name : Text)
    (value : Field.Value) :
    match accepted? policy name value with
    | none => ∃ refusal, message.insert policy name value = .error refusal
    | some held => ∃ set, message.insert policy name value = .ok set ∧
        (∀ other, set.get? other = if other = name.trim then some held else message.get? other) ∧
        set.timestamp = message.timestamp ∧ (message.Tidy → set.Tidy) := by
  unfold accepted? insert
  dsimp only
  cases admitted : Field.isName name.trim && policy.admits name.trim with
  | false => exact ⟨_, rfl⟩
  | true =>
      cases normalized_eq : value.normalized? with
      | none => exact ⟨_, rfl⟩
      | some normalized =>
          have stored := message.store_spec name.trim normalized
          simp only [if_true, Option.bind_some]
          cases held_eq : held? name.trim normalized with
          | none => simpa only [held_eq] using stored
          | some held =>
              simp only [held_eq] at stored
              rcases stored with ⟨set, set_eq, get?_eq, timestamp_eq, tidy⟩
              exact ⟨set, set_eq, get?_eq, timestamp_eq,
                fun messageTidy => tidy messageTidy (Text.trim_trim name)⟩

/-- Replacing the source changes no other field. -/
theorem get?_withSource (message : Message) (source name : Text) :
    (message.withSource source).get? name =
      if name = Slot.source.name then some (.text source) else message.get? name := by
  have slots_eq (slot : Slot) : (message.withSource source).slotValue? slot =
      if slot = .source then some (.text source) else message.slotValue? slot := by
    cases slot <;> rfl
  exact get?_of_slotValue? slots_eq rfl name

theorem Tidy.withSource (tidy : message.Tidy) (source : Text) : (message.withSource source).Tidy :=
  ⟨tidy.trimmed, tidy.notSlot⟩

end Message

end LogIntake
