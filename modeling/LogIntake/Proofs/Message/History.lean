import LogIntake.Proofs.Message

/-!
# Histories of messages

Once it has been created, a message changes in two ways only: a field is set under
some policy, or the source is replaced. Each change gives a value to at most one
field, and whether it does so depends on the change alone. The value of a field is
therefore what the last change to it gave, or else what the message was created with.

Everything about the fields of a message follows from the values that changes give.
-/

namespace LogIntake.Message

/-- A change of a message. -/
inductive Change
  | field (policy : Field.Policy) (name : Text) (value : Field.Value)
  | source (source : Text)

/-- The message after a change. It stays as it is when it refuses a field. -/
def apply (message : Message) : Change → Message
  | .field policy name value =>
    match message.insert policy name value with
    | .ok set => set
    | .error _ => message
  | .source source => message.withSource source

/-- The message after changes in turn. -/
def after (message : Message) (changes : List Change) : Message :=
  changes.foldl apply message

/-- The value that a change gives to the field with the given name. -/
def Change.gives? (name : Text) : Change → Option Field.Value
  | .field policy key value => if key.trim = name then accepted? policy key value else none
  | .source text => if Slot.source.name = name then some (.text text) else none

variable {message : Message} {changes : List Change} {name : Text} {held : Field.Value}

/-! ## One change -/

theorem apply_spec (message : Message) (change : Change) :
    (∀ name, (message.apply change).get? name = (change.gives? name).or (message.get? name)) ∧
      (message.apply change).timestamp = message.timestamp ∧
      (message.Tidy → (message.apply change).Tidy) := by
  cases change with
  | field policy key value =>
      have spec := message.insert_spec policy key value
      unfold apply
      cases accepted_eq : accepted? policy key value with
      | none =>
          simp only [accepted_eq] at spec
          obtain ⟨refusal, refused⟩ := spec
          simp [refused, Change.gives?, accepted_eq]
      | some held =>
          simp only [accepted_eq] at spec
          obtain ⟨set, set_eq, get?_eq, timestamp_eq, setTidy⟩ := spec
          simp only [set_eq]
          refine ⟨fun name => ?_, timestamp_eq, setTidy⟩
          rw [get?_eq, Change.gives?, accepted_eq]
          by_cases same : name = key.trim
          · rw [if_pos same, if_pos same.symm, Option.some_or]
          · rw [if_neg same, if_neg (Ne.symm same), Option.none_or]
  | source source =>
      refine ⟨fun name => ?_, rfl, fun tidy => tidy.withSource source⟩
      rw [apply, get?_withSource, Change.gives?]
      by_cases same : name = Slot.source.name
      · rw [if_pos same, if_pos same.symm, Option.some_or]
      · rw [if_neg same, if_neg (Ne.symm same), Option.none_or]

theorem get?_apply (message : Message) (change : Change) (name : Text) :
    (message.apply change).get? name = (change.gives? name).or (message.get? name) :=
  (apply_spec message change).1 name

/-- What a field is given is admitted by the policy of the change under the name of
the field. -/
theorem Change.gives?_field_eq_some_iff {policy : Field.Policy} {key : Text}
    {value : Field.Value} :
    (Change.field policy key value).gives? name = some held ↔
      key.trim = name ∧ accepted? policy key value = some held := by
  simp [gives?]

/-- The texts that fields other than the source are given are not empty and have no
blanks at their ends. -/
theorem Change.isPlain_of_gives? {change : Change} {text : Text} (other : name ≠ Slot.source.name)
    (gives : change.gives? name = some (.text text)) : Field.IsPlain text := by
  cases change with
  | field policy key value => exact isPlain_of_accepted? (gives?_field_eq_some_iff.mp gives).2
  | source text => simp [gives?, Ne.symm other] at gives

/-! ## All changes -/

theorem after_cons (message : Message) (change : Change) (changes : List Change) :
    message.after (change :: changes) = (message.apply change).after changes :=
  rfl

theorem after_append (message : Message) (front back : List Change) :
    message.after (front ++ back) = (message.after front).after back :=
  List.foldl_append

theorem timestamp_after (message : Message) (changes : List Change) :
    (message.after changes).timestamp = message.timestamp := by
  induction changes generalizing message with
  | nil => rfl
  | cons change changes ih => rw [after_cons, ih, (apply_spec message change).2.1]

theorem Tidy.after (tidy : message.Tidy) (changes : List Change) :
    (message.after changes).Tidy := by
  induction changes generalizing message with
  | nil => exact tidy
  | cons change changes ih => exact ih ((apply_spec message change).2.2 tidy)

/-- The last change that gives a field a value decides it. -/
theorem get?_after (message : Message) (changes : List Change) (name : Text) :
    (message.after changes).get? name =
      (changes.reverse.findSome? (Change.gives? name)).or (message.get? name) := by
  induction changes generalizing message with
  | nil => rfl
  | cons change changes ih =>
      rw [after_cons, ih, get?_apply, List.reverse_cons, List.findSome?_append, Option.or_assoc,
        List.findSome?_singleton]

/-- A field that a message was not created with goes back to the last change that
gave it a value. -/
theorem exists_last_change (absent : message.get? name = none)
    (present : (message.after changes).get? name = some held) :
    ∃ front change back, changes = front ++ change :: back ∧ change.gives? name = some held ∧
      ∀ later ∈ back, later.gives? name = none := by
  rw [get?_after, absent, Option.or_none, List.findSome?_eq_some_iff] at present
  obtain ⟨back, change, front, reverse_eq, gives, later⟩ := present
  refine ⟨front.reverse, change, back.reverse, ?_, gives, fun next member => ?_⟩
  · rw [← List.reverse_reverse changes, reverse_eq]
    simp
  · exact later next (List.mem_reverse.mp member)

/-! ## Messages that changes lead to -/

/-- Some changes make the second message of the first. -/
def ChangesTo (first second : Message) : Prop :=
  ∃ changes, second = first.after changes

namespace ChangesTo

variable {first second third : Message}

theorem refl (message : Message) : message.ChangesTo message :=
  ⟨[], rfl⟩

theorem apply (message : Message) (change : Change) : message.ChangesTo (message.apply change) :=
  ⟨[change], rfl⟩

theorem trans (front : first.ChangesTo second) (back : second.ChangesTo third) :
    first.ChangesTo third := by
  obtain ⟨earlier, rfl⟩ := front
  obtain ⟨later, rfl⟩ := back
  exact ⟨earlier ++ later, (after_append _ _ _).symm⟩

/-- Steps that are made of changes add up to changes. -/
theorem foldl {α : Type} {step : Message → α → Message}
    (changes : ∀ message item, ChangesTo message (step message item)) (items : List α)
    (message : Message) : message.ChangesTo (items.foldl step message) := by
  induction items generalizing message with
  | nil => exact refl message
  | cons item items ih => exact (changes message item).trans (ih (step message item))

theorem tidy (changed : first.ChangesTo second) (firstTidy : first.Tidy) : second.Tidy := by
  obtain ⟨changes, rfl⟩ := changed
  exact firstTidy.after changes

theorem timestamp_eq (changed : first.ChangesTo second) : second.timestamp = first.timestamp := by
  obtain ⟨changes, rfl⟩ := changed
  exact timestamp_after first changes

end ChangesTo

/-! ## From creation on -/

/-- The slots that a message is created with. -/
def createdSlots : List Slot :=
  [.message, .source, .timestamp]

/-- A message is created with a text, a timestamp and perhaps a source. -/
theorem get?_create_eq_none (text : Text) (source? : Option Text) (timestamp : Instant)
    (other : ∀ slot ∈ createdSlots, slot.name ≠ name) :
    (create text source? timestamp).get? name = none := by
  unfold get?
  cases found : Slot.ofName? name with
  | none => exact NameMap.get?_empty name
  | some slot =>
      rw [Slot.ofName?_eq_some_iff] at found
      have notCreated : slot ∉ createdSlots := fun member => other slot member found
      cases slot <;> first | rfl | exact absurd (by decide) notCreated

/-- A field was stored by a change whose policy admits its name, and no later change
gave it a value. -/
def IsLastStored (start : Message) (changes : List Change) (name : Text)
    (value : Field.Value) : Prop :=
  ∃ front policy key given back stored,
    changes = front ++ .field policy key given :: back ∧ key.trim = name ∧
      policy.admits name = true ∧ (start.after front).insert policy key given = .ok stored ∧
      stored.get? name = some value ∧ ∀ later ∈ back, later.gives? name = none

/-- Fields that a message was not created with have been stored by a change, unless
they are the source. -/
theorem isLastStored_of_get? {start : Message} (absent : start.get? name = none)
    (notSource : name ≠ Slot.source.name) (present : (start.after changes).get? name = some held) :
    Field.isName name = true ∧ IsLastStored start changes name held := by
  obtain ⟨front, change, back, rfl, gives, later⟩ := exists_last_change absent present
  cases change with
  | source source => simp [Change.gives?, Ne.symm notSource] at gives
  | field policy key value =>
      obtain ⟨rfl, accepted⟩ := Change.gives?_field_eq_some_iff.mp gives
      obtain ⟨named, admitted, -⟩ := accepted?_eq_some_iff.mp accepted
      have spec := (start.after front).insert_spec policy key value
      simp only [accepted] at spec
      obtain ⟨set, set_eq, get?_eq, -⟩ := spec
      refine ⟨named, front, policy, key, value, back, set, rfl, rfl, admitted, set_eq, ?_, later⟩
      rw [get?_eq, if_pos rfl]

/-- The texts of fields that a message was not created with have no blanks at their
ends. -/
theorem isPlain_of_get? {start : Message} {text : Text} (absent : start.get? name = none)
    (notSource : name ≠ Slot.source.name)
    (present : (start.after changes).get? name = some (.text text)) : Field.IsPlain text := by
  obtain ⟨_, _, _, -, gives, -⟩ := exists_last_change absent present
  exact Change.isPlain_of_gives? notSource gives

/-- After any changes, the additional fields have proper names other than those of the
slots, each admitted by the policy of the change that stored it, and no text of a
field is empty or has blanks at its ends. The timestamp stays, and the fields that are
contained are those with a value. -/
theorem normal_after_changes (text : Text) (source? : Option Text) (timestamp : Instant)
    (changes : List Change) :
    let start := create text source? timestamp
    let message := start.after changes
    (∀ name value, (name, value) ∈ message.additional.entries →
      name ∉ Slot.all.map Slot.name ∧ (name ≠ [] ∧ ∀ c ∈ name, Field.isNameChar c = true) ∧
        IsLastStored start changes name value ∧ ∀ text, value = .text text → Field.IsPlain text) ∧
      (∀ text, message.fullMessage? = some text ∨ message.file? = some text ∨
        message.facility? = some text → Field.IsPlain text) ∧
      message.timestamp = timestamp ∧
      ∀ name, message.contains name = true ↔ ∃ value, message.get? name = some value := by
  intro start message
  refine ⟨fun name value member => ?_, fun text filled => ?_, ?_, fun name => ?_⟩
  · have tidy : message.Tidy := (tidy_create text source? timestamp).after changes
    obtain ⟨notSlot, present⟩ := tidy.get?_of_mem member
    rw [Slot.ofName?_eq_none_iff] at notSlot
    have absent : start.get? name = none :=
      get?_create_eq_none text source? timestamp fun slot _ => notSlot slot
    have notSource : name ≠ Slot.source.name := (notSlot .source).symm
    obtain ⟨named, stored⟩ := isLastStored_of_get? absent notSource present
    refine ⟨?_, Field.isName_iff.mp named, stored, ?_⟩
    · intro isSlot
      obtain ⟨slot, -, name_eq⟩ := List.mem_map.mp isSlot
      exact notSlot slot name_eq
    · rintro text rfl
      exact isPlain_of_get? absent notSource present
  · have plain (slot : Slot) (notCreated : slot ∉ createdSlots)
        (held : message.slotValue? slot = some (.text text)) : Field.IsPlain text := by
      rw [← get?_slotName] at held
      refine isPlain_of_get? (get?_create_eq_none _ _ _ ?_) ?_ held
      · rintro other created same
        exact notCreated (Slot.name_inj.mp same ▸ created)
      · intro same
        exact notCreated (Slot.name_inj.mp same ▸ by decide)
    rcases filled with filled | filled | filled
    · exact plain .fullMessage (by decide) (congrArg (Option.map Field.Value.text) filled)
    · exact plain .file (by decide) (congrArg (Option.map Field.Value.text) filled)
    · exact plain .facility (by decide) (congrArg (Option.map Field.Value.text) filled)
  · exact timestamp_after start changes
  · rw [contains_eq_isSome_get?, Option.isSome_iff_exists]

/-- Of two changes to one field, the policy of the second does not admit its name. -/
theorem normal_after_refused_change :
    let name := "user".toList
    let first := Change.field .standard " user ".toList (.text " bob ".toList)
    let second := Change.field (.ofLists [name] []) name (.text "eve".toList)
    IsLastStored (create ['m'] none ⟨0, 0⟩) [first, second] name (.text "bob".toList) ∧
      Field.IsPlain "bob".toList := by
  intro name first second
  obtain ⟨fields, -⟩ := normal_after_changes ['m'] none ⟨0, 0⟩ [first, second]
  obtain ⟨-, -, stored, plain⟩ := fields name (.text "bob".toList) (by decide +kernel)
  exact ⟨stored, plain _ rfl⟩

end LogIntake.Message
