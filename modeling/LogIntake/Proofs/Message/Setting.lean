import LogIntake.Proofs.Binary64.Truncation
import LogIntake.Proofs.Digits
import LogIntake.Proofs.Message.History

/-!
# Setting one field

Setting a field writes the value of one name or nothing at all. A text loses the blanks
at its ends first; then the slots of texts take any value in its notation, the slots of
integers take what stands for an integer of 64 bits, and an additional field takes the
value itself.
-/

namespace LogIntake

/-! ## Values that are ready to be stored -/

namespace Field.Value

/-- The value, without blanks at the ends if it is a text. -/
def trimmed : Field.Value → Field.Value
  | text value => text value.trim
  | value => value

/-- The integer that a value stands for: a finite double loses its fraction and goes to
the nearer end of the range if it lies outside, and a text is a signed numeral in the
range. -/
inductive StandsFor : Field.Value → Int → Prop
  | integer (n : Int) : StandsFor (.integer n) n
  | double {x : Binary64} (finite : x.isFinite = true) :
    StandsFor (.double x) (Binary64.saturate (Binary64.towardsZero x.value))
  | text {numeral : Text} {n : Int} (signed : Text.IsSigned n numeral)
    (fits : Text.minInt64 ≤ n ∧ n ≤ Text.maxInt64) : StandsFor (.text numeral) n

theorem normalized?_eq_some_iff {value stored : Field.Value} :
    value.normalized? = some stored ↔
      (∀ text, value = .text text → text.isBlank = false) ∧ stored = value.trimmed := by
  cases value with
  | text text => simp [normalized?, trimmed, @eq_comm _ _ stored]
  | integer n => simp [normalized?, trimmed, @eq_comm _ _ stored]
  | double x => simp [normalized?, trimmed, @eq_comm _ _ stored]

theorem integer?_eq_some_iff {value : Field.Value} {n : Int} :
    value.integer? = some n ↔ value.StandsFor n := by
  constructor
  · intro integer_eq
    cases value with
    | integer m =>
        cases integer_eq
        exact .integer n
    | double x =>
        rw [integer?] at integer_eq
        split at integer_eq
        · rename_i finite
          cases integer_eq
          rw [Binary64.toInt64_eq finite]
          exact .double finite
        · contradiction
    | text numeral =>
        obtain ⟨signed, fits⟩ := Text.int64?_eq_some_iff.mp integer_eq
        exact .text signed fits
  · rintro (_ | finite | ⟨signed, fits⟩)
    · rfl
    · rw [integer?, if_pos finite, Binary64.toInt64_eq finite]
    · exact Text.int64?_eq_some_iff.mpr ⟨signed, fits⟩

end Field.Value

/-- The slots that take any value as a text. -/
def Slot.texts : List Slot :=
  [.message, .source, .fullMessage, .file, .facility]

/-- The slots that take integers only. -/
def Slot.integers : List Slot :=
  [.line, .level]

namespace Slot

variable {slot : Slot}

/-- Only the timestamp takes neither. -/
theorem mem_texts_or_integers (slot : Slot) :
    slot ∈ texts ∨ slot ∈ integers ∨ slot = .timestamp := by
  cases slot <;> decide

theorem held?_of_mem_texts (isText : slot ∈ texts) (value : Field.Value) :
    slot.held? value = some (.text value.toText) := by
  cases slot <;> first | rfl | exact absurd isText (by decide)

theorem held?_of_mem_integers (isInteger : slot ∈ integers) (value : Field.Value) :
    slot.held? value = value.integer?.map .integer := by
  cases slot <;> first | rfl | exact absurd isInteger (by decide)

end Slot

namespace Message

/-- What the field of a name holds once a value has been stored there. -/
inductive Holds (value : Field.Value) : Text → Field.Value → Prop
  | text {slot : Slot} (isText : slot ∈ Slot.texts) : Holds value slot.name (.text value.toText)
  | integer {slot : Slot} {n : Int} (isInteger : slot ∈ Slot.integers)
    (stands : value.StandsFor n) : Holds value slot.name (.integer n)
  | additional {name : Text} (further : ∀ slot : Slot, slot.name ≠ name) : Holds value name value

variable {policy : Field.Policy} {key name : Text} {value held : Field.Value}

theorem held?_eq_some_iff : held? name value = some held ↔ Holds value name held := by
  constructor
  · intro held_eq
    unfold held? at held_eq
    cases found : Slot.ofName? name with
    | none =>
        rw [found] at held_eq
        cases held_eq
        exact .additional (Slot.ofName?_eq_none_iff.mp found)
    | some slot =>
        rw [found] at held_eq
        rw [Slot.ofName?_eq_some_iff] at found
        subst found
        change slot.held? value = some held at held_eq
        rcases slot.mem_texts_or_integers with isText | isInteger | rfl
        · rw [Slot.held?_of_mem_texts isText] at held_eq
          cases held_eq
          exact .text isText
        · rw [Slot.held?_of_mem_integers isInteger] at held_eq
          obtain ⟨n, integer_eq, rfl⟩ := Option.map_eq_some_iff.mp held_eq
          exact .integer isInteger (Field.Value.integer?_eq_some_iff.mp integer_eq)
        · contradiction
  · rintro (isText | ⟨isInteger, stands⟩ | further)
    · rw [held?_slotName, Slot.held?_of_mem_texts isText]
    · rw [held?_slotName, Slot.held?_of_mem_integers isInteger,
        Field.Value.integer?_eq_some_iff.mpr stands, Option.map_some]
    · rw [held?, Slot.ofName?_eq_none_iff.mpr further]

/-- Nothing can be stored as the timestamp, and only integers as line and level. -/
theorem exists_holds_iff :
    (∃ held, Holds value name held) ↔
      name ≠ Slot.timestamp.name ∧
        ∀ slot ∈ Slot.integers, name = slot.name → ∃ n, value.StandsFor n := by
  constructor
  · rintro ⟨held, isText | ⟨isInteger, stands⟩ | further⟩
    · simp only [ne_eq, Slot.name_inj]
      constructor
      · rintro rfl
        exact absurd isText (by decide)
      · rintro other isInteger rfl
        have disjoint : ∀ slot ∈ Slot.texts, slot ∉ Slot.integers := by decide
        exact absurd isInteger (disjoint _ isText)
    · simp only [ne_eq, Slot.name_inj]
      constructor
      · rintro rfl
        exact absurd isInteger (by decide)
      · exact fun _ _ _ => ⟨_, stands⟩
    · exact ⟨fun isTimestamp => further _ isTimestamp.symm,
        fun slot _ isSlot => absurd isSlot.symm (further slot)⟩
  · rintro ⟨settable, integers⟩
    cases found : Slot.ofName? name with
    | none => exact ⟨value, .additional (Slot.ofName?_eq_none_iff.mp found)⟩
    | some slot =>
        rw [Slot.ofName?_eq_some_iff] at found
        subst found
        rcases slot.mem_texts_or_integers with isText | isInteger | rfl
        · exact ⟨_, .text isText⟩
        · obtain ⟨n, stands⟩ := integers slot isInteger rfl
          exact ⟨_, .integer isInteger stands⟩
        · contradiction

theorem accepted?_eq_some_iff_holds :
    accepted? policy key value = some held ↔
      Field.isName key.trim = true ∧ policy.admits key.trim = true ∧
        (∀ text, value = .text text → text.isBlank = false) ∧
          Holds value.trimmed key.trim held := by
  simp only [accepted?_eq_some_iff, Field.Value.normalized?_eq_some_iff, held?_eq_some_iff]
  constructor
  · rintro ⟨named, admitted, _, ⟨filled, rfl⟩, holds⟩
    exact ⟨named, admitted, filled, holds⟩
  · rintro ⟨named, admitted, filled, holds⟩
    exact ⟨named, admitted, _, ⟨filled, rfl⟩, holds⟩

theorem exists_accepted?_iff :
    (∃ held, accepted? policy key value = some held) ↔
      Field.isName key.trim = true ∧ policy.admits key.trim = true ∧
        (∀ text, value = .text text → text.isBlank = false) ∧
          key.trim ≠ Slot.timestamp.name ∧
            ∀ slot ∈ Slot.integers, key.trim = slot.name → ∃ n, value.trimmed.StandsFor n := by
  simp only [accepted?_eq_some_iff_holds, exists_and_left, exists_holds_iff]

theorem apply_of_insert_eq_ok {message set : Message}
    (stored : message.insert policy key value = .ok set) :
    message.apply (.field policy key value) = set := by
  rw [apply, stored]

theorem apply_of_insert_eq_error {message : Message} {refusal : Refusal}
    (refused : message.insert policy key value = .error refusal) :
    message.apply (.field policy key value) = message := by
  rw [apply, refused]

/-- Setting a field leaves the whole message as it is or gives a value to the field of
the name without blanks at its ends, and to no other. It is the value, a text trimmed,
as far as the field can hold it. The field is set exactly when the name is one, the
policy admits it, the value is no blank text, and the field is not the timestamp and,
if it is the line or the level, the value stands for an integer. -/
theorem apply_sets_one_field_or_none (message : Message) (policy : Field.Policy) (key : Text)
    (value : Field.Value) :
    let name := key.trim
    let result := message.insert policy key value
    let after := message.apply (.field policy key value)
    (∀ refusal, result = .error refusal → after = message) ∧
      (∀ set, result = .ok set → after = set ∧ set.timestamp = message.timestamp ∧
        (∃ held, Holds value.trimmed name held ∧ set.get? name = some held) ∧
        ∀ other, other ≠ name → set.get? other = message.get? other) ∧
      ((∃ set, result = .ok set) ↔
        (name ≠ [] ∧ ∀ c ∈ name, Field.isNameChar c = true) ∧ policy.admits name = true ∧
          (∀ text, value = .text text → text.isBlank = false) ∧ name ≠ Slot.timestamp.name ∧
          ∀ slot ∈ Slot.integers, name = slot.name → ∃ n, value.trimmed.StandsFor n) := by
  intro name result after
  -- the message plays no part in whether the field is set
  rw [← Field.isName_iff, ← exists_accepted?_iff]
  have spec := message.insert_spec policy key value
  cases accepted_eq : accepted? policy key value with
  | none =>
      simp only [accepted_eq] at spec
      obtain ⟨refusal, refused⟩ := spec
      have after_eq : after = message := apply_of_insert_eq_error refused
      rw [show result = .error refusal from refused]
      simp [after_eq]
  | some held =>
      simp only [accepted_eq] at spec
      obtain ⟨set, stored, get?_eq, timestamp_eq, -⟩ := spec
      have after_eq : after = set := apply_of_insert_eq_ok stored
      have holds := (accepted?_eq_some_iff_holds.mp accepted_eq).2.2.2
      rw [show result = .ok set from stored]
      refine ⟨nofun, ?_, by simp⟩
      rintro _ ⟨⟩
      refine ⟨after_eq, timestamp_eq, ⟨held, holds, ?_⟩, fun other distinct => ?_⟩
      · rw [get?_eq, if_pos rfl]
      · rw [get?_eq, if_neg distinct]

/-- A numeral sets the line and nothing else, and another text sets nothing. -/
theorem apply_line_text :
    let message := create ['m'] (some ['h']) ⟨0, 0⟩
    let after (text : Text) := message.apply (.field .standard " line ".toList (.text text))
    (after " -7 ".toList).get? "line".toList = some (.integer (-7)) ∧
      (after " -7 ".toList).get? "source".toList = some (.text ['h']) ∧
      after "7.5".toList = message := by
  intro message after
  obtain ⟨-, sets, sets_iff⟩ := apply_sets_one_field_or_none message .standard " line ".toList
    (.text " -7 ".toList)
  obtain ⟨refuses, -, refuses_iff⟩ := apply_sets_one_field_or_none message .standard
    " line ".toList (.text "7.5".toList)
  have named : Field.isName (Text.trim " line ".toList) = true := by decide +kernel
  obtain ⟨set, stored⟩ := sets_iff.mpr ⟨Field.isName_iff.mp named, by decide,
    by rintro _ ⟨⟩; decide, by decide,
    fun _ _ _ => ⟨-7, Field.Value.integer?_eq_some_iff.mp (by decide)⟩⟩
  obtain ⟨after_eq, -, ⟨held, holds, line_eq⟩, others⟩ := sets set stored
  have held_eq : some held = some (.integer (-7)) := (held?_eq_some_iff.mpr holds).symm
  rw [show after " -7 ".toList = set from after_eq]
  refine ⟨line_eq.trans held_eq, others _ (by decide), ?_⟩
  cases result_eq : message.insert .standard " line ".toList (.text "7.5".toList) with
  | error refusal => exact refuses refusal result_eq
  | ok _ =>
      obtain ⟨-, -, -, -, integers⟩ := refuses_iff.mp ⟨_, result_eq⟩
      obtain ⟨n, stands⟩ := integers .line (by decide) (by decide)
      have integer_eq := Field.Value.integer?_eq_some_iff.mpr stands
      contradiction

end Message

end LogIntake
