import LogIntake.Configuration.Settings
import LogIntake.Proofs.Digits
import LogIntake.Proofs.Trim

/-!
# What configurations give

An option holds nothing when its value is null or blank, and an unsigned integer when
its value is one or the numeral of one. Every other value under the key of a number is
refused under this key.

A configuration fits a schema when it sets every mandatory option.
-/

namespace LogIntake

/-! ## Unsigned integers -/

namespace Configuration

/-- A value that leaves an option of a number unset. -/
inductive Unset : Option Json → Prop
  | absent : Unset none
  | null : Unset (some .null)
  | blank {text : Text} (blank : text.isBlank = true) : Unset (some (.string text))

/-- The unsigned integers of 64 bits that a value stands for. A numeral may stand
between blanks. -/
inductive Denotes (n : Nat) : Json → Prop
  | number (fits : n < 2 ^ 64) : Denotes n (.number (.integer n))
  | text {text : Text} (fits : n < 2 ^ 64) (numeral : Text.IsNumeral n text.trim) :
    Denotes n (.string text)

theorem Denotes.lt {n : Nat} {value : Json} (denotes : Denotes n value) : n < 2 ^ 64 := by
  cases denotes with
  | number fits => exact fits
  | text fits _ => exact fits

theorem isBlank_eq_false_of_isNumeral {text : Text} {n : Nat}
    (numeral : Text.IsNumeral n text.trim) : text.isBlank = false := by
  cases blank : text.isBlank with
  | false => rfl
  | true =>
      rw [Text.trim_eq_nil_of_isBlank blank, ← Text.natural?_eq_some_iff] at numeral
      contradiction

theorem unsigned?_eq_unset_iff {value : Json} :
    unsigned? value = some none ↔ Unset (some value) := by
  constructor
  · intro read
    cases value with
    | null => exact .null
    | string text =>
        cases blank : text.isBlank with
        | true => exact .blank blank
        | false => simp [unsigned?, blank] at read
    | number number =>
        cases number with
        | integer n => simp [unsigned?] at read
        | double x => contradiction
    | bool value => contradiction
    | array elements => contradiction
    | object members => contradiction
  · intro unset
    cases unset with
    | null => rfl
    | blank blank => simp [unsigned?, blank]

theorem unsigned?_eq_some_iff {value : Json} {n : Nat}
    (integers : ∀ m, value = .number (.integer m) → Json.FitsNumeral m) :
    unsigned? value = some (some n) ↔ Denotes n value := by
  constructor
  · intro read
    cases value with
    | null => simp [unsigned?] at read
    | string text =>
        cases blank : text.isBlank with
        | true => simp [unsigned?, blank] at read
        | false =>
            have read : Text.uint64? text.trim = some n := by
              simpa [unsigned?, blank] using read
            rcases Text.uint64?_eq_some_iff.mp read with ⟨numeral, fits⟩
            exact .text fits numeral
    | number number =>
        cases number with
        | integer m =>
            have fits : m < 2 ^ 64 := (integers m rfl).2
            obtain ⟨nonnegative, rfl⟩ : 0 ≤ m ∧ m.toNat = n := by
              simpa [unsigned?] using read
            have m_eq : m = (m.toNat : Int) := by omega
            rw [m_eq]
            exact .number (by omega)
        | double x => contradiction
    | bool value => contradiction
    | array elements => contradiction
    | object members => contradiction
  · intro denotes
    cases denotes with
    | number fits => simp [unsigned?]
    | text fits numeral =>
        have read := Text.uint64?_eq_some_iff.mpr ⟨numeral, fits⟩
        simp [unsigned?, isBlank_eq_false_of_isNumeral numeral, read]

/-- A configuration whose integer under a key, if there is one, is one that JSON can
hold. -/
def FitsAt (configuration : Configuration) (key : Text) : Prop :=
  ∀ n, configuration.get? key = some (.number (.integer n)) → Json.FitsNumeral n

variable {configuration : Configuration} {key : Text}

theorem natural?_eq_unset_iff :
    configuration.natural? key = .ok none ↔ Unset (configuration.get? key) := by
  unfold natural?
  cases configuration.get? key with
  | none => exact ⟨fun _ => .absent, fun _ => rfl⟩
  | some value =>
      rw [← unsigned?_eq_unset_iff]
      cases read : unsigned? value <;> simp [read]

theorem natural?_eq_some_iff (fits : configuration.FitsAt key) {n : Nat} :
    configuration.natural? key = .ok (some n) ↔
      ∃ value, configuration.get? key = some value ∧ Denotes n value := by
  unfold natural?
  cases found : configuration.get? key with
  | none => simp
  | some value =>
      have integers : ∀ m, value = .number (.integer m) → Json.FitsNumeral m := by
        rintro m rfl
        exact fits m found
      simp only [Option.some.injEq, exists_eq_left']
      rw [← unsigned?_eq_some_iff integers]
      cases unsigned? value <;> simp

/-- A value that is neither unset nor an unsigned integer is refused under its key. -/
theorem exists_fault_of_natural? {error : Configuration.Error}
    (failed : configuration.natural? key = .error error) :
    ∃ value, configuration.get? key = some value ∧
      error = .invalidValue key (.notUnsigned value) := by
  unfold natural? at failed
  cases found : configuration.get? key with
  | none =>
      rw [found] at failed
      contradiction
  | some value =>
      rw [found] at failed
      cases read : unsigned? value with
      | some n? => simp [read] at failed
      | none => exact ⟨value, rfl, by simpa [read] using failed.symm⟩

end Configuration

/-! ## Schemas -/

/-- An option that is not set as it must be is reported under its key. -/
theorem OptionField.exists_fault_of_check {field : OptionField} {configuration : Configuration}
    {error : Configuration.Error} (failed : field.check configuration = .error error) :
    ∃ fault, error = .invalidValue field.key fault := by
  unfold check at failed
  split at failed
  · contradiction
  · split at failed
    · rename_i read
      cases failed
      unfold isSetIn at read
      cases kind : field.kind with
      | text =>
          rw [kind] at read
          contradiction
      | number =>
          rw [kind] at read
          cases number : configuration.natural? field.key with
          | ok n? =>
              rw [number] at read
              contradiction
          | error fault =>
              obtain ⟨value, -, rfl⟩ := Configuration.exists_fault_of_natural? number
              rw [number] at read
              cases read
              exact ⟨_, rfl⟩
    · contradiction
    · cases failed
      exact ⟨_, rfl⟩

namespace Schema

variable {schema : Schema} {configuration : Configuration}

theorem check_cons (field : OptionField) (fields : List OptionField) :
    check ⟨field :: fields⟩ configuration =
      (field.check configuration).bind fun _ => check ⟨fields⟩ configuration :=
  List.forM_cons

/-- The first option that is not set as it must be is reported. -/
theorem check_eq_error_iff {error : Configuration.Error} :
    schema.check configuration = .error error ↔
      ∃ front field back, schema.fields = front ++ field :: back ∧
        (∀ earlier ∈ front, earlier.check configuration = .ok ()) ∧
        field.check configuration = .error error := by
  rcases schema with ⟨fields⟩
  dsimp only
  induction fields with
  | nil =>
      constructor
      · exact nofun
      · rintro ⟨front, field, back, fields_eq, -⟩
        cases front <;> contradiction
  | cons first fields ih =>
      rw [check_cons]
      constructor
      · intro failed
        cases checked : first.check configuration with
        | error found =>
            rw [checked] at failed
            cases failed
            exact ⟨[], first, fields, rfl, nofun, checked⟩
        | ok _ =>
            rw [checked] at failed
            obtain ⟨front, field, back, rfl, passed, fails⟩ := ih.mp failed
            exact ⟨first :: front, field, back, rfl,
              List.forall_mem_cons.mpr ⟨checked, passed⟩, fails⟩
      · rintro ⟨front, field, back, fields_eq, passed, fails⟩
        cases front with
        | nil =>
            cases fields_eq
            rw [fails]
            rfl
        | cons _ front =>
            cases fields_eq
            rcases List.forall_mem_cons.mp passed with ⟨firstPassed, frontPassed⟩
            rw [firstPassed]
            exact ih.mpr ⟨front, field, back, rfl, frontPassed, fails⟩

theorem exists_field_of_check {error : Configuration.Error}
    (failed : schema.check configuration = .error error) :
    ∃ field ∈ schema.fields, field.check configuration = .error error := by
  obtain ⟨front, field, back, fields_eq, -, fails⟩ := check_eq_error_iff.mp failed
  rw [fields_eq]
  exact ⟨field, List.mem_append_right front List.mem_cons_self, fails⟩

/-- A schema refuses nothing but the value of an option. -/
theorem exists_fault_of_check {error : Configuration.Error}
    (failed : schema.check configuration = .error error) :
    ∃ key fault, error = .invalidValue key fault := by
  obtain ⟨field, -, failed⟩ := exists_field_of_check failed
  obtain ⟨fault, rfl⟩ := OptionField.exists_fault_of_check failed
  exact ⟨field.key, fault, rfl⟩

/-- Without mandatory options there is nothing to refuse. -/
theorem check_eq_ok_of_optional (optional : ∀ field ∈ schema.fields, field.isOptional = true) :
    schema.check configuration = .ok () := by
  cases checked : schema.check configuration with
  | ok _ => rfl
  | error error =>
      obtain ⟨field, member, failed⟩ := exists_field_of_check checked
      rw [OptionField.check, optional field member] at failed
      contradiction

end Schema

/-! ## Charsets -/

namespace Charset

/-- The name of a charset and its aliases. -/
def names (charset : Charset) : List Text :=
  charset.name :: charset.aliases.map String.toList

/-- A name of a charset, in any case and between blanks. -/
def IsKnown (name : Text) : Prop :=
  ∃ charset : Charset, ∃ known ∈ charset.names, name.trim.toAsciiLower = known.toAsciiLower

theorem mem_all (charset : Charset) : charset ∈ all := by
  cases charset <;> decide

/-- The aliases are the names in small letters. -/
theorem mem_map_names_iff {charset : Charset} {name : Text} :
    name ∈ charset.names.map Text.toAsciiLower ↔ name ∈ charset.aliases.map String.toList := by
  have names_eq : charset.names.map Text.toAsciiLower =
      charset.name.toAsciiLower :: charset.aliases.map String.toList := by
    cases charset <;> decide +kernel
  have lower : charset.name.toAsciiLower ∈ charset.aliases.map String.toList := by
    cases charset <;> decide +kernel
  rw [names_eq, List.mem_cons]
  constructor
  · rintro (rfl | member)
    · exact lower
    · exact member
  · exact .inr

theorem isNamed_iff {charset : Charset} {name : Text} :
    charset.isNamed name = true ↔
      ∃ known ∈ charset.names, name.trim.toAsciiLower = known.toAsciiLower := by
  have known_iff : name.trim.toAsciiLower ∈ charset.names.map Text.toAsciiLower ↔
      name.trim.toAsciiLower ∈ charset.aliases.map String.toList := mem_map_names_iff
  simp only [List.mem_map] at known_iff
  simp only [isNamed, List.any_eq_true, beq_iff_eq]
  rw [← known_iff]
  simp only [eq_comm]

theorem isSome_ofName?_iff {name : Text} : (ofName? name).isSome = true ↔ IsKnown name := by
  rw [ofName?, List.find?_isSome]
  constructor
  · rintro ⟨charset, -, named⟩
    exact ⟨charset, isNamed_iff.mp named⟩
  · rintro ⟨charset, known⟩
    exact ⟨charset, mem_all charset, isNamed_iff.mpr known⟩

end Charset

theorem Configuration.text?_eq_some_iff {configuration : Configuration} {key text : Text} :
    configuration.text? key = some text ↔
      configuration.get? key = some (.string text) ∧ text.isBlank = false := by
  unfold text?
  split
  · rename_i found
    rw [found]
    split
    · rename_i blank
      simp only [reduceCtorEq, Option.some.injEq, Json.string.injEq, false_iff, not_and]
      rintro rfl filled
      exact absurd (blank.symm.trans filled) (by decide)
    · rename_i filled
      simp only [Option.some.injEq, Json.string.injEq]
      constructor
      · rintro rfl
        exact ⟨rfl, by simpa using filled⟩
      · rintro ⟨rfl, -⟩
        rfl
  · rename_i other
    simp only [reduceCtorEq, false_iff, not_and]
    intro found
    exact absurd found (other text)

/-- Without a configuration no text is set. -/
theorem Configuration.bind_text?_eq_some_iff {configuration? : Option Configuration}
    {key text : Text} : configuration?.bind (·.text? key) = some text ↔
      configuration?.bind (·.get? key) = some (.string text) ∧ text.isBlank = false := by
  cases configuration? with
  | none => simp
  | some configuration => exact Configuration.text?_eq_some_iff

/-- A charset is refused when it is set to a text that names none. -/
theorem Settings.exists_charset_iff {configuration? : Option Configuration} :
    (∃ charset, charsetOf configuration? = .ok charset) ↔
      ∀ name, configuration?.bind (·.get? charsetKey) = some (.string name) →
        name.isBlank = false → Charset.IsKnown name := by
  unfold charsetOf
  cases found : configuration?.bind (·.text? charsetKey) with
  | none =>
      refine ⟨fun _ name held filled => ?_, fun _ => ⟨.utf8, rfl⟩⟩
      rw [Configuration.bind_text?_eq_some_iff.mpr ⟨held, filled⟩] at found
      contradiction
  | some name =>
      have only : ∀ other, configuration?.bind (·.get? charsetKey) = some (.string other) ∧
          other.isBlank = false ↔ name = other := by
        intro other
        rw [← Configuration.bind_text?_eq_some_iff, found, Option.some.injEq]
      simp only [← and_imp, only, forall_eq', ← Charset.isSome_ofName?_iff]
      cases Charset.ofName? name <;> simp

end LogIntake
