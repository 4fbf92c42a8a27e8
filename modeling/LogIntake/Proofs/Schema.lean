import Mathlib.Data.List.Induction
import Mathlib.Data.List.Nodup
import LogIntake.Proofs.Configuration
import LogIntake.Proofs.Json.Printable

/-!
# Declared options and what they ask for

A schema is what is left of a sequence of declarations when a later one under a key takes
the place of the earlier ones: the last declarations, one under each key, in the order in
which they were made.

A configuration is checked option by option in that order. Only mandatory options have a
say in it, and the first one that is not held as its kind demands is reported.
-/

namespace LogIntake

/-! ## Declarations -/

section Declarations

variable {declared : List OptionField} {field new first second : OptionField}

/-- An option that is declared, and not declared again under its key. -/
def IsLastDeclared (declared : List OptionField) (field : OptionField) : Prop :=
  ∃ front back, declared = front ++ field :: back ∧ ∀ later ∈ back, later.key ≠ field.key

/-- The last declaration of the first option comes before that of the second. -/
def DeclaredBefore (declared : List OptionField) (first second : OptionField) : Prop :=
  ∃ front middle back, declared = front ++ first :: (middle ++ second :: back) ∧
    (∀ later ∈ middle ++ second :: back, later.key ≠ first.key) ∧
    ∀ later ∈ back, later.key ≠ second.key

/-- A new declaration is the last one under its key. -/
theorem isLastDeclared_concat_iff :
    IsLastDeclared (declared ++ [new]) field ↔
      field = new ∨ IsLastDeclared declared field ∧ field.key ≠ new.key := by
  constructor
  · rintro ⟨front, back, declared_eq, last⟩
    rcases List.eq_nil_or_concat back with rfl | ⟨back, final, rfl⟩
    · rcases List.append_inj' declared_eq rfl with ⟨-, ends⟩
      exact .inl (List.singleton_inj.mp ends).symm
    · rw [List.concat_eq_append] at declared_eq last
      rw [← List.cons_append, ← List.append_assoc] at declared_eq
      rcases List.append_inj' declared_eq rfl with ⟨rfl, ends⟩
      cases ends
      rcases List.forall_mem_append.mp last with ⟨backLast, newLast⟩
      exact .inr ⟨⟨front, back, rfl, backLast⟩, (newLast new List.mem_cons_self).symm⟩
  · rintro (rfl | ⟨⟨front, back, rfl, last⟩, other⟩)
    · exact ⟨declared, [], rfl, nofun⟩
    · have newLast : ∀ later ∈ [new], later.key ≠ field.key := by simpa using other.symm
      exact ⟨front, back ++ [new], by simp, List.forall_mem_append.mpr ⟨last, newLast⟩⟩

/-- A declaration under another key changes no order. -/
theorem DeclaredBefore.concat (before : DeclaredBefore declared first second)
    (notFirst : first.key ≠ new.key) (notSecond : second.key ≠ new.key) :
    DeclaredBefore (declared ++ [new]) first second := by
  rcases before with ⟨front, middle, back, rfl, firstLast, secondLast⟩
  have notFirst : ∀ later ∈ [new], later.key ≠ first.key := by simpa using notFirst.symm
  have notSecond : ∀ later ∈ [new], later.key ≠ second.key := by simpa using notSecond.symm
  refine ⟨front, middle, back ++ [new], by simp, ?_,
    List.forall_mem_append.mpr ⟨secondLast, notSecond⟩⟩
  rw [← List.cons_append, ← List.append_assoc]
  exact List.forall_mem_append.mpr ⟨firstLast, notFirst⟩

/-- A new declaration comes behind all the others. -/
theorem IsLastDeclared.before_concat (last : IsLastDeclared declared field)
    (other : field.key ≠ new.key) : DeclaredBefore (declared ++ [new]) field new := by
  rcases last with ⟨front, back, rfl, last⟩
  have other : ∀ later ∈ [new], later.key ≠ field.key := by simpa using other.symm
  exact ⟨front, back, [], by simp, List.forall_mem_append.mpr ⟨last, other⟩, nofun⟩

theorem DeclaredBefore.key_ne (before : DeclaredBefore declared first second) :
    first.key ≠ second.key := by
  rcases before with ⟨front, middle, back, -, firstLast, -⟩
  exact (firstLast second (List.mem_append_right middle List.mem_cons_self)).symm

end Declarations

namespace Schema

variable {declared : List OptionField} {field : OptionField} {key : Text}

theorem ofList_concat (declared : List OptionField) (new : OptionField) :
    ofList (declared ++ [new]) = (ofList declared).declare new := by
  rw [ofList, ofList, List.foldl_append]
  rfl

theorem mem_fields_declare {schema : Schema} {new : OptionField} :
    field ∈ (schema.declare new).fields ↔
      field ∈ schema.fields ∧ field.key ≠ new.key ∨ field = new := by
  simp [declare]

/-- The fields are the last declarations. -/
theorem mem_fields_ofList_iff :
    field ∈ (ofList declared).fields ↔ IsLastDeclared declared field := by
  induction declared using List.reverseRecOn with
  | nil =>
      constructor
      · exact nofun
      · rintro ⟨front, back, declared_eq, -⟩
        cases front <;> contradiction
  | append_singleton declared new ih =>
      rw [ofList_concat, mem_fields_declare, isLastDeclared_concat_iff, ih, or_comm]

/-- The fields stand in the order of the last declarations. -/
theorem pairwise_fields_ofList (declared : List OptionField) :
    (ofList declared).fields.Pairwise (DeclaredBefore declared) := by
  induction declared using List.reverseRecOn with
  | nil => exact .nil
  | append_singleton declared new ih =>
      have kept : ∀ field ∈ (ofList declared).fields.filter (·.key != new.key),
          IsLastDeclared declared field ∧ field.key ≠ new.key := by
        intro field member
        rcases List.mem_filter.mp member with ⟨member, other⟩
        exact ⟨mem_fields_ofList_iff.mp member, by simpa using other⟩
      rw [ofList_concat, declare]
      apply List.pairwise_append.mpr
      constructor
      · apply (ih.filter _).imp_of_mem
        intro first second firstMember secondMember before
        exact before.concat (kept first firstMember).2 (kept second secondMember).2
      constructor
      · exact List.pairwise_singleton _ _
      · intro field member _ isNew
        rcases kept field member with ⟨last, other⟩
        rw [List.mem_singleton.mp isNew]
        exact last.before_concat other

theorem nodup_keys_ofList (declared : List OptionField) :
    ((ofList declared).fields.map OptionField.key).Nodup :=
  List.pairwise_map.mpr ((pairwise_fields_ofList declared).imp DeclaredBefore.key_ne)

/-- Every key that has been declared has a field. -/
theorem exists_field_iff :
    (∃ field ∈ (ofList declared).fields, field.key = key) ↔
      ∃ field ∈ declared, field.key = key := by
  induction declared using List.reverseRecOn with
  | nil => rfl
  | append_singleton declared new ih =>
      simp only [ofList_concat, mem_fields_declare, List.mem_append, List.mem_singleton]
      constructor
      · rintro ⟨field, ⟨member, -⟩ | rfl, rfl⟩
        · obtain ⟨old, isOld, key_eq⟩ := ih.mp ⟨field, member, rfl⟩
          exact ⟨old, .inl isOld, key_eq⟩
        · exact ⟨field, .inr rfl, rfl⟩
      · rintro ⟨field, isOld | rfl, rfl⟩
        · by_cases again : new.key = field.key
          · exact ⟨new, .inr rfl, again⟩
          · obtain ⟨kept, member, key_eq⟩ := ih.mpr ⟨field, isOld, rfl⟩
            exact ⟨kept, .inl ⟨member, fun same => again (same.symm.trans key_eq)⟩, key_eq⟩
        · exact ⟨field, .inr rfl, rfl⟩

/-- A look-up finds the field that was declared last under the key. -/
theorem get?_ofList_eq_some_iff :
    (ofList declared).get? key = some field ↔ field.key = key ∧ IsLastDeclared declared field := by
  rw [← mem_fields_ofList_iff]
  constructor
  · intro found
    have same := List.find?_some found
    exact ⟨eq_of_beq same, List.mem_of_find?_eq_some found⟩
  · rintro ⟨rfl, member⟩
    cases found : (ofList declared).get? field.key with
    | none =>
        have differs := List.find?_eq_none.mp found field member
        exact absurd (beq_self_eq_true _) differs
    | some other =>
        have same := List.find?_some found
        have otherMember := List.mem_of_find?_eq_some found
        rw [List.inj_on_of_nodup_map (nodup_keys_ofList declared) otherMember member
          (eq_of_beq same)]

theorem get?_ofList_eq_none_iff :
    (ofList declared).get? key = none ↔ ∀ field ∈ declared, field.key ≠ key := by
  have none_iff : (ofList declared).get? key = none ↔
      ¬ ∃ field ∈ (ofList declared).fields, field.key = key := by
    rw [get?, List.find?_eq_none]
    simp
  rw [none_iff, exists_field_iff]
  simp

end Schema

/-! ## Options that are held -/

/-- A configuration that has been read is the first value of its text. -/
theorem Configuration.exists_of_ofText {text : Text} {configuration : Configuration}
    (read_eq : ofText text = .ok configuration) :
    ∃ rest, Json.readValue text = .ok (.object configuration.values, rest) := by
  unfold ofText at read_eq
  split at read_eq
  · rename_i found text_eq
    cases read_eq
    obtain ⟨⟨members, rest⟩, members_eq, found_eq⟩ := Json.exists_of_bind_eq_ok text_eq
    obtain ⟨-, -, found_eq⟩ := Json.exists_of_bind_eq_ok found_eq
    cases found_eq
    unfold readMembers at members_eq
    split at members_eq
    · contradiction
    · obtain ⟨⟨value, behind⟩, value_eq, members_eq⟩ := Json.exists_of_bind_eq_ok members_eq
      cases value with
      | object members =>
          cases members_eq
          exact ⟨rest, value_eq⟩
      | _ => contradiction
  · contradiction

/-- The integers of a configuration that has been read fit. -/
theorem Configuration.fitsAt_of_ofText {text : Text} {configuration : Configuration}
    (read_eq : ofText text = .ok configuration) (key : Text) : configuration.FitsAt key := by
  intro n held
  rcases List.lookup_eq_some_iff.mp held with ⟨front, back, values_eq, -⟩
  have member : (key, Json.number (.integer n)) ∈ configuration.values := by
    rw [values_eq]
    exact List.mem_append_right front List.mem_cons_self
  obtain ⟨rest, value_eq⟩ := exists_of_ofText read_eq
  obtain ⟨before, spelling, -, -, spelled⟩ := Json.exists_of_readValue value_eq
  obtain ⟨inner, -, numeralSpelling, numeralSpelled⟩ := spelled.exists_spelling_of_mem member
  cases numeralSpelled with
  | number spelled denotes => exact Json.fitsNumeral_of_value denotes

theorem Configuration.isSet_eq_false_iff {configuration : Configuration} {key : Text} :
    configuration.isSet key = false ↔
      ∀ text, configuration.get? key = some (.string text) → text.isBlank = true := by
  rw [isSet, Option.isSome_eq_false_iff, Option.isNone_iff_eq_none,
    Option.eq_none_iff_forall_ne_some]
  simp only [ne_eq, text?_eq_some_iff, not_and, Bool.not_eq_false]

namespace OptionField

variable {field : OptionField} {configuration : Configuration}

/-- A configuration holds what an option of its kind demands: a text that is not blank, or
an unsigned integer of 64 bits or the numeral of one. -/
def IsHeldBy (field : OptionField) (configuration : Configuration) : Prop :=
  match field.kind with
  | .text => ∃ text, configuration.get? field.key = some (.string text) ∧ text.isBlank = false
  | .number => ∃ n value, configuration.get? field.key = some value ∧
      Configuration.Denotes n value

/-- What is reported of an option that is mandatory and not held. -/
inductive Offends (field : OptionField) (configuration : Configuration) :
    Configuration.Error → Prop
  | text (kind : field.kind = .text)
      (notSet : ∀ text, configuration.get? field.key = some (.string text) →
        text.isBlank = true) :
      Offends field configuration (.invalidValue field.key .missing)
  | unset (kind : field.kind = .number)
      (unset : Configuration.Unset (configuration.get? field.key)) :
      Offends field configuration (.invalidValue field.key .missing)
  | malformed {value : Json} (kind : field.kind = .number)
      (given : configuration.get? field.key = some value)
      (refused : configuration.natural? field.key =
        .error (.invalidValue field.key (.notUnsigned value))) :
      Offends field configuration (.invalidValue field.key (.notUnsigned value))

theorem isSetIn_eq_true_iff (fits : configuration.FitsAt field.key) :
    field.isSetIn configuration = .ok true ↔ field.IsHeldBy configuration := by
  unfold isSetIn IsHeldBy
  cases field.kind with
  | text =>
      simp only [Configuration.isSet, Except.ok.injEq, Option.isSome_iff_exists,
        Configuration.text?_eq_some_iff]
  | number =>
      simp only [← Configuration.natural?_eq_some_iff fits]
      cases configuration.natural? field.key with
      | error error => simp [Except.map]
      | ok n? => cases n? <;> simp [Except.map]

theorem check_eq_ok_iff (fits : configuration.FitsAt field.key) :
    field.check configuration = .ok () ↔
      (field.isOptional = false → field.IsHeldBy configuration) := by
  rw [← isSetIn_eq_true_iff fits]
  unfold check
  cases field.isOptional with
  | true => simp
  | false =>
      simp only [Bool.false_eq_true, if_false, forall_const]
      rcases field.isSetIn configuration with error | _ | _ <;> simp

/-- What is reported is the fault of the reading, or that nothing is set. -/
theorem offends_iff {error : Configuration.Error} :
    field.Offends configuration error ↔ field.isSetIn configuration = .error error ∨
      field.isSetIn configuration = .ok false ∧ error = .invalidValue field.key .missing := by
  constructor
  · rintro (⟨kind, notSet⟩ | ⟨kind, unset⟩ | ⟨kind, given, refused⟩)
    · rw [isSetIn, kind]
      exact .inr ⟨congrArg Except.ok (Configuration.isSet_eq_false_iff.mpr notSet), rfl⟩
    · rw [isSetIn, kind, Configuration.natural?_eq_unset_iff.mpr unset]
      exact .inr ⟨rfl, rfl⟩
    · rw [isSetIn, kind, refused]
      exact .inl rfl
  · intro outcome
    unfold isSetIn at outcome
    cases kind : field.kind with
    | text =>
        rw [kind] at outcome
        rcases outcome with failed | ⟨notSet, rfl⟩
        · contradiction
        · exact .text kind (Configuration.isSet_eq_false_iff.mp (Except.ok.inj notSet))
    | number =>
        rw [kind] at outcome
        cases read : configuration.natural? field.key with
        | error found =>
            rw [read] at outcome
            rcases outcome with failed | ⟨notSet, -⟩
            · cases failed
              obtain ⟨value, given, rfl⟩ := Configuration.exists_fault_of_natural? read
              exact .malformed kind given read
            · contradiction
        | ok n? =>
            rw [read] at outcome
            rcases outcome with failed | ⟨notSet, rfl⟩
            · contradiction
            · cases n? with
              | none => exact .unset kind (Configuration.natural?_eq_unset_iff.mp read)
              | some n => simp [Except.map] at notSet

theorem check_eq_error_iff {error : Configuration.Error} :
    field.check configuration = .error error ↔
      field.isOptional = false ∧ field.Offends configuration error := by
  rw [offends_iff]
  unfold check
  cases field.isOptional with
  | true => simp
  | false =>
      simp only [Bool.false_eq_true, if_false, true_and]
      rcases field.isSetIn configuration with found | _ | _ <;> simp [eq_comm]

end OptionField

/-! ## Configurations that fit -/

namespace Schema

variable {schema : Schema} {configuration other : Configuration}

/-- Options that are not mandatory have no part in a check. -/
theorem check_eq_check_mandatory (schema : Schema) (configuration : Configuration) :
    schema.check configuration =
      check ⟨schema.fields.filter fun field => !field.isOptional⟩ configuration := by
  rcases schema with ⟨fields⟩
  induction fields with
  | nil => rfl
  | cons field fields ih =>
      rw [check_cons, ih, List.filter_cons]
      cases optional : field.isOptional with
      | true =>
          rw [OptionField.check, optional]
          rfl
      | false => exact (check_cons _ _).symm

/-- What is configured under the keys of other options has no part in it either. -/
theorem check_congr
    (alike : ∀ field ∈ schema.fields, field.isOptional = false →
      other.get? field.key = configuration.get? field.key) :
    schema.check other = schema.check configuration := by
  rcases schema with ⟨fields⟩
  induction fields with
  | nil => rfl
  | cons field fields ih =>
      rcases List.forall_mem_cons.mp alike with ⟨fieldAlike, fieldsAlike⟩
      have field_eq : field.check other = field.check configuration := by
        unfold OptionField.check
        cases optional : field.isOptional with
        | true => rfl
        | false =>
            have held_eq := fieldAlike optional
            simp only [OptionField.isSetIn, Configuration.isSet, Configuration.text?,
              Configuration.natural?, held_eq]
      rw [check_cons, check_cons, field_eq, ih fieldsAlike]

/-- A configuration fits when every option passes. -/
theorem check_eq_ok_iff :
    schema.check configuration = .ok () ↔
      ∀ field ∈ schema.fields, field.check configuration = .ok () := by
  rcases schema with ⟨fields⟩
  dsimp only
  induction fields with
  | nil => exact ⟨fun _ => nofun, fun _ => rfl⟩
  | cons field fields ih =>
      rw [check_cons, List.forall_mem_cons, ← ih]
      cases field.check configuration <;> simp [Except.bind]

/-- The options that a sequence of declarations leaves have distinct keys, and a look-up
finds the one that was declared last under its key. They stand in the order of these
declarations. A configuration fits them when it holds what each mandatory option demands;
otherwise the error is that of the first mandatory option that it does not hold. Neither
options that are not mandatory nor what is configured under their keys have a part in it. -/
theorem last_declarations_are_checked_in_order (declared : List OptionField)
    (configuration : Configuration) (fits : ∀ key, configuration.FitsAt key) :
    let schema := ofList declared
    (schema.fields.map OptionField.key).Nodup ∧
      (∀ field, field ∈ schema.fields ↔ IsLastDeclared declared field) ∧
      (∀ key field, schema.get? key = some field ↔
        field.key = key ∧ IsLastDeclared declared field) ∧
      (∀ key, schema.get? key = none ↔ ∀ field ∈ declared, field.key ≠ key) ∧
      schema.fields.Pairwise (DeclaredBefore declared) ∧
      (schema.check configuration = .ok () ↔
        ∀ field ∈ schema.fields, field.isOptional = false → field.IsHeldBy configuration) ∧
      (∀ error, schema.check configuration = .error error ↔
        ∃ front field back, schema.fields = front ++ field :: back ∧
          (∀ earlier ∈ front, earlier.isOptional = false → earlier.IsHeldBy configuration) ∧
          field.isOptional = false ∧ field.Offends configuration error) ∧
      schema.check configuration =
        check ⟨schema.fields.filter fun field => !field.isOptional⟩ configuration ∧
      ∀ other : Configuration,
        (∀ field ∈ schema.fields, field.isOptional = false →
          other.get? field.key = configuration.get? field.key) →
        schema.check other = schema.check configuration := by
  intro schema
  have passes_iff (field : OptionField) : field.check configuration = .ok () ↔
      (field.isOptional = false → field.IsHeldBy configuration) :=
    OptionField.check_eq_ok_iff (fits field.key)
  constructor
  · exact nodup_keys_ofList declared
  constructor
  · exact fun field => mem_fields_ofList_iff
  constructor
  · exact fun key field => get?_ofList_eq_some_iff
  constructor
  · exact fun key => get?_ofList_eq_none_iff
  constructor
  · exact pairwise_fields_ofList declared
  constructor
  · simp only [check_eq_ok_iff, passes_iff]
  constructor
  · intro error
    simp only [check_eq_error_iff, passes_iff, OptionField.check_eq_error_iff]
  constructor
  · exact check_eq_check_mandatory schema configuration
  · exact fun other => check_congr

/-- Three declarations, of which the third takes the place of the first. -/
def redeclared : List OptionField :=
  [.ofText "port".toList "Port".toList none [] true,
    .ofNumber "size".toList "Size".toList 1 [] false,
    .ofNumber "port".toList "Port".toList 12201 [] false]

/-- A configuration with a size between blanks and a port that is no number. -/
def portConfiguration : Configuration :=
  ⟨[("port".toList, .string ['x']), ("size".toList, .string [' ', '+', '7'])]⟩

theorem ofText_portConfiguration :
    Configuration.ofText "\x7b\"port\":\"x\",\"size\":\" +7\"\x7d".toList =
      .ok portConfiguration :=
  Json.toOption_eq_some_iff.mp (by decide +kernel)

/-- The port is mandatory as it was declared last, and what is wrong with it is reported. -/
theorem check_portConfiguration :
    (∀ key, portConfiguration.FitsAt key) ∧
      (ofList redeclared).check portConfiguration =
        .error (.invalidValue "port".toList (.notUnsigned (.string ['x']))) := by
  have fits : ∀ key, portConfiguration.FitsAt key :=
    Configuration.fitsAt_of_ofText ofText_portConfiguration
  have numeral : Text.IsNumeral 7 (Text.trim [' ', '+', '7']) := .inr ⟨['7'], by decide, 0, rfl⟩
  obtain ⟨-, -, -, -, -, -, reports, -⟩ :=
    last_declarations_are_checked_in_order redeclared portConfiguration fits
  constructor
  · exact fits
  · apply (reports _).mpr
    refine ⟨[.ofNumber "size".toList "Size".toList 1 [] false],
      .ofNumber "port".toList "Port".toList 12201 [] false, [], rfl, ?_, rfl, ?_⟩
    · intro earlier member _
      cases List.mem_singleton.mp member
      exact ⟨7, _, rfl, .text (by decide) numeral⟩
    · exact .malformed rfl rfl rfl

end Schema

end LogIntake
