import LogIntake.Gelf.Codec
import LogIntake.Proofs.Json.Reading
import LogIntake.Proofs.Registry

/-!
# Building the GELF codec

Every configuration fits the schema of the GELF codec, since none of its options is
mandatory, and the codec has the name of its registration. So the registry hands out what
the factory builds, and it is the charset and the limit that decide whether there is a
codec. A limit is at least one byte.
-/

namespace LogIntake.Gelf.Codec

/-! ## The factory -/

variable {policy : Field.Policy} {configuration? : Option Configuration}

theorem value_build (policy : Field.Policy) (configuration? : Option Configuration) :
    (build policy configuration?).value =
      (Settings.ofConfiguration configuration?).bind fun settings =>
        (limitOf configuration?).map fun limit => ⟨settings, limit, policy⟩ := by
  unfold build
  cases Settings.ofConfiguration configuration? with
  | error error => rfl
  | ok settings => cases limitOf configuration? <;> rfl

/-- The limit is the default one, or the positive number that is configured. -/
theorem limitOf_eq_ok_iff
    (fits : ∀ configuration ∈ configuration?, configuration.FitsAt limitKey) {limit : Nat} :
    limitOf configuration? = .ok limit ↔
      Configuration.Unset (configuration?.bind (·.get? limitKey)) ∧ limit = defaultLimit ∨
        0 < limit ∧ ∃ value, configuration?.bind (·.get? limitKey) = some value ∧
          Configuration.Denotes limit value := by
  cases configuration? with
  | none =>
      change Except.ok defaultLimit = Except.ok limit ↔ _
      simp [Configuration.Unset.absent, eq_comm]
  | some configuration =>
      simp only [Option.bind_some]
      rw [← Configuration.natural?_eq_unset_iff,
        ← Configuration.natural?_eq_some_iff (fits configuration rfl)]
      change (configuration.natural? limitKey >>= _) = _ ↔ _
      cases configuration.natural? limitKey with
      | error error => simp [bind, Except.bind]
      | ok limit? =>
          simp only [bind, Except.bind, Except.ok.injEq]
          rcases limit? with _ | _ | n
          · simp [eq_comm]
          · simp only [reduceCtorEq, false_and, Option.some.injEq, false_or, false_iff, not_and]
            rintro positive rfl
            exact Nat.lt_irrefl 0 positive
          · simp only [reduceCtorEq, false_and, Option.some.injEq, Except.ok.injEq, false_or]
            exact ⟨fun same => ⟨same ▸ Nat.succ_pos n, same⟩, And.right⟩

theorem exists_limit_iff
    (fits : ∀ configuration ∈ configuration?, configuration.FitsAt limitKey) :
    (∃ limit, limitOf configuration? = .ok limit) ↔
      Configuration.Unset (configuration?.bind (·.get? limitKey)) ∨
        ∃ limit > 0, ∃ value, configuration?.bind (·.get? limitKey) = some value ∧
          Configuration.Denotes limit value := by
  simp only [limitOf_eq_ok_iff fits]
  constructor
  · rintro ⟨limit, ⟨unset, -⟩ | set⟩
    · exact .inl unset
    · exact .inr ⟨limit, set⟩
  · rintro (unset | ⟨limit, set⟩)
    · exact ⟨defaultLimit, .inl ⟨unset, rfl⟩⟩
    · exact ⟨limit, .inr set⟩

/-- A codec has the configured limit, which is a positive number of 64 bits. -/
theorem limit_of_build
    (fits : ∀ configuration ∈ configuration?, configuration.FitsAt limitKey) {codec : Codec}
    (built : (build policy configuration?).value = .ok codec) :
    1 ≤ codec.limit ∧ codec.limit < 2 ^ 64 := by
  rw [value_build] at built
  obtain ⟨settings, -, built⟩ := Json.exists_of_bind_eq_ok built
  cases limit_eq : limitOf configuration? with
  | error error =>
      rw [limit_eq] at built
      contradiction
  | ok limit =>
      rw [limit_eq] at built
      cases built
      rcases (limitOf_eq_ok_iff fits).mp limit_eq with ⟨-, rfl⟩ | ⟨positive, value, -, denotes⟩
      · exact (by decide : 1 ≤ defaultLimit ∧ defaultLimit < 2 ^ 64)
      · exact ⟨positive, denotes.lt⟩

/-- There is a codec when there are a charset and a limit for it. -/
theorem exists_build_iff
    (fits : ∀ configuration ∈ configuration?, configuration.FitsAt limitKey) :
    (∃ codec, (build policy configuration?).value = .ok codec) ↔
      (∀ name, configuration?.bind (·.get? Settings.charsetKey) = some (.string name) →
        name.isBlank = false → Charset.IsKnown name) ∧
      (Configuration.Unset (configuration?.bind (·.get? limitKey)) ∨
        ∃ limit > 0, ∃ value, configuration?.bind (·.get? limitKey) = some value ∧
          Configuration.Denotes limit value) := by
  rw [value_build, ← Settings.exists_charset_iff, ← exists_limit_iff fits,
    Settings.ofConfiguration]
  cases Settings.charsetOf configuration? <;> cases limitOf configuration? <;>
    simp [Except.map, Except.bind]

/-! ## The registry -/

theorem optional_schema : ∀ field ∈ schema.fields, field.isOptional = true := by
  decide +kernel

/-- No option is mandatory, so every configuration fits. -/
theorem admits_registration (policy : Field.Policy) (configuration? : Option Configuration) :
    (registration policy).Admits configuration? := by
  intro configuration _
  exact Schema.check_eq_ok_of_optional optional_schema

/-- The registration hands out what the factory makes. -/
theorem build_registration (policy : Field.Policy) (configuration? : Option Configuration) :
    ((registration policy).build configuration?).events = (build policy configuration?).events ∧
      ((registration policy).build configuration?).value =
        (build policy configuration?).value.map toCodec := by
  rw [Registration.build_of_admits (admits_registration policy configuration?)]
  constructor
  · change ((build policy configuration?).events ++ []) ++ [] = _
    rw [List.append_nil, List.append_nil]
  · change ((build policy configuration?).value.map toCodec).bind _ = _
    cases (build policy configuration?).value with
    | error error => rfl
    | ok codec => rfl

/-- Wherever the GELF codec is registered, the registry builds what is built directly: it
fails with the same error, or the codecs decode alike and have a limit of at least one. They
fail exactly on a charset without a meaning and on a limit that is no positive number. -/
theorem build_through_registry {registry registered : Registry}
    (accepted : (registry.register (registration policy)).value = .ok registered)
    (later : List Registry.Call)
    (fits : ∀ configuration ∈ configuration?, configuration.FitsAt limitKey) :
    ((registered.after later).build name configuration?).events =
        (build policy configuration?).events ∧
      ((∃ error, ((registered.after later).build name configuration?).value = .error error ∧
          (build policy configuration?).value = .error error) ∨
        ∃ handed codec, ((registered.after later).build name configuration?).value = .ok handed ∧
          (build policy configuration?).value = .ok codec ∧
          (∀ raw, handed.decode raw = codec.decode raw) ∧
          1 ≤ codec.limit ∧ codec.limit < 2 ^ 64) ∧
      ((∃ codec, (build policy configuration?).value = .ok codec) ↔
        (∀ name, configuration?.bind (·.get? Settings.charsetKey) = some (.string name) →
          name.isBlank = false → Charset.IsKnown name) ∧
        (Configuration.Unset (configuration?.bind (·.get? limitKey)) ∨
          ∃ limit > 0, ∃ value, configuration?.bind (·.get? limitKey) = some value ∧
            Configuration.Denotes limit value)) := by
  have found : (registered.after later).registrations.get? name = some (registration policy) :=
    Registry.get?_after_register accepted later
  have build_eq : (registered.after later).build name configuration? =
      (registration policy).build configuration? := by
    simp only [Registry.build, found]
  obtain ⟨events_eq, value_eq⟩ := build_registration policy configuration?
  rw [build_eq]
  refine ⟨events_eq, ?_, exists_build_iff fits⟩
  rw [value_eq]
  cases made : (build policy configuration?).value with
  | error error => exact .inl ⟨error, rfl, rfl⟩
  | ok codec => exact .inr ⟨codec.toCodec, codec, rfl, rfl, fun raw => rfl, limit_of_build fits made⟩

/-- A limit of seven bytes, as the numeral of a positive number between blanks. -/
def limitedConfiguration : Configuration :=
  ⟨[(limitKey, .string [' ', '+', '7'])]⟩

theorem build_limitedConfiguration :
    ∃ registered handed codec,
      (Registry.empty.register (registration .standard)).value = .ok registered ∧
        (registered.build name (some limitedConfiguration)).value = .ok handed ∧
        (build .standard (some limitedConfiguration)).value = .ok codec ∧
        ∀ raw, handed.decode raw = codec.decode raw := by
  have accepted : (Registry.empty.register (registration .standard)).value =
      .ok ⟨NameMap.empty.insert name (registration .standard)⟩ := rfl
  have limit_eq : limitedConfiguration.get? limitKey = some (.string [' ', '+', '7']) := by
    simp [Configuration.get?, limitedConfiguration, Json.Members.find?]
  have charset_eq : limitedConfiguration.get? Settings.charsetKey = none := by decide +kernel
  have fits : ∀ configuration ∈ some limitedConfiguration, configuration.FitsAt limitKey := by
    rintro _ ⟨⟩ n found
    rw [limit_eq] at found
    cases found
  have numeral : Text.IsNumeral 7 (Text.trim [' ', '+', '7']) := .inr ⟨['7'], by decide, 0, rfl⟩
  obtain ⟨-, outcome, succeeds⟩ := build_through_registry accepted [] fits
  obtain ⟨codec, made⟩ := succeeds.mpr
    ⟨by simp [charset_eq], .inr ⟨7, by decide, _, limit_eq, .text (by decide) numeral⟩⟩
  rcases outcome with ⟨error, -, failed⟩ | ⟨handed, codec, handed_eq, codec_eq, alike, -⟩
  · rw [made] at failed
    contradiction
  · exact ⟨_, handed, codec, accepted, handed_eq, codec_eq, alike⟩

end LogIntake.Gelf.Codec
