import LogIntake.Codec.Registry
import LogIntake.Proofs.Configuration
import LogIntake.Proofs.Field
import LogIntake.Proofs.NameMap

/-!
# Runs of registries

Registrations are added to a registry and codecs are built from it in any order. The
registration of a name is the first one that was asked for: later ones are refused, and
building changes nothing. So all that a registry answers is known from the calls before.
-/

namespace LogIntake

/-! ## Descriptors -/

/-- A name that is created is not empty and has no blanks at its ends. -/
theorem Descriptor.isPlain_name_of_create {name displayName : Text} {descriptor : Descriptor}
    (created : create name displayName = .ok descriptor) : Field.IsPlain descriptor.name := by
  unfold create at created
  split at created
  · contradiction
  · rename_i filled
    have plain : Field.IsPlain name.trim := Field.isPlain_trim (by simpa using filled)
    split at created
    · cases created
      exact plain
    · cases created
      exact plain

/-! ## Building -/

namespace Registration

variable {registration : Registration} {configuration? : Option Configuration}

/-- A registration whose descriptor was created from names. -/
def IsDescribed (registration : Registration) : Prop :=
  ∃ name displayName, Descriptor.create name displayName = .ok registration.descriptor

/-- A configuration, if there is one, that fits the schema. -/
def Admits (registration : Registration) (configuration? : Option Configuration) : Prop :=
  ∀ configuration ∈ configuration?, registration.schema.check configuration = .ok ()

theorem checkName_eq_ok_iff {codec checked : Codec} :
    registration.checkName codec = .ok checked ↔
      codec = checked ∧ codec.descriptor.name = registration.descriptor.name := by
  unfold checkName
  dsimp only
  split
  · rename_i same
    simp [same]
  · rename_i other
    simp [other]

/-- With a configuration that fits, the factory decides, and then the name. -/
theorem build_of_admits (admits : registration.Admits configuration?) :
    registration.build configuration? =
      registration.factory configuration? >>= fun codec? =>
        pure (codec?.bind registration.checkName) := by
  unfold build
  cases configuration? with
  | none => rfl
  | some configuration => simp only [Option.elim_some, admits configuration rfl]

/-- With any other configuration, the value of an option is refused. -/
theorem build_of_not_admits (refused : ¬ registration.Admits configuration?) :
    ∃ key fault, registration.build configuration? = pure (.error (.invalidValue key fault)) := by
  cases configuration? with
  | none => exact absurd (fun _ member => nomatch member) refused
  | some configuration =>
      cases checked : registration.schema.check configuration with
      | ok _ =>
          refine absurd ?_ refused
          rintro _ ⟨⟩
          exact checked
      | error error =>
          obtain ⟨key, fault, rfl⟩ := Schema.exists_fault_of_check checked
          refine ⟨key, fault, ?_⟩
          simp only [build, Option.elim_some, checked]

theorem build_eq_ok_iff {codec : Codec} :
    (registration.build configuration?).value = .ok codec ↔
      registration.Admits configuration? ∧
        (registration.factory configuration?).value = .ok codec ∧
        codec.descriptor.name = registration.descriptor.name := by
  by_cases admits : registration.Admits configuration?
  · rw [build_of_admits admits, Logged.value_bind, Logged.value_pure]
    cases (registration.factory configuration?).value with
    | error error => simp [Except.bind]
    | ok made =>
        simp only [Except.bind, checkName_eq_ok_iff, admits, true_and, Except.ok.injEq]
        constructor
        · rintro ⟨rfl, same⟩
          exact ⟨rfl, same⟩
        · rintro ⟨rfl, same⟩
          exact ⟨rfl, same⟩
  · obtain ⟨key, fault, build_eq⟩ := build_of_not_admits admits
    simp [build_eq, admits]

/-- An unknown codec is never the answer of a registration itself. -/
theorem build_eq_unknown_iff {name : Text} :
    (registration.build configuration?).value = .error (.unknownCodec name) ↔
      registration.Admits configuration? ∧
        (registration.factory configuration?).value = .error (.unknownCodec name) := by
  by_cases admits : registration.Admits configuration?
  · rw [build_of_admits admits, Logged.value_bind, Logged.value_pure]
    cases (registration.factory configuration?).value with
    | error error => simp [Except.bind, admits]
    | ok made =>
        simp only [Except.bind, checkName]
        split <;> simp
  · obtain ⟨key, fault, build_eq⟩ := build_of_not_admits admits
    simp [build_eq, admits]

end Registration

namespace Registry

/-! ## Calls -/

/-- A call of a registry. -/
inductive Call
  | register (registration : Registration)
  | build (name : Text) (configuration? : Option Configuration)

/-- The registry after a call. A call that fails leaves it as it is. -/
def apply (registry : Registry) : Call → Registry
  | .register registration =>
    match (registry.register registration).value with
    | .ok registered => registered
    | .error _ => registry
  | .build _ _ => registry

/-- The registry after a sequence of calls. -/
def after (registry : Registry) (calls : List Call) : Registry :=
  calls.foldl apply registry

/-- The registration that a call asks for under a name. -/
def Call.registration? (name : Text) : Call → Option Registration
  | .register registration =>
    if registration.descriptor.name = name then some registration else none
  | .build _ _ => none

/-- The first registration that is asked for under a name. -/
def first? (calls : List Call) (name : Text) : Option Registration :=
  calls.findSome? (Call.registration? name)

variable {registry : Registry}

theorem mem_names_iff {name : Text} :
    name ∈ registry.names ↔ (registry.registrations.get? name).isSome = true :=
  NameMap.mem_names_iff

/-- A name that is registered is refused, and nothing is noted. -/
theorem register_of_mem {registration : Registration}
    (member : registration.descriptor.name ∈ registry.names) :
    registry.register registration =
      pure (.error (.duplicateCodec registration.descriptor.name)) := by
  have contained : registry.registrations.contains registration.descriptor.name = true := by
    rw [NameMap.contains_eq_isSome_get?]
    exact mem_names_iff.mp member
  simp [register, contained]

/-- A new name is registered. -/
theorem value_register_of_not_mem {registration : Registration}
    (new : registration.descriptor.name ∉ registry.names) :
    (registry.register registration).value =
      .ok ⟨registry.registrations.insert registration.descriptor.name registration⟩ := by
  have missing : registry.registrations.contains registration.descriptor.name = false := by
    rw [NameMap.contains_eq_isSome_get?]
    simpa [mem_names_iff] using new
  simp [register, missing]

theorem register_succeeds_iff {registration : Registration} :
    (∃ registered, (registry.register registration).value = .ok registered) ↔
      registration.descriptor.name ∉ registry.names := by
  by_cases member : registration.descriptor.name ∈ registry.names
  · simp [register_of_mem member, member]
  · simp [value_register_of_not_mem member, member]

theorem register_eq_error_iff {registration : Registration} {error : Configuration.Error} :
    (registry.register registration).value = .error error ↔
      registration.descriptor.name ∈ registry.names ∧
        error = .duplicateCodec registration.descriptor.name := by
  by_cases member : registration.descriptor.name ∈ registry.names
  · simp [register_of_mem member, member, eq_comm]
  · simp [value_register_of_not_mem member, member]

/-! ## One call -/

theorem apply_register_of_mem {registration : Registration}
    (member : registration.descriptor.name ∈ registry.names) :
    registry.apply (.register registration) = registry := by
  rw [apply, register_of_mem member]
  rfl

/-- A call adds what it asks for unless the name is registered. -/
theorem get?_apply (registry : Registry) (call : Call) (name : Text) :
    (registry.apply call).registrations.get? name =
      (registry.registrations.get? name).or (call.registration? name) := by
  cases call with
  | build _ _ => exact Option.or_none.symm
  | register registration =>
      rw [Call.registration?]
      by_cases member : registration.descriptor.name ∈ registry.names
      · rw [apply_register_of_mem member]
        split
        · rename_i same
          obtain ⟨found, found_eq⟩ := Option.isSome_iff_exists.mp (mem_names_iff.mp (same ▸ member))
          rw [found_eq, Option.some_or]
        · rw [Option.or_none]
      · rw [apply, value_register_of_not_mem member]
        change (registry.registrations.insert _ registration).get? name = _
        rw [NameMap.get?_insert]
        by_cases same : registration.descriptor.name = name
        · have missing : registry.registrations.get? name = none := by
            rw [← same]
            simpa [mem_names_iff] using member
          rw [if_pos same.symm, if_pos same, missing, Option.none_or]
        · rw [if_neg (Ne.symm same), if_neg same, Option.or_none]

/-! ## Runs -/

/-- The registration of a name is that of the registry before the calls, else the first one
that was asked for. -/
theorem get?_after (registry : Registry) (calls : List Call) (name : Text) :
    (registry.after calls).registrations.get? name =
      (registry.registrations.get? name).or (first? calls name) := by
  induction calls generalizing registry with
  | nil => exact Option.or_none.symm
  | cons call calls ih =>
      change ((registry.apply call).after calls).registrations.get? name = _
      rw [ih, get?_apply, Option.or_assoc, first?, first?, List.findSome?_cons]
      cases call.registration? name <;> rfl

/-- A registration that was accepted stays. -/
theorem get?_after_register {registration : Registration} {registered : Registry}
    (accepted : (registry.register registration).value = .ok registered) (later : List Call) :
    (registered.after later).registrations.get? registration.descriptor.name =
      some registration := by
  have new := register_succeeds_iff.mp ⟨registered, accepted⟩
  rw [value_register_of_not_mem new] at accepted
  cases accepted
  rw [get?_after, NameMap.get?_insert, if_pos rfl, Option.some_or]

theorem get?_after_empty (calls : List Call) (name : Text) :
    (empty.after calls).registrations.get? name = first? calls name := by
  rw [get?_after]
  rfl

theorem Call.registration?_eq_some_iff {call : Call} {name : Text} {registration : Registration} :
    call.registration? name = some registration ↔
      call = .register registration ∧ registration.descriptor.name = name := by
  cases call with
  | build _ _ => simp [registration?]
  | register candidate =>
      rw [registration?]
      split
      · rename_i same
        simp only [Option.some.injEq, register.injEq]
        exact ⟨fun found => ⟨found, found ▸ same⟩, fun found => found.1⟩
      · rename_i other
        simp only [reduceCtorEq, register.injEq, false_iff, not_and]
        rintro rfl
        exact other

/-- The first registration of a name is the one that was accepted. -/
theorem first?_eq_some_iff {calls : List Call} {name : Text} {registration : Registration} :
    first? calls name = some registration ↔
      ∃ front back, calls = front ++ .register registration :: back ∧
        registration.descriptor.name = name ∧ name ∉ (empty.after front).names := by
  have missing_iff (front : List Call) : name ∉ (empty.after front).names ↔
      ∀ call ∈ front, call.registration? name = none := by
    rw [mem_names_iff, get?_after_empty, first?, Bool.not_eq_true, Option.isSome_eq_false_iff,
      Option.isNone_iff_eq_none, List.findSome?_eq_none_iff]
  rw [first?, List.findSome?_eq_some_iff]
  constructor
  · rintro ⟨front, call, back, calls_eq, asked, missing⟩
    obtain ⟨rfl, named⟩ := Call.registration?_eq_some_iff.mp asked
    exact ⟨front, back, calls_eq, named, (missing_iff front).mpr missing⟩
  · rintro ⟨front, back, calls_eq, named, missing⟩
    exact ⟨front, _, back, calls_eq, Call.registration?_eq_some_iff.mpr ⟨rfl, named⟩,
      (missing_iff front).mp missing⟩

theorem mem_names_after_iff {calls : List Call} {name : Text} :
    name ∈ (empty.after calls).names ↔ ∃ registration, first? calls name = some registration := by
  rw [mem_names_iff, get?_after_empty, Option.isSome_iff_exists]

/-- What a registry answers after calls, by what was asked for in them. -/
structure Reflects (calls : List Call) (registry : Registry) : Prop where
  /-- A registration is refused exactly when its name is registered. -/
  refused : ∀ registration error,
    (registry.register registration).value = .error error ↔
      registration.descriptor.name ∈ registry.names ∧
        error = .duplicateCodec registration.descriptor.name
  /-- A registration that is refused changes nothing and notes nothing. -/
  unchanged : ∀ registration, registration.descriptor.name ∈ registry.names →
    registry.apply (.register registration) = registry ∧
      (registry.register registration).events = []
  /-- The names are in strictly increasing order. -/
  increasing : registry.names.Pairwise (· < ·)
  /-- They are the names of the registrations that were accepted. -/
  mem_names : ∀ name, name ∈ registry.names ↔
    ∃ front registration back, calls = front ++ .register registration :: back ∧
      registration.descriptor.name = name ∧
      ∃ registered, ((empty.after front).register registration).value = .ok registered
  /-- They are not empty and have no blanks at their ends. -/
  plain : ∀ name ∈ registry.names, Field.IsPlain name
  /-- The descriptor of a name is that of its first registration. -/
  descriptor? : ∀ name, registry.descriptor? name = (first? calls name).map (·.descriptor)
  /-- The schema of a name is that of its first registration. -/
  schema? : ∀ name, registry.schema? name = (first? calls name).map (·.schema)
  /-- Building changes nothing. -/
  kept : ∀ name configuration?, registry.apply (.build name configuration?) = registry
  /-- A codec is unknown when its name is not registered, or when the factory of its name
  says so: the errors of factories are handed on. -/
  unknown : ∀ name configuration? other,
    (registry.build name configuration?).value = .error (.unknownCodec other) ↔
      name ∉ registry.names ∧ other = name ∨
        ∃ registration, first? calls name = some registration ∧
          registration.Admits configuration? ∧
          (registration.factory configuration?).value = .error (.unknownCodec other)
  /-- A codec that is built is one of the factory, has the name that was asked for, and has
  a configuration that fits. -/
  built : ∀ name configuration? codec,
    (registry.build name configuration?).value = .ok codec ↔
      ∃ registration, first? calls name = some registration ∧
        registration.Admits configuration? ∧
        (registration.factory configuration?).value = .ok codec ∧
        codec.descriptor.name = name

/-- After any calls, the first registrations decide what a registry answers. -/
theorem reflects_after {calls : List Call}
    (described : ∀ registration, .register registration ∈ calls → registration.IsDescribed) :
    Reflects calls (empty.after calls) where
  refused registration error := register_eq_error_iff
  unchanged registration member := by
    refine ⟨apply_register_of_mem member, ?_⟩
    rw [register_of_mem member, Logged.events_pure]
  increasing := NameMap.pairwise_names _
  mem_names name := by
    rw [mem_names_after_iff]
    simp only [first?_eq_some_iff, register_succeeds_iff]
    constructor
    · rintro ⟨registration, front, back, calls_eq, named, new⟩
      exact ⟨front, registration, back, calls_eq, named, named ▸ new⟩
    · rintro ⟨front, registration, back, calls_eq, named, new⟩
      exact ⟨registration, front, back, calls_eq, named, named ▸ new⟩
  plain name member := by
    obtain ⟨registration, first⟩ := mem_names_after_iff.mp member
    obtain ⟨front, back, calls_eq, rfl, -⟩ := first?_eq_some_iff.mp first
    obtain ⟨_, _, created⟩ := described registration (by simp [calls_eq])
    exact Descriptor.isPlain_name_of_create created
  descriptor? name := congrArg (Option.map _) (get?_after_empty calls name)
  schema? name := congrArg (Option.map _) (get?_after_empty calls name)
  kept name configuration? := rfl
  unknown name configuration? other := by
    rw [mem_names_after_iff, build, get?_after_empty]
    cases first? calls name with
    | none => simp [eq_comm]
    | some registration => simp [Registration.build_eq_unknown_iff]
  built name configuration? codec := by
    rw [build, get?_after_empty]
    cases first : first? calls name with
    | none => simp
    | some registration =>
        obtain ⟨-, -, -, rfl, -⟩ := first?_eq_some_iff.mp first
        simp [Registration.build_eq_ok_iff]

/-- A name that is registered twice, the second time for a codec with another name. -/
def plainTextCalls : List Call :=
  [.register (PlainText.registration ⟨['r'], ['R']⟩ Settings.schema ['r']),
    .build ['r'] (some .empty),
    .register (PlainText.registration ⟨['r'], ['r']⟩ .empty ['s'])]

theorem reflects_plainTextCalls :
    (∀ registration, .register registration ∈ plainTextCalls → registration.IsDescribed) ∧
      Reflects plainTextCalls (empty.after plainTextCalls) := by
  have described :
      ∀ registration, .register registration ∈ plainTextCalls → registration.IsDescribed := by
    intro registration member
    simp only [plainTextCalls, List.mem_cons, Call.register.injEq, reduceCtorEq,
      List.not_mem_nil, false_or, or_false] at member
    rcases member with rfl | rfl
    · exact ⟨['r'], ['R'], rfl⟩
    · exact ⟨['r'], [], rfl⟩
  exact ⟨described, reflects_after described⟩

/-- A name whose factory knows no codec. -/
def idleCalls : List Call :=
  [.register ⟨⟨['r'], ['R']⟩, .empty, fun _ => pure (.error (.unknownCodec ['r']))⟩]

/-- A codec may be unknown although its name is registered. -/
theorem unknown_after_idleCalls :
    (∀ registration, .register registration ∈ idleCalls → registration.IsDescribed) ∧
      ['r'] ∈ (empty.after idleCalls).names ∧
      ((empty.after idleCalls).build ['r'] none).value = .error (.unknownCodec ['r']) := by
  refine ⟨?_, by decide, rfl⟩
  intro registration member
  obtain rfl := Call.register.inj (List.mem_singleton.mp member)
  exact ⟨['r'], ['R'], rfl⟩

end Registry

end LogIntake
