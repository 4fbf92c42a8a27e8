import LogIntake.Json.Value

/-!
# Equality of JSON values

Values are compared part by part. The comparison answers true exactly for equal
values, so equality of JSON values is decidable.
-/

namespace LogIntake.Json

mutual

/-- Whether two values are the same. -/
def same : Json → Json → Bool
  | .null, .null => true
  | .bool first, .bool second => first == second
  | .number first, .number second => first == second
  | .string first, .string second => first == second
  | .array first, .array second => sameElements first second
  | .object first, .object second => sameMembers first second
  | _, _ => false

/-- Whether two lists of values are the same. -/
def sameElements : List Json → List Json → Bool
  | [], [] => true
  | first :: firsts, second :: seconds => same first second && sameElements firsts seconds
  | _, _ => false

/-- Whether two lists of members are the same. -/
def sameMembers : List (Text × Json) → List (Text × Json) → Bool
  | [], [] => true
  | (firstKey, first) :: firsts, (secondKey, second) :: seconds =>
    firstKey == secondKey && same first second && sameMembers firsts seconds
  | _, _ => false

end

mutual

theorem eq_of_same : ∀ {first second : Json}, same first second = true → first = second
  | .null, .null, _ => rfl
  | .bool _, .bool _, equal => by
    simp only [same, beq_iff_eq] at equal
    rw [equal]
  | .number _, .number _, equal => by
    simp only [same, beq_iff_eq] at equal
    rw [equal]
  | .string _, .string _, equal => by
    simp only [same, beq_iff_eq] at equal
    rw [equal]
  | .array _, .array _, equal => congrArg Json.array (eq_of_sameElements equal)
  | .object _, .object _, equal => congrArg Json.object (eq_of_sameMembers equal)

theorem eq_of_sameElements :
    ∀ {firsts seconds : List Json}, sameElements firsts seconds = true → firsts = seconds
  | [], [], _ => rfl
  | _ :: _, _ :: _, equal => by
    simp only [sameElements, Bool.and_eq_true] at equal
    rw [eq_of_same equal.1, eq_of_sameElements equal.2]

theorem eq_of_sameMembers :
    ∀ {firsts seconds : List (Text × Json)}, sameMembers firsts seconds = true →
      firsts = seconds
  | [], [], _ => rfl
  | (_, _) :: _, (_, _) :: _, equal => by
    simp only [sameMembers, Bool.and_eq_true, beq_iff_eq] at equal
    rw [equal.1.1, eq_of_same equal.1.2, eq_of_sameMembers equal.2]

end

mutual

theorem same_self : ∀ value : Json, same value value = true
  | .null => rfl
  | .bool _ | .number _ | .string _ => by simp [same]
  | .array elements => sameElements_self elements
  | .object members => sameMembers_self members

theorem sameElements_self : ∀ elements : List Json, sameElements elements elements = true
  | [] => rfl
  | first :: rest => by simp [sameElements, same_self first, sameElements_self rest]

theorem sameMembers_self :
    ∀ members : List (Text × Json), sameMembers members members = true
  | [] => rfl
  | (_, value) :: rest => by simp [sameMembers, same_self value, sameMembers_self rest]

end

theorem same_eq_true_iff {first second : Json} : same first second = true ↔ first = second :=
  ⟨eq_of_same, fun equal => equal ▸ same_self first⟩

instance : DecidableEq Json := fun first second =>
  decidable_of_iff (same first second = true) same_eq_true_iff

end LogIntake.Json
