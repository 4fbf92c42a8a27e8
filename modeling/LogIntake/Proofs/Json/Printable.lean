import LogIntake.Proofs.Json.Printing

/-!
# What has been read can be printed

Every value that has been read can be printed and read again without loss, as long as it
holds no double: its integers fit, the keys of its objects are distinct, and it is nested
no deeper than the text that it was read from.
-/

namespace LogIntake.Json

/-- Arrays and objects. -/
def IsContainer : Json → Prop
  | .array _ | .object _ => True
  | _ => False

theorem IsContainer.isSelfDelimiting {value : Json} (container : value.IsContainer) :
    Document.isSelfDelimiting value = true := by
  cases value with
  | array _ | object _ => rfl
  | _ => exact container.elim

/-- Values without a double in them. -/
inductive DoubleFree : Json → Prop
  | null : DoubleFree .null
  | bool (value : Bool) : DoubleFree (.bool value)
  | integer (n : Int) : DoubleFree (.number (.integer n))
  | string (value : Text) : DoubleFree (.string value)
  | array {elements : List Json} (each : ∀ element ∈ elements, DoubleFree element) :
      DoubleFree (.array elements)
  | object {members : Members} (each : ∀ member ∈ members, DoubleFree member.2) :
      DoubleFree (.object members)

/-! ## Members -/

namespace Members

theorem mem_put {members : Members} {key : Text} {value : Json} {member : Text × Json}
    (isMember : member ∈ members.put key value) : member = (key, value) ∨ member ∈ members := by
  unfold put at isMember
  split at isMember
  · obtain ⟨old, isOld, rfl⟩ := List.mem_map.mp isMember
    split
    · exact .inl rfl
    · exact .inr isOld
  · rcases List.mem_append.mp isMember with isOld | isNew
    · exact .inr isOld
    · exact .inl (List.mem_singleton.mp isNew)

/-- A key is put only once. -/
theorem nodup_keys_put {members : Members} (distinct : (members.map Prod.fst).Nodup) (key : Text)
    (value : Json) : ((members.put key value).map Prod.fst).Nodup := by
  by_cases present : key ∈ members.map Prod.fst
  · have isThere : (members.any fun member => member.1 == key) = true := by
      obtain ⟨member, isMember, rfl⟩ := List.mem_map.mp present
      exact List.any_eq_true.mpr ⟨member, isMember, beq_self_eq_true _⟩
    have keys_eq : (members.put key value).map Prod.fst = members.map Prod.fst := by
      rw [put, if_pos isThere, List.map_map]
      apply List.map_congr_left
      intro member _
      by_cases same : member.1 = key <;> simp [same]
    rwa [keys_eq]
  · rw [put_of_notMem present, List.map_append, List.nodup_append]
    refine ⟨distinct, by simp, fun old isOld new isNew => ?_⟩
    rw [List.mem_singleton.mp isNew]
    rintro rfl
    exact present isOld

/-- Whatever entries there are, the keys of the members are distinct, and each member is one of
the entries. -/
theorem ofEntries_spec (entries : List (Text × Json)) :
    ((ofEntries entries).map Prod.fst).Nodup ∧ ∀ member ∈ ofEntries entries, member ∈ entries := by
  have keeps (entries : List (Text × Json)) (before : Members)
      (distinct : (before.map Prod.fst).Nodup) :
      let after := entries.foldl (fun members entry => members.put entry.1 entry.2) before
      (after.map Prod.fst).Nodup ∧ ∀ member ∈ after, member ∈ before ∨ member ∈ entries := by
    induction entries generalizing before with
    | nil => exact ⟨distinct, fun _ => .inl⟩
    | cons entry entries ih =>
        obtain ⟨afterDistinct, known⟩ := ih _ (nodup_keys_put distinct entry.1 entry.2)
        refine ⟨afterDistinct, fun member isMember => ?_⟩
        rcases known member isMember with put | later
        · rcases mem_put put with rfl | old
          · exact .inr List.mem_cons_self
          · exact .inl old
        · exact .inr (List.mem_cons_of_mem entry later)
  obtain ⟨distinct, known⟩ := keeps entries [] List.nodup_nil
  exact ⟨distinct, fun member isMember => (known member isMember).resolve_left List.not_mem_nil⟩

end Members

/-! ## Values -/

/-- The integers that numerals denote fit. -/
theorem fitsNumeral_of_value {numeral : Numeral} {rest : Text} {n : Int}
    (denotes : numeral.value rest = .ok (.integer n)) : FitsNumeral n := by
  have nonnegative : (0 : Int) ≤ Text.number numeral.whole := Int.natCast_nonneg _
  unfold Numeral.value at denotes
  dsimp only at denotes
  split at denotes
  · rename_i positive
    simp only [Bool.and_eq_true, decide_eq_true_eq] at positive
    cases denotes
    exact ⟨Int.le_trans (by decide) nonnegative, positive.2⟩
  · split at denotes
    · rename_i negative
      simp only [Bool.and_eq_true, decide_eq_true_eq] at negative
      cases denotes
      exact ⟨Int.neg_le_neg negative.1.2,
        Int.lt_of_le_of_lt (Int.neg_nonpos_of_nonneg nonnegative) (by decide)⟩
    · cases double_eq : numeral.double rest <;> simp [double_eq, Except.map] at denotes

/-- More containers may be open than have to be. -/
theorem Printable.mono {depth deeper : Nat} {value : Json} (printable : Printable depth value)
    (le : depth ≤ deeper) : Printable deeper value := by
  induction printable generalizing deeper with
  | null => exact .null
  | bool value => exact .bool value
  | integer fits => exact .integer fits
  | string value => exact .string value
  | array _ ih =>
      obtain ⟨inner, rfl⟩ := Nat.exists_eq_add_one_of_ne_zero (Nat.ne_zero_of_lt le)
      exact .array fun element isElement => ih element isElement (Nat.le_of_succ_le_succ le)
  | object distinct _ ih =>
      obtain ⟨inner, rfl⟩ := Nat.exists_eq_add_one_of_ne_zero (Nat.ne_zero_of_lt le)
      exact .object distinct fun member isMember =>
        ih member isMember (Nat.le_of_succ_le_succ le)

/-- A value without doubles can be printed if it has been spelled. -/
theorem ValueText.printable {dialect : Dialect} {depth : Nat} {value : Json} {spelling : Text}
    (spelled : ValueText dialect depth value spelling) (doubleFree : DoubleFree value) :
    Printable depth value := by
  induction spelled with
  | nullWord => exact .null
  | trueWord => exact .bool true
  | falseWord => exact .bool false
  | number spelled denotes =>
      cases doubleFree
      exact .integer (fitsNumeral_of_value denotes)
  | string spelled => exact .string _
  | emptyArray blank => exact .array nofun
  | emptyObject blank => exact .object List.nodup_nil nofun
  | array nonempty padded spelled ends ih =>
      cases doubleFree with
      | array each =>
          refine .array fun value member => ?_
          obtain ⟨element, isElement, rfl⟩ := List.mem_map.mp member
          exact ih element isElement (each _ member)
  | @object _ entries _ nonempty padded keys spelled ends ih =>
      cases doubleFree with
      | object each =>
          obtain ⟨distinct, known⟩ :=
            Members.ofEntries_spec ((entries.map Entry.part).map Part.value)
          refine .object distinct fun member isMember => ?_
          have isEntry := known member isMember
          rw [List.map_map] at isEntry
          obtain ⟨entry, entry_mem, rfl⟩ := List.mem_map.mp isEntry
          exact ih entry entry_mem (each _ isMember)

/-- The members of an object that has been spelled have been spelled one level deeper. -/
theorem ValueText.exists_spelling_of_mem {dialect : Dialect} {depth : Nat} {members : Members}
    {spelling : Text} (spelled : ValueText dialect depth (.object members) spelling)
    {member : Text × Json} (isMember : member ∈ members) :
    ∃ inner < depth, ∃ memberSpelling, ValueText dialect inner member.2 memberSpelling := by
  generalize value_eq : Json.object members = value at spelled
  cases spelled with
  | emptyObject blank =>
      cases value_eq
      contradiction
  | @object inner entries ending nonempty padded keys each ends =>
      cases value_eq
      have isEntry := (Members.ofEntries_spec _).2 member isMember
      rw [List.map_map] at isEntry
      obtain ⟨entry, entry_mem, rfl⟩ := List.mem_map.mp isEntry
      exact ⟨inner, Nat.lt_succ_self inner, _, each entry entry_mem⟩
  | _ => cases value_eq

/-- Containers without doubles can be taken out of the document that a text begins with: each
is the document of its own compact text. -/
theorem Document.ofText_toText_of_mem {text : Text} {document : Document}
    (read_eq : ofText text = .ok document) {key : Text} {json : Json}
    (isMember : (key, json) ∈ document.value.members) (container : IsContainer json)
    (doubleFree : DoubleFree json) : ofText json.toText = .ok ⟨json, false⟩ := by
  obtain ⟨before, spelling, rest, -, -, spelled, -⟩ := ofText_eq_ok_iff.mp read_eq
  cases value_eq : document.value with
  | object members =>
      rw [value_eq] at isMember spelled
      obtain ⟨inner, deeper, memberSpelling, memberSpelled⟩ :=
        spelled.exists_spelling_of_mem isMember
      refine ofText_toText ((memberSpelled.printable doubleFree).mono (Nat.le_of_lt deeper)) ?_
      rintro rfl
      exact container
  | _ =>
      rw [value_eq] at isMember
      contradiction

end LogIntake.Json
