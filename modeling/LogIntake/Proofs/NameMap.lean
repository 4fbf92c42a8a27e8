import LogIntake.NameMap

/-!
# Values in maps from names

Inserting changes the value of one name and of no other. A map is determined by
the values of its names, since its entries are in order.
-/

namespace LogIntake.NameMap

variable {α : Type}

/-! ## Looking up -/

theorem lookup_cons_eq (name : Text) (entry : Text × α) (rest : List (Text × α)) :
    (entry :: rest).lookup name = if name = entry.1 then some entry.2 else rest.lookup name := by
  rw [List.lookup_cons]
  by_cases same : name = entry.1
  · simp [same]
  · rw [beq_eq_false_iff_ne.mpr same, if_neg same]

theorem lookup_insertEntry (name other : Text) (value : α) (entries : List (Text × α)) :
    (insertEntry name value entries).lookup other =
      if other = name then some value else entries.lookup other := by
  induction entries with
  | nil => rw [insertEntry, lookup_cons_eq]
  | cons entry rest ih =>
      simp only [insertEntry]
      split
      · rw [lookup_cons_eq]
      · split
        · rename_i sameName
          rw [lookup_cons_eq, lookup_cons_eq, ← sameName]
          by_cases same : other = name <;> simp [same]
        · rename_i distinct
          rw [lookup_cons_eq, lookup_cons_eq, ih]
          by_cases same : other = entry.1
          · simp [same, Ne.symm distinct]
          · simp [same]

theorem get?_insert (map : NameMap α) (name other : Text) (value : α) :
    (map.insert name value).get? other = if other = name then some value else map.get? other :=
  lookup_insertEntry name other value map.entries

@[simp]
theorem get?_empty (name : Text) : (empty : NameMap α).get? name = none :=
  rfl

theorem contains_eq_isSome_get? (map : NameMap α) (name : Text) :
    map.contains name = (map.get? name).isSome := by
  unfold contains get?
  induction map.entries with
  | nil => rfl
  | cons entry rest ih =>
      rw [lookup_cons_eq, List.any_cons, ih]
      by_cases same : name = entry.1
      · simp [same]
      · simp [same, Ne.symm same]

/-! ## Distinct names -/

/-- With distinct names, the entries are what is looked up. -/
theorem lookup_eq_some_iff {name : Text} {value : α} {entries : List (Text × α)}
    (distinct : (entries.map Prod.fst).Nodup) :
    entries.lookup name = some value ↔ (name, value) ∈ entries := by
  induction entries with
  | nil => simp
  | cons entry rest ih =>
      rcases List.nodup_cons.mp distinct with ⟨first, others⟩
      rw [lookup_cons_eq, List.mem_cons]
      by_cases same : name = entry.1
      · rw [if_pos same, Option.some.injEq]
        constructor
        · rintro rfl
          exact .inl (by rw [same])
        · rintro (rfl | member)
          · rfl
          · exact absurd (same ▸ List.mem_map_of_mem member) first
      · rw [if_neg same, ih others]
        constructor
        · exact .inr
        · rintro (rfl | member)
          · exact absurd rfl same
          · exact member

/-- The order of entries with distinct names does not matter. -/
theorem lookup_eq_of_perm {first second : List (Text × α)} (perm : first.Perm second)
    (distinct : (second.map Prod.fst).Nodup) (name : Text) :
    first.lookup name = second.lookup name := by
  have firstDistinct : (first.map Prod.fst).Nodup := (perm.map Prod.fst).nodup_iff.mpr distinct
  apply Option.ext
  intro value
  rw [lookup_eq_some_iff firstDistinct, lookup_eq_some_iff distinct, perm.mem_iff]

theorem nodup_names (map : NameMap α) : (map.entries.map Prod.fst).Nodup := by
  rw [List.nodup_iff_pairwise_ne, List.pairwise_map]
  refine map.sorted.imp fun less same => ?_
  rw [same] at less
  exact List.lt_irrefl _ less

theorem get?_eq_some_iff {map : NameMap α} {name : Text} {value : α} :
    map.get? name = some value ↔ (name, value) ∈ map.entries :=
  lookup_eq_some_iff map.nodup_names

/-! ## Names -/

/-- The names are in increasing order. -/
theorem pairwise_names (map : NameMap α) : map.names.Pairwise (· < ·) :=
  List.pairwise_map.mpr map.sorted

theorem mem_names_iff {map : NameMap α} {name : Text} :
    name ∈ map.names ↔ (map.get? name).isSome = true := by
  rw [names, List.mem_map, Option.isSome_iff_exists]
  constructor
  · rintro ⟨⟨_, value⟩, member, rfl⟩
    exact ⟨value, get?_eq_some_iff.mpr member⟩
  · rintro ⟨value, found⟩
    exact ⟨(name, value), get?_eq_some_iff.mp found, rfl⟩

/-! ## Equality -/

theorem lookup_eq_none_of_lt {name : Text} {entries : List (Text × α)}
    (before : ∀ entry ∈ entries, name < entry.1) : entries.lookup name = none := by
  induction entries with
  | nil => rfl
  | cons entry rest ih =>
      rcases List.forall_mem_cons.mp before with ⟨firstLater, restLater⟩
      have distinct : name ≠ entry.1 := by
        intro same
        rw [← same] at firstLater
        exact List.lt_irrefl name firstLater
      rw [lookup_cons_eq, if_neg distinct, ih restLater]

/-- Entries in order are determined by the values that are looked up in them. -/
theorem entries_eq_of_lookup_eq {first second : List (Text × α)}
    (firstSorted : first.Pairwise fun a b => a.1 < b.1)
    (secondSorted : second.Pairwise fun a b => a.1 < b.1)
    (lookup_eq : ∀ name, first.lookup name = second.lookup name) : first = second := by
  induction first generalizing second with
  | nil =>
      cases second with
      | nil => rfl
      | cons entry rest =>
          have found := lookup_eq entry.1
          rw [lookup_cons_eq, if_pos rfl] at found
          contradiction
  | cons entry rest ih =>
      cases second with
      | nil =>
          have found := lookup_eq entry.1
          rw [lookup_cons_eq, if_pos rfl] at found
          contradiction
      | cons entry' rest' =>
          rcases entry with ⟨name, value⟩
          rcases entry' with ⟨name', value'⟩
          have ⟨nameFirst, restSorted⟩ := List.pairwise_cons.mp firstSorted
          have ⟨nameFirst', restSorted'⟩ := List.pairwise_cons.mp secondSorted
          by_cases same : name = name'
          · subst same
            have value_eq : value = value' := by
              simpa [lookup_cons_eq] using lookup_eq name
            subst value_eq
            have rest_eq : rest = rest' := by
              apply ih restSorted restSorted'
              intro other
              by_cases sameName : other = name
              · rw [sameName, lookup_eq_none_of_lt nameFirst, lookup_eq_none_of_lt nameFirst']
              · simpa [lookup_cons_eq, sameName] using lookup_eq other
            rw [rest_eq]
          · -- the lesser of the two names is missing from the other list
            by_cases less : name < name'
            · have missing : List.lookup name ((name', value') :: rest') = none := by
                refine lookup_eq_none_of_lt (List.forall_mem_cons.mpr ⟨less, ?_⟩)
                exact fun other member => List.lt_trans less (nameFirst' other member)
              rw [← lookup_eq, lookup_cons_eq, if_pos rfl] at missing
              contradiction
            · have less' : name' < name := lt_of_not_lt_of_ne less same
              have missing : List.lookup name' ((name, value) :: rest) = none := by
                refine lookup_eq_none_of_lt (List.forall_mem_cons.mpr ⟨less', ?_⟩)
                exact fun other member => List.lt_trans less' (nameFirst other member)
              rw [lookup_eq, lookup_cons_eq, if_pos rfl] at missing
              contradiction

theorem eq_of_get?_eq {first second : NameMap α}
    (get?_eq : ∀ name, first.get? name = second.get? name) : first = second := by
  rcases first with ⟨entries, sorted⟩
  rcases second with ⟨entries', sorted'⟩
  have entries_eq : entries = entries' := entries_eq_of_lookup_eq sorted sorted' get?_eq
  subst entries_eq
  rfl

end LogIntake.NameMap
