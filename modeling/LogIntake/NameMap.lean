import LogIntake.Text.Basic

/-!
# Maps from names

A finite map from names, kept as its entries in increasing order of names. The
order of names is that of their characters, which is also the order of their
bytes in UTF-8. Since the entries are in order, two maps with the same values
under the same names are equal, however they came about.
-/

namespace LogIntake

/-- A finite map from names to values, in increasing order of names. -/
structure NameMap (α : Type) where
  entries : List (Text × α)
  sorted : entries.Pairwise fun first second => first.1 < second.1
deriving DecidableEq

namespace NameMap

variable {α : Type}

/-! ## Order of names -/

theorem lt_of_not_lt_of_ne {first second : Text} (notLt : ¬ first < second)
    (distinct : first ≠ second) : second < first := by
  rcases List.le_iff_lt_or_eq.mp (List.not_lt.mp notLt) with less | same
  · exact less
  · exact absurd same.symm distinct

/-! ## Operations -/

/-- The map without entries. -/
def empty : NameMap α :=
  ⟨[], List.Pairwise.nil⟩

/-- Puts an entry into its place, where it takes the place of one with the same
name. -/
def insertEntry (name : Text) (value : α) : List (Text × α) → List (Text × α)
  | [] => [(name, value)]
  | entry :: rest =>
      if name < entry.1 then (name, value) :: entry :: rest
      else if name = entry.1 then (name, value) :: rest
      else entry :: insertEntry name value rest

theorem mem_insertEntry {name : Text} {value : α} {entries : List (Text × α)}
    {entry : Text × α} (member : entry ∈ insertEntry name value entries) :
    entry = (name, value) ∨ entry ∈ entries := by
  induction entries with
  | nil => simpa [insertEntry] using member
  | cons first rest ih =>
      simp only [insertEntry] at member
      split at member
      · simpa using member
      · split at member
        · rcases List.mem_cons.mp member with same | member
          · exact .inl same
          · exact .inr (List.mem_cons_of_mem _ member)
        · rcases List.mem_cons.mp member with same | member
          · exact .inr (same ▸ List.mem_cons_self)
          · exact (ih member).imp_right (List.mem_cons_of_mem _)

theorem pairwise_insertEntry (name : Text) (value : α) {entries : List (Text × α)}
    (sorted : entries.Pairwise fun first second => first.1 < second.1) :
    (insertEntry name value entries).Pairwise fun first second => first.1 < second.1 := by
  induction entries with
  | nil => exact List.pairwise_singleton _ _
  | cons first rest ih =>
      have ⟨firstLt, restSorted⟩ := List.pairwise_cons.mp sorted
      simp only [insertEntry]
      split
      · rename_i nameLt
        refine List.pairwise_cons.mpr ⟨fun entry member => ?_, sorted⟩
        rcases List.mem_cons.mp member with same | member
        · exact same ▸ nameLt
        · exact List.lt_trans nameLt (firstLt entry member)
      · split
        · rename_i sameName
          exact List.pairwise_cons.mpr
            ⟨fun entry member => sameName ▸ firstLt entry member, restSorted⟩
        · rename_i notLt distinct
          refine List.pairwise_cons.mpr ⟨fun entry member => ?_, ih restSorted⟩
          rcases mem_insertEntry member with same | member
          · exact same ▸ lt_of_not_lt_of_ne notLt distinct
          · exact firstLt entry member

/-- Gives a name a value. -/
def insert (map : NameMap α) (name : Text) (value : α) : NameMap α :=
  ⟨insertEntry name value map.entries, pairwise_insertEntry name value map.sorted⟩

/-- The value of a name. -/
def get? (map : NameMap α) (name : Text) : Option α :=
  map.entries.lookup name

/-- Whether a name has a value. -/
def contains (map : NameMap α) (name : Text) : Bool :=
  map.entries.any fun entry => entry.1 == name

/-- The names with a value, in increasing order. -/
def names (map : NameMap α) : List Text :=
  map.entries.map (·.1)

end NameMap

end LogIntake
