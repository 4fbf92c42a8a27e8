import LogIntake.Message.Json
import LogIntake.Proofs.Message.History

/-!
# Messages as objects

The object of a message and the lookup of its fields are two views of one thing: the
object has a member for each field that is contained and for nothing else, and the
member holds what is looked up. Only the timestamp is written in another form.

No two members have one name, because slots have distinct names, additional fields
have distinct names, and no additional field has the name of a slot. The text has the
members in strictly increasing order of their names.
-/

namespace LogIntake

/-! ## Members in order -/

namespace Json

theorem perm_insertByName (member : Text × Json) (members : Members) :
    (insertByName member members).Perm (member :: members) := by
  induction members with
  | nil => exact .refl _
  | cons first rest ih =>
      rw [insertByName]
      split
      · exact (ih.cons first).trans (.swap member first rest)
      · exact .refl _

theorem perm_sortByName (members : Members) : (sortByName members).Perm members := by
  induction members with
  | nil => exact .refl _
  | cons member members ih =>
      exact (perm_insertByName member (sortByName members)).trans (ih.cons member)

theorem pairwise_insertByName {member : Text × Json} {members : Members}
    (new : ∀ other ∈ members, member.1 ≠ other.1)
    (ordered : members.Pairwise fun first second => first.1 < second.1) :
    (insertByName member members).Pairwise fun first second => first.1 < second.1 := by
  induction members with
  | nil => exact List.pairwise_singleton _ _
  | cons first rest ih =>
      obtain ⟨notFirst, notLater⟩ := List.forall_mem_cons.mp new
      obtain ⟨firstLess, restOrdered⟩ := List.pairwise_cons.mp ordered
      rw [insertByName]
      split
      · rename_i less
        refine List.pairwise_cons.mpr ⟨fun other isMember => ?_, ih notLater restOrdered⟩
        rcases List.mem_cons.mp ((perm_insertByName member rest).mem_iff.mp isMember) with
          rfl | later
        · exact less
        · exact firstLess other later
      · rename_i notLess
        have less : member.1 < first.1 := NameMap.lt_of_not_lt_of_ne notLess notFirst.symm
        refine List.pairwise_cons.mpr ⟨fun other isMember => ?_, ordered⟩
        rcases List.mem_cons.mp isMember with rfl | later
        · exact less
        · exact List.lt_trans less (firstLess other later)

/-- Sorting members with distinct names puts them in strictly increasing order. -/
theorem pairwise_sortByName {members : Members} (distinct : (members.map Prod.fst).Nodup) :
    (sortByName members).Pairwise fun first second => first.1 < second.1 := by
  induction members with
  | nil => exact .nil
  | cons member members ih =>
      obtain ⟨new, restDistinct⟩ := List.nodup_cons.mp distinct
      refine pairwise_insertByName (fun other isMember same => new ?_) (ih restDistinct)
      rw [same]
      exact List.mem_map_of_mem ((perm_sortByName members).mem_iff.mp isMember)

end Json

namespace Message

variable {message : Message} {name : Text} {json : Json}

/-! ## Members of slots -/

/-- What is written for a slot, if it is filled. -/
def slotJson? (message : Message) : Slot → Option Json
  | .timestamp => some (.string message.timestamp.toText)
  | slot => (message.slotValue? slot).map Field.Value.toJson

theorem slotMember?_eq (message : Message) (slot : Slot) :
    message.slotMember? slot = (message.slotJson? slot).map fun json => (slot.name, json) := by
  cases slot <;> simp [slotMember?, slotJson?, Function.comp_def]

/-- Members of slots have names of slots, each at most once. -/
theorem names_slotMembers (message : Message) (slots : List Slot) :
    ((slots.filterMap message.slotMember?).map Prod.fst).Sublist (slots.map Slot.name) := by
  induction slots with
  | nil => exact .slnil
  | cons slot slots ih =>
      rw [List.filterMap_cons, slotMember?_eq]
      cases message.slotJson? slot with
      | none => exact ih.cons _
      | some json => exact ih.cons_cons _

theorem mem_slotMembers :
    (name, json) ∈ Slot.all.filterMap message.slotMember? ↔
      ∃ slot, slot.name = name ∧ message.slotJson? slot = some json := by
  simp only [List.mem_filterMap, slotMember?_eq, Option.map_eq_some_iff, Prod.mk.injEq]
  constructor
  · rintro ⟨slot, -, _, written, named, rfl⟩
    exact ⟨slot, named, written⟩
  · rintro ⟨slot, named, written⟩
    exact ⟨slot, by cases slot <;> decide, json, written, named, rfl⟩

/-! ## All members -/

/-- What is written for a field, if it is contained. -/
def json? (message : Message) (name : Text) : Option Json :=
  match Slot.ofName? name with
  | some slot => message.slotJson? slot
  | none => (message.additional.get? name).map Field.Value.toJson

theorem json?_eq_map_get? (notTimestamp : name ≠ Slot.timestamp.name) :
    message.json? name = (message.get? name).map Field.Value.toJson := by
  unfold json? get?
  cases found : Slot.ofName? name with
  | none => rfl
  | some slot =>
      rw [Slot.ofName?_eq_some_iff] at found
      cases slot <;> first | rfl | exact absurd found.symm notTimestamp

theorem isSome_json? (message : Message) (name : Text) :
    (message.json? name).isSome = message.contains name := by
  unfold json? contains
  cases Slot.ofName? name with
  | none => rw [Option.isSome_map, NameMap.contains_eq_isSome_get?]
  | some slot => cases slot <;> simp [slotJson?, slotValue?, fills]

/-- The members are exactly what is written for the fields. -/
theorem Tidy.mem_jsonMembers (tidy : message.Tidy) :
    (name, json) ∈ message.jsonMembers ↔ message.json? name = some json := by
  rw [jsonMembers, List.mem_append, mem_slotMembers, json?]
  cases found : Slot.ofName? name with
  | some slot =>
      rw [Slot.ofName?_eq_some_iff] at found
      subst found
      constructor
      · rintro (⟨other, named, written⟩ | additional)
        · rwa [← Slot.name_inj.mp named]
        · obtain ⟨⟨key, value⟩, member, same⟩ := List.mem_map.mp additional
          obtain ⟨notSlot, -⟩ := tidy.get?_of_mem member
          exact absurd (Prod.mk.inj same).1.symm (Slot.ofName?_eq_none_iff.mp notSlot slot)
      · exact fun written => .inl ⟨slot, rfl, written⟩
  | none =>
      rw [Slot.ofName?_eq_none_iff] at found
      simp only [Option.map_eq_some_iff, NameMap.get?_eq_some_iff]
      constructor
      · rintro (⟨slot, named, -⟩ | additional)
        · exact absurd named (found slot)
        · obtain ⟨⟨key, value⟩, member, same⟩ := List.mem_map.mp additional
          cases same
          exact ⟨value, member, rfl⟩
      · rintro ⟨value, member, rfl⟩
        exact .inr (List.mem_map.mpr ⟨(name, value), member, rfl⟩)

theorem Tidy.nodup_jsonMembers (tidy : message.Tidy) :
    (message.jsonMembers.map Prod.fst).Nodup := by
  rw [jsonMembers, List.map_append, List.nodup_append]
  refine ⟨(message.names_slotMembers Slot.all).nodup (by decide), ?_, ?_⟩
  · rw [List.map_map]
    exact message.additional.nodup_names
  · rintro name isSlot _ additional rfl
    obtain ⟨slot, -, named⟩ := List.mem_map.mp ((message.names_slotMembers Slot.all).mem isSlot)
    rw [List.map_map] at additional
    obtain ⟨⟨key, value⟩, member, rfl⟩ := List.mem_map.mp additional
    exact Slot.ofName?_eq_none_iff.mp (tidy.get?_of_mem member).1 slot named

/-- What is found under a name in the object is what is written for the field. -/
theorem Tidy.find?_jsonMembers (tidy : message.Tidy) (name : Text) :
    message.jsonMembers.find? name = message.json? name := by
  apply Option.ext
  intro json
  rw [Json.Members.find?, NameMap.lookup_eq_some_iff tidy.nodup_jsonMembers, tidy.mem_jsonMembers]

/-- After any changes, the object of a message has distinct names, a member for each
field that is contained, and in it the form of what is looked up. Its text has these
members in order. -/
theorem object_members_are_fields (text : Text) (source? : Option Text) (timestamp : Instant)
    (changes : List Change) :
    let message := (create text source? timestamp).after changes
    let members := message.jsonMembers
    message.toJson = .object members ∧ (members.map Prod.fst).Nodup ∧
      (∀ name, name ∈ members.map Prod.fst ↔ message.contains name = true) ∧
      (∀ name, name ≠ Slot.timestamp.name →
        members.find? name =
          match message.get? name with
          | none => none
          | some (.text text) => some (.string text)
          | some (.integer n) => some (.number (.integer n))
          | some (.double x) => some (if x.isFinite then .number (.double x) else .null)) ∧
      ∃ ordered, message.toText = (Json.object ordered).toText ∧ ordered.Perm members ∧
        ordered.Pairwise fun first second => first.1 < second.1 := by
  intro message members
  have tidy : message.Tidy := (tidy_create text source? timestamp).after changes
  refine ⟨rfl, tidy.nodup_jsonMembers, fun name => ?_, fun name notTimestamp => ?_, ?_⟩
  · rw [← isSome_json?, Option.isSome_iff_exists, List.mem_map]
    constructor
    · rintro ⟨⟨key, json⟩, member, rfl⟩
      exact ⟨json, tidy.mem_jsonMembers.mp member⟩
    · rintro ⟨json, written⟩
      exact ⟨(name, json), tidy.mem_jsonMembers.mpr written, rfl⟩
  · rw [tidy.find?_jsonMembers, json?_eq_map_get? notTimestamp]
    cases message.get? name with
    | none => rfl
    | some value => cases value <;> rfl
  · exact ⟨Json.sortByName members, rfl, Json.perm_sortByName members,
      Json.pairwise_sortByName tidy.nodup_jsonMembers⟩

end Message

end LogIntake
