import LogIntake.Gelf.Decoder
import LogIntake.Proofs.Field
import LogIntake.Proofs.Json.Printing
import LogIntake.Proofs.Message

/-!
# Records and their documents

A record is what a sender has to say: the host, the short message, the well-known
fields that it knows, and further fields by name. Its document has an entry for each
of them. The names of further fields get an underscore in front, so their entries
are told apart from the well-known ones even where the names look alike.

The entries of a document may come in any order.
-/

namespace LogIntake.Gelf

open Json (Printable)

/-! ## Records -/

/-- The names that stand for parts of every record. -/
def recordNames : List Text :=
  Slot.all.map Slot.name ++ [hostKey, shortMessageKey]

/-- The values that are sent and stored alike: texts that are neither blank nor
padded, and integers of 64 bits. -/
def IsPlainValue : Field.Value → Prop
  | .text text => Field.IsPlain text
  | .integer n => Text.fitsInt64 n = true
  | .double _ => False

/-- A further field of a record. -/
structure IsFurther (name : Text) (value : Field.Value) : Prop where
  named : Field.isName name = true
  admitted : Field.Policy.standard.admits name = true
  other : name ∉ recordNames
  plain : IsPlainValue value

theorem IsPlainValue.normalized?_eq {value : Field.Value} (plain : IsPlainValue value) :
    value.normalized? = some value := by
  cases value with
  | text text => exact Field.IsPlain.normalized?_eq plain
  | integer n => rfl
  | double x => contradiction

theorem IsFurther.ofName?_eq_none {name : Text} {value : Field.Value}
    (further : IsFurther name value) : Slot.ofName? name = none := by
  cases found : Slot.ofName? name with
  | none => rfl
  | some slot =>
      have isSlot : slot.name ∈ recordNames := by cases slot <;> decide
      rw [Slot.ofName?_eq_some_iff.mp found] at isSlot
      exact absurd isSlot further.other

/-- What a sender reports about one event. -/
structure Record where
  host : Text
  shortMessage : Text
  fullMessage? : Option Text
  file? : Option Text
  line? : Option Int
  level? : Option Int
  facility? : Option Text
  fields : NameMap Field.Value
  hostFilled : host.isBlank = false
  shortMessageFilled : shortMessage.isBlank = false
  fullMessagePlain : ∀ text ∈ fullMessage?, Field.IsPlain text
  filePlain : ∀ text ∈ file?, Field.IsPlain text
  lineFits : ∀ n ∈ line?, 0 ≤ n ∧ n ≤ maxLine
  levelFits : ∀ n ∈ level?, 0 ≤ n ∧ n ≤ maxLevel
  facilityPlain : ∀ text ∈ facility?, Field.IsPlain text
  fieldsFurther : ∀ field ∈ fields.entries, IsFurther field.1 field.2

/-- The entries that are there. -/
def present (entries : List (Text × Option Json)) : Json.Members :=
  entries.filterMap fun entry => entry.2.map fun value => (entry.1, value)

theorem mem_present {entries : List (Text × Option Json)} {key : Text} {value : Json} :
    (key, value) ∈ present entries ↔ (key, some value) ∈ entries := by
  simp only [present, List.mem_filterMap, Option.map_eq_some_iff, Prod.mk.injEq]
  constructor
  · rintro ⟨⟨_, value?⟩, member, _, rfl, rfl, rfl⟩
    exact member
  · intro member
    exact ⟨_, member, value, rfl, rfl, rfl⟩

theorem keys_present (entries : List (Text × Option Json)) :
    (present entries).map Prod.fst |>.Sublist (entries.map Prod.fst) := by
  induction entries with
  | nil => exact .slnil
  | cons entry entries ih =>
      rcases entry with ⟨key, value?⟩
      cases value? with
      | none => exact .cons key ih
      | some value => exact .cons_cons key ih

theorem lookup_present {entries : List (Text × Option Json)} {key : Text} {value? : Option Json}
    (distinct : (entries.map Prod.fst).Nodup) (member : (key, value?) ∈ entries) :
    (present entries).lookup key = value? := by
  apply Option.ext
  intro value
  rw [NameMap.lookup_eq_some_iff ((keys_present entries).nodup distinct), mem_present,
    ← NameMap.lookup_eq_some_iff distinct, (NameMap.lookup_eq_some_iff distinct).mpr member,
    Option.some.injEq]

namespace Record

/-- The message that says the same as a record. -/
def message (record : Record) (received : Instant) : Message where
  text := record.shortMessage
  source? := some record.host
  timestamp := received
  fullMessage? := record.fullMessage?
  file? := record.file?
  line? := record.line?
  level? := record.level?
  facility? := record.facility?
  additional := record.fields

/-! ## Documents -/

/-- The well-known entries of the document of a record, which may have a version. -/
def knownEntries (record : Record) (version? : Option Json) : List (Text × Option Json) :=
  [("version".toList, version?),
    (hostKey, some (.string record.host)),
    (shortMessageKey, some (.string record.shortMessage)),
    (Slot.fullMessage.name, record.fullMessage?.map .string),
    (Slot.file.name, record.file?.map .string),
    (Slot.line.name, record.line?.map fun n => .number (.integer n)),
    (Slot.level.name, record.level?.map fun n => .number (.integer n)),
    (Slot.facility.name, record.facility?.map .string)]

/-- The entry of a further field. -/
def fieldEntry (field : Text × Field.Value) : Text × Json :=
  ('_' :: field.1, field.2.toJson)

/-- The entries of the document of a record. -/
def entries (record : Record) (version? : Option Json) : Json.Members :=
  present (record.knownEntries version?) ++ record.fields.entries.map fieldEntry

/-- The keys of well-known entries. -/
def knownKeys : List Text :=
  ["version".toList, hostKey, shortMessageKey, Slot.fullMessage.name, Slot.file.name,
    Slot.line.name, Slot.level.name, Slot.facility.name]

variable (record : Record) (version? : Option Json)

theorem map_knownEntries : (record.knownEntries version?).map Prod.fst = knownKeys :=
  rfl

/-- No entry of a further field has a well-known key. -/
theorem fieldEntry_ne {key : Text} (plain : key.head? ≠ some '_') (field : Text × Field.Value) :
    (fieldEntry field).1 ≠ key := by
  rintro rfl
  exact plain rfl

theorem head?_knownKeys : ∀ key ∈ knownKeys, key.head? ≠ some '_' := by
  decide

theorem nodup_keys : ((record.entries version?).map Prod.fst).Nodup := by
  rw [entries, List.map_append, List.nodup_append]
  have known := keys_present (record.knownEntries version?)
  rw [map_knownEntries] at known
  refine ⟨known.nodup (by decide), ?_, ?_⟩
  · have names := record.fields.nodup_names
    rw [List.nodup_iff_pairwise_ne, List.pairwise_map] at names
    rw [List.map_map, List.nodup_iff_pairwise_ne, List.pairwise_map]
    exact names.imp fun distinct same => distinct (List.cons.inj same).2
  · intro key isKnown other isField same
    rcases List.mem_map.mp isField with ⟨entry, member, rfl⟩
    rcases List.mem_map.mp member with ⟨field, -, rfl⟩
    exact fieldEntry_ne (head?_knownKeys key (known.mem isKnown)) field same.symm

variable {record version?}

/-- An entry of a document is a well-known one or that of a further field. -/
theorem mem_entries {entry : Text × Json} (member : entry ∈ record.entries version?) :
    (entry.1, some entry.2) ∈ record.knownEntries version? ∨
      ∃ field ∈ record.fields.entries, entry = fieldEntry field := by
  rcases List.mem_append.mp member with known | further
  · exact .inl (mem_present.mp known)
  · rcases List.mem_map.mp further with ⟨field, isField, rfl⟩
    exact .inr ⟨field, isField, rfl⟩

section Documents

variable {document : Json.Members} (perm : document.Perm (record.entries version?))

include perm

theorem find?_of_mem {key : Text} {value? : Option Json}
    (known : (key, value?) ∈ record.knownEntries version?) : document.find? key = value? := by
  have isKnown : key ∈ knownKeys := by
    rw [← map_knownEntries record version?]
    exact List.mem_map_of_mem known
  have notFurther : (record.fields.entries.map fieldEntry).lookup key = none := by
    rw [List.lookup_eq_none_iff]
    intro entry member
    rcases List.mem_map.mp member with ⟨field, -, rfl⟩
    exact bne_iff_ne.mpr (fieldEntry_ne (head?_knownKeys key isKnown) field).symm
  have distinct : ((record.knownEntries version?).map Prod.fst).Nodup := by
    rw [map_knownEntries]
    decide
  rw [Json.Members.find?, NameMap.lookup_eq_of_perm perm (record.nodup_keys version?), entries,
    List.lookup_append, notFurther, Option.or_none, lookup_present distinct known]

theorem find?_of_notMem {key : Text} (unknown : key ∉ knownKeys) (plain : key.head? ≠ some '_') :
    document.find? key = none := by
  rw [Json.Members.find?, List.lookup_eq_none_iff]
  intro entry member
  rw [bne_iff_ne]
  rintro rfl
  rcases mem_entries (perm.mem_iff.mp member) with known | ⟨field, -, entry_eq⟩
  · rw [← map_knownEntries record version?] at unknown
    exact unknown (List.mem_map_of_mem known)
  · rw [entry_eq] at plain
    exact plain rfl

end Documents

/-! ## Texts of documents -/

theorem fitsNumeral_of_fitsInt64 {n : Int} (fits : Text.fitsInt64 n = true) :
    Json.FitsNumeral n := by
  have wider : Text.maxInt64 < Int.pow 2 64 := by decide
  simp only [Text.fitsInt64, Bool.and_eq_true, decide_eq_true_eq] at fits
  exact ⟨fits.1, by omega⟩

theorem printable_toJson {depth : Nat} {value : Field.Value} (plain : IsPlainValue value) :
    Printable depth value.toJson := by
  cases value with
  | text text => exact .string text
  | integer n => exact .integer (fitsNumeral_of_fitsInt64 plain)
  | double x => contradiction

theorem fits_of_le {n greatest : Int} (within : 0 ≤ n ∧ n ≤ greatest)
    (greatest_le : greatest ≤ Text.maxInt64) : Text.fitsInt64 n = true := by
  have negative : Text.minInt64 < 0 := by decide
  simp only [Text.fitsInt64, Bool.and_eq_true, decide_eq_true_eq]
  omega

theorem printable_known {depth : Nat}
    (versionPrintable : ∀ version ∈ version?, Printable depth version) :
    ∀ known ∈ record.knownEntries version?, ∀ value ∈ known.2, Printable depth value := by
  have texts (text? : Option Text) : ∀ value ∈ text?.map Json.string, Printable depth value := by
    intro value isText
    rcases Option.map_eq_some_iff.mp isText with ⟨text, -, rfl⟩
    exact .string text
  have numbers (n? : Option Int) (fits : ∀ n ∈ n?, Text.fitsInt64 n = true) :
      ∀ value ∈ n?.map fun n => Json.number (.integer n), Printable depth value := by
    intro value isNumber
    rcases Option.map_eq_some_iff.mp isNumber with ⟨n, isSome, rfl⟩
    exact .integer (fitsNumeral_of_fitsInt64 (fits n isSome))
  have lineFits : ∀ n ∈ record.line?, Text.fitsInt64 n = true :=
    fun n isLine => fits_of_le (record.lineFits n isLine) (Int.le_refl _)
  have levelFits : ∀ n ∈ record.level?, Text.fitsInt64 n = true :=
    fun n isLevel => fits_of_le (record.levelFits n isLevel) (by decide)
  simp only [knownEntries, List.forall_mem_cons]
  exact ⟨versionPrintable, texts (some _), texts (some _), texts _, texts _, numbers _ lineFits,
    numbers _ levelFits, texts _, nofun⟩

/-- The document of a record can be printed without loss. -/
theorem printable_document {depth : Nat} {document : Json.Members}
    (perm : document.Perm (record.entries version?))
    (versionPrintable : ∀ version ∈ version?, Printable depth version) :
    Printable (depth + 1) (.object document) := by
  refine .object ((perm.map Prod.fst).nodup_iff.mpr (record.nodup_keys version?)) ?_
  intro entry member
  rcases mem_entries (perm.mem_iff.mp member) with known | ⟨field, isField, rfl⟩
  · exact printable_known versionPrintable _ known entry.2 rfl
  · exact printable_toJson (record.fieldsFurther field isField).plain

end Record

end LogIntake.Gelf
