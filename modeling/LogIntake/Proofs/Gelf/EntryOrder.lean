import Mathlib.Data.List.Nodup
import LogIntake.Proofs.Gelf.Decoding
import LogIntake.Proofs.Gelf.Fields
import LogIntake.Proofs.Json.Scanning

/-!
# The order of entries

Which entry comes first decides which of two entries for the same field counts, and
nothing else. Documents in which no two entries are for the same field decode alike
when they have the same entries, whatever the order.

The mandatory and the well-known entries are looked up by key, so their order never
matters. Every other entry offers its value to one field, and what a run over all
entries leaves in a field depends on the offers to this field alone. When entries do
not clash there is at most one.
-/

namespace LogIntake.Gelf

/-! ## Clashes -/

/-- The name of the field that an entry is for: the name that it gives, without blanks at
the ends. -/
def target (entry : Text × Json) : Text :=
  (fieldName entry.1).trim

/-- No two entries are for the same field. -/
def ClashFree (entries : Json.Members) : Prop :=
  (entries.map target).Nodup

variable {policy : Field.Policy} {name : Text}

theorem target_eq_of_offerTo? {entry : Text × Json} {value : Field.Value}
    (offer : offerTo? policy name entry = some value) : target entry = name := by
  rw [offerTo?, Option.ite_none_right_eq_some] at offer
  exact offer.1

namespace ClashFree

variable {first second : Json.Members}

theorem of_perm (clashFree : ClashFree first) (perm : first.Perm second) : ClashFree second :=
  (perm.map target).nodup_iff.mp clashFree

theorem nodup_keys (clashFree : ClashFree first) : (first.map Prod.fst).Nodup := by
  have targets_eq :
      first.map target = (first.map Prod.fst).map fun key => (fieldName key).trim := by
    rw [List.map_map]
    rfl
  rw [ClashFree, targets_eq] at clashFree
  exact List.Nodup.of_map _ clashFree

/-- Every key has the same value in either order. -/
theorem find?_eq (clashFree : ClashFree first) (perm : first.Perm second) :
    first.find? = second.find? :=
  funext (NameMap.lookup_eq_of_perm perm (clashFree.of_perm perm).nodup_keys)

/-- At most one of the entries offers a value to a field. -/
theorem findSome?_eq_some_iff (clashFree : ClashFree first) {value : Field.Value} :
    first.findSome? (offerTo? policy name) = some value ↔
      ∃ entry ∈ first, offerTo? policy name entry = some value := by
  constructor
  · exact List.exists_of_findSome?_eq_some
  · rintro ⟨entry, member, offer⟩
    have found : (first.findSome? (offerTo? policy name)).isSome :=
      List.findSome?_isSome_iff.mpr ⟨entry, member, Option.isSome_of_mem offer⟩
    -- whichever entry has been found is for the same field as the given one
    obtain ⟨other, other_eq⟩ := Option.isSome_iff_exists.mp found
    obtain ⟨rival, rivalMember, rivalOffer⟩ := List.exists_of_findSome?_eq_some other_eq
    have same : rival = entry := List.inj_on_of_nodup_map clashFree rivalMember member
      ((target_eq_of_offerTo? rivalOffer).trans (target_eq_of_offerTo? offer).symm)
    rw [other_eq, ← rivalOffer, same, offer]

/-- The first offer to a field is the same in either order. -/
theorem findSome?_eq (clashFree : ClashFree first) (perm : first.Perm second) :
    first.findSome? (offerTo? policy name) = second.findSome? (offerTo? policy name) := by
  apply Option.ext
  intro value
  rw [clashFree.findSome?_eq_some_iff, (clashFree.of_perm perm).findSome?_eq_some_iff]
  simp only [perm.mem_iff]

theorem filter (clashFree : ClashFree first) (keeps : Text × Json → Bool) :
    ClashFree (first.filter keeps) :=
  clashFree.sublist (List.filter_sublist.map target)

/-- What a run over entries leaves in a field is the same in either order. -/
theorem get?_addEntries_eq (clashFree : ClashFree first) (perm : first.Perm second)
    {message : Message} (tidy : message.Tidy) (name : Text) :
    (addEntries policy message first).get? name = (addEntries policy message second).get? name := by
  have padded_eq : lastPadded? policy name first = lastPadded? policy name second := by
    -- the last offer is the first of the reversed entries
    unfold lastPadded?
    have reversed := List.reverse_perm (first.filter isPadded)
    apply ((clashFree.filter isPadded).of_perm reversed.symm).findSome?_eq
    exact reversed.trans ((perm.filter isPadded).trans (List.reverse_perm _).symm)
  have unpadded_eq : firstUnpadded? policy name first = firstUnpadded? policy name second :=
    (clashFree.filter _).findSome?_eq (perm.filter _)
  rw [get?_addEntries policy tidy, get?_addEntries policy tidy, padded_eq, unpadded_eq]

end ClashFree

/-! ## Documents -/

variable {first second : Json.Members}

/-- Only the values under keys matter to the message before its additional fields. -/
theorem startMessage_congr (same : first.find? = second.find?) (raw : RawMessage) :
    startMessage policy raw first = startMessage policy raw second := by
  simp only [startMessage, mainText, textAt?, timestamp, addKnownFields, knownFields, integerAt?,
    same]

theorem check_congr (same : first.find? = second.find?) : check first = check second := by
  simp only [check, same]

/-- Entries that do not clash make the same message in either order. -/
theorem ClashFree.value_toMessage_eq (clashFree : ClashFree first) (perm : first.Perm second)
    (raw : RawMessage) :
    (toMessage policy raw first).value = (toMessage policy raw second).value := by
  rw [value_toMessage, value_toMessage, startMessage_congr (clashFree.find?_eq perm)]
  have startTidy : (startMessage policy raw second).Tidy := tidy_startMessage
  apply Message.eq_of_get?_eq (tidy_addEntries policy first startTidy)
    (tidy_addEntries policy second startTidy)
  · rw [timestamp_addEntries, timestamp_addEntries]
  · exact clashFree.get?_addEntries_eq perm startTidy

/-- Two payloads that differ in the order of entries alone, which do not clash, decode to
the same message or fail the same check for the same reason. -/
theorem decode_reordered_document (decoder : Decoder) {raw reordered : RawMessage}
    {text reorderedText : Text} {document reorderedDocument : Json.Document}
    (received : reordered = { raw with payload := reordered.payload })
    (text_eq : (Payload.toText raw.payload decoder.limit decoder.charset).value = .ok text)
    (reorderedText_eq :
      (Payload.toText reordered.payload decoder.limit decoder.charset).value = .ok reorderedText)
    (read_eq : Json.Document.ofText text = .ok document)
    (reorderedRead_eq : Json.Document.ofText reorderedText = .ok reorderedDocument)
    (perm : document.value.members.Perm reorderedDocument.value.members)
    (clashFree : ClashFree document.value.members) :
    (∃ message, (decoder.decode raw).value = .ok message ∧
        (decoder.decode reordered).value = .ok message) ∨
      ∃ reason, (decoder.decode raw).value = .error (.validation raw reason text) ∧
        (decoder.decode reordered).value =
          .error (.validation reordered reason reorderedText) := by
  have received_eq : reordered.received = raw.received := by
    rw [received]
  have message_eq (violation : Violation) :
      violation.message reordered = violation.message raw := by
    rw [received]
    rfl
  rw [(decode_of_document text_eq read_eq).1,
    (decode_of_document reorderedText_eq reorderedRead_eq).1]
  simp only [value_decodeDocument, message_eq]
  rw [← check_congr (clashFree.find?_eq perm), value_toMessage_congr received_eq,
    ← clashFree.value_toMessage_eq perm]
  cases check document.value.members with
  | error violation => exact .inr ⟨violation.message raw, rfl, rfl⟩
  | ok _ => exact .inl ⟨_, rfl, rfl⟩

/-- A document with entries that reach slots under other keys than the well-known ones. -/
def straightDocument : Text :=
  "\x7b\"short_message\":\"m\",\" message\":\"n\",\"_source\":\"s\"\x7d".toList

/-- The same entries the other way round. -/
def reversedDocument : Text :=
  "\x7b\"_source\":\"s\",\" message\":\"n\",\"short_message\":\"m\"\x7d".toList

/-- The entries of the straight document. -/
def straightMembers : Json.Members :=
  [(shortMessageKey, .string ['m']), (" message".toList, .string ['n']),
    ("_source".toList, .string ['s'])]

/-- The entries of the reversed document. -/
def reversedMembers : Json.Members :=
  [("_source".toList, .string ['s']), (" message".toList, .string ['n']),
    (shortMessageKey, .string ['m'])]

theorem ofText_straightDocument :
    Json.Document.ofText straightDocument = .ok ⟨.object straightMembers, false⟩ :=
  Json.toOption_eq_some_iff.mp (by decide +kernel)

theorem ofText_reversedDocument :
    Json.Document.ofText reversedDocument = .ok ⟨.object reversedMembers, false⟩ :=
  Json.toOption_eq_some_iff.mp (by decide +kernel)

/-- Both documents have the text of the padded entry. -/
theorem decode_reversedDocument :
    straightMembers.Perm reversedMembers ∧ ClashFree straightMembers ∧
      ∃ message, message.text = ['n'] ∧
        ((⟨64, .utf8, .standard⟩ : Decoder).decode (rawOf straightDocument)).value =
          .ok message ∧
        ((⟨64, .utf8, .standard⟩ : Decoder).decode (rawOf reversedDocument)).value =
          .ok message := by
  have clashFree : ClashFree straightMembers := by
    unfold ClashFree
    decide
  have perm : straightMembers.Perm reversedMembers := (List.reverse_perm straightMembers).symm
  have received : rawOf reversedDocument =
      { rawOf straightDocument with payload := (rawOf reversedDocument).payload } := rfl
  have straight := @value_toText_rawOf straightDocument (by decide +kernel) 64
  have reversed := @value_toText_rawOf reversedDocument (by decide +kernel) 64
  have alike := decode_reordered_document ⟨64, .utf8, .standard⟩ received straight reversed
    ofText_straightDocument ofText_reversedDocument perm clashFree
  have decoded := @decode_of_checked _ ⟨64, .utf8, .standard⟩ _ _ straight
    ofText_straightDocument rfl
  rcases alike with ⟨message, message_eq, reversed_eq⟩ | ⟨reason, failed, -⟩
  · have same := Except.ok.inj (decoded.symm.trans message_eq)
    refine ⟨perm, clashFree, message, ?_, message_eq, reversed_eq⟩
    rw [← same]
    decide +kernel
  · rw [decoded] at failed
    exact absurd failed nofun

end LogIntake.Gelf
