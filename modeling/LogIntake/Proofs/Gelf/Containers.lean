import LogIntake.Proofs.Gelf.Additional
import LogIntake.Proofs.Json.Printable

/-!
# Containers as additional fields

An array or an object is kept as its compact text. Nothing is lost by this unless it
holds doubles: the text that is stored is the one that was printed, for it neither starts
nor ends with a blank, and as a document of its own it has the container as its value.
-/

namespace LogIntake.Gelf

/-- Containers amount to their compact text. -/
theorem AmountsTo.eq_text {json : Json} {value : Field.Value} (amounts : AmountsTo json value)
    (container : json.IsContainer) : value = .text json.toText := by
  cases amounts with
  | array elements => rfl
  | object members => rfl
  | _ => exact container.elim

/-- The compact text of a container is stored as it is. -/
theorem isPlain_toText_of_isContainer {json : Json} (container : json.IsContainer) :
    Field.IsPlain json.toText := by
  cases json with
  | array elements => exact isPlain_toText_array elements
  | object members => exact isPlain_toText_object members
  | _ => exact container.elim

/-- The compact text of a container is never refused for its value, and never changed before it
is stored. -/
theorem insert_toText_of_isContainer {json : Json} (container : json.IsContainer)
    (message : Message) (policy : Field.Policy) (name : Text) :
    message.insert policy name (.text json.toText) =
      if Field.isName name.trim && policy.admits name.trim then
        message.store name.trim (.text json.toText)
      else .error (.name name.trim) := by
  rw [Message.insert, (isPlain_toText_of_isContainer container).normalized?_eq]

/-- Every additional field of a decoded message comes from an entry of its document, and when
this is a container without doubles, the field is a text that has the container as its
document, with nothing behind it. Setting a field to the text of any container depends on
nothing but the name of the field. -/
theorem containers_read_back (decoder : Decoder) (raw : RawMessage) {message : Message}
    (decoded : (decoder.decode raw).value = .ok message) :
    ∃ text document,
      (Payload.toText raw.payload decoder.limit decoder.charset).value = .ok text ∧
        Json.Document.ofText text = .ok document ∧
        (∀ name value, (name, value) ∈ message.additional.entries →
          (∃ key json, (key, json) ∈ document.value.members ∧ (fieldName key).trim = name ∧
            AmountsTo json value) ∧
          ∀ key json, (key, json) ∈ document.value.members → AmountsTo json value →
            json.IsContainer → json.DoubleFree →
            ∃ stored, value = .text stored ∧ Json.Document.ofText stored = .ok ⟨json, false⟩) ∧
        ∀ json : Json, json.IsContainer → ∀ (message : Message) policy name,
          message.insert policy name (.text json.toText) =
            if Field.isName name.trim && policy.admits name.trim then
              message.store name.trim (.text json.toText)
            else .error (.name name.trim) := by
  obtain ⟨text, document, text_eq, read_eq, -, message_eq⟩ := exists_document_of_decode decoded
  rw [value_toMessage] at message_eq
  have startTidy : (startMessage decoder.policy raw document.value.members).Tidy :=
    tidy_startMessage
  have tidy : message.Tidy := message_eq ▸ tidy_addEntries _ _ startTidy
  refine ⟨text, document, text_eq, read_eq, fun name value member => ⟨?_, ?_⟩,
    fun json container => insert_toText_of_isContainer container⟩
  · obtain ⟨notSlot, held⟩ := tidy.get?_of_mem member
    rw [message_eq] at held
    rcases get?_addEntries_cases startTidy held with before | ⟨⟨key, json⟩, entry, offer⟩
    · rw [get?_startMessage_of_notSlot notSlot] at before
      contradiction
    · obtain ⟨-, name_eq, -, -, -, amounts⟩ := (offerTo?_eq_some_iff notSlot).mp offer
      exact ⟨key, json, entry, name_eq, amounts⟩
  · intro key json entry amounts container doubleFree
    exact ⟨json.toText, amounts.eq_text container,
      Json.Document.ofText_toText_of_mem read_eq entry container doubleFree⟩

/-- A document with an object that holds a blank key, an escaped quote and a nested array. -/
def nestedDocument : Text :=
  Text.concat ["\x7b\"host\":\"h\",\"short_message\":\"m\",".toList,
    "\"_o\": \x7b\" \":[-1,\"\\u0022\"], \"b\":null\x7d\x7d".toList]

/-- The object in the nested document. -/
def nestedObject : Json :=
  .object [([' '], .array [.number (.integer (-1)), .string ['"']]), (['b'], .null)]

/-- The entries of the nested document. -/
def nestedMembers : Json.Members :=
  [(hostKey, .string ['h']), (shortMessageKey, .string ['m']), ("_o".toList, nestedObject)]

theorem ofText_nestedDocument :
    Json.Document.ofText nestedDocument = .ok ⟨.object nestedMembers, false⟩ :=
  Json.toOption_eq_some_iff.mp (by decide +kernel)

theorem doubleFree_nestedObject : nestedObject.DoubleFree := by
  refine .object fun member isMember => ?_
  simp only [List.mem_cons, List.not_mem_nil, or_false] at isMember
  rcases isMember with rfl | rfl
  · refine .array fun element isElement => ?_
    simp only [List.mem_cons, List.not_mem_nil, or_false] at isElement
    rcases isElement with rfl | rfl
    · exact .integer _
    · exact .string _
  · exact .null

theorem additional_nestedDocument :
    (toMessage .standard (rawOf nestedDocument) nestedMembers).value.additional.entries =
      [(['o'], .text nestedObject.toText)] := by
  decide +kernel

/-- What is stored for the nested document has the object as its document. -/
theorem containers_of_nestedDocument :
    ∃ message stored,
      ((⟨64, .utf8, .standard⟩ : Decoder).decode (rawOf nestedDocument)).value = .ok message ∧
      (['o'], .text stored) ∈ message.additional.entries ∧
      Json.Document.ofText stored = .ok ⟨nestedObject, false⟩ := by
  have nested := @value_toText_rawOf nestedDocument (by decide +kernel) 64
  have decoded := @decode_of_checked _ ⟨64, .utf8, .standard⟩ _ _ nested ofText_nestedDocument rfl
  obtain ⟨text, document, text_eq, read_eq, kept, -⟩ := containers_read_back _ _ decoded
  cases nested.symm.trans text_eq
  cases ofText_nestedDocument.symm.trans read_eq
  have held : (['o'], .text nestedObject.toText) ∈
      (toMessage .standard (rawOf nestedDocument) nestedMembers).value.additional.entries := by
    rw [additional_nestedDocument]
    exact List.mem_singleton_self _
  have isEntry : ("_o".toList, nestedObject) ∈ nestedMembers := by simp [nestedMembers]
  obtain ⟨-, readsBack⟩ := kept _ _ held
  obtain ⟨stored, value_eq, stored_eq⟩ :=
    readsBack _ _ isEntry (.object _) trivial doubleFree_nestedObject
  exact ⟨_, stored, decoded, value_eq ▸ held, stored_eq⟩

end LogIntake.Gelf
