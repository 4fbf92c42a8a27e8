import LogIntake.Proofs.Gelf.Decoding
import LogIntake.Proofs.Gelf.Fields
import LogIntake.Proofs.Json.Scanning

/-!
# What is noted about omissions

A document that passes the check may still lose something on its way to a message. A
host that is missing is noted, and so is a timestamp that is a text, a boolean or null.

An entry that may be an additional field is asked for it unless its name is set or
protected. It then gives its field, has nothing but blanks to give, or is noted by an
event that names the field.
-/

namespace LogIntake

/-! ## Events that name a field -/

namespace Event

/-- The field that an event tells of. -/
def field? : Event → Option Text
  | fieldNull name | fieldUnsupported name | fieldRefused name => some name
  | fieldNotInteger slot => some slot.name
  | timestampNotSettable => some Slot.timestamp.name
  | _ => none

/-- An event names a field if it tells of the field and its wording has the name, in
either case up to blanks at the ends. -/
def Names (event : Event) (name : Text) : Prop :=
  ∃ shown, event.field? = some shown ∧ shown.trim = name.trim ∧
    ∀ dropped, shown <:+: event.message dropped

variable {event : Event} {name shown : Text}

theorem field?_isInfix_message (tells : event.field? = some shown) (dropped : Nat) :
    shown <:+: event.message dropped := by
  cases event with
  | fieldNull _ | fieldUnsupported _ | fieldRefused _ | fieldNotInteger _ =>
      cases tells
      exact List.infix_of_mem_flatten (List.mem_cons_of_mem _ List.mem_cons_self)
  | timestampNotSettable =>
      cases tells
      refine ⟨"Ignoring ".toList, " set through add_field".toList, ?_⟩
      change _ = "Ignoring timestamp set through add_field".toList
      decide
  | _ => contradiction

theorem names_of_field? (tells : event.field? = some shown) (same : shown.trim = name.trim) :
    event.Names name :=
  ⟨shown, tells, same, field?_isInfix_message tells⟩

end Event

/-- A message that does not take a field says so by an event that names it, unless the
value is blank. -/
theorem Message.names_of_insert_error {message : Message} {policy : Field.Policy} {name : Text}
    {value : Field.Value} {refusal : Refusal}
    (refused : message.insert policy name value = .error refusal) :
    (Field.isName name.trim = true ∧ policy.admits name.trim = true ∧
        value.normalized? = none) ∨
      ∃ event, Event.ofRefusal? refusal = some event ∧ event.Names name := by
  unfold insert at refused
  dsimp only at refused
  split at refused
  · rename_i admitted
    rw [Bool.and_eq_true] at admitted
    cases normalized : value.normalized? with
    | none => exact .inl ⟨admitted.1, admitted.2, rfl⟩
    | some stored =>
        right
        simp only [normalized, store] at refused
        cases found : Slot.ofName? name.trim with
        | none =>
            rw [found] at refused
            contradiction
        | some slot =>
            rw [found] at refused
            rw [Slot.ofName?_eq_some_iff] at found
            have same : slot.name.trim = name.trim := by
              rw [slot.name_trim, found]
            cases slot with
            | timestamp =>
                cases refused
                exact ⟨_, rfl, Event.names_of_field? rfl same⟩
            | line | level =>
                simp only [fill] at refused
                split at refused
                · contradiction
                · cases refused
                  exact ⟨_, rfl, Event.names_of_field? rfl same⟩
            | _ => contradiction
  · cases refused
    exact .inr ⟨_, rfl, Event.names_of_field? rfl (Text.trim_trim name)⟩

namespace Gelf

variable {policy : Field.Policy} {raw : RawMessage} {members : Json.Members} {message : Message}
  {event : Event}

/-! ## From a part to the whole -/

theorem mem_events_toMessage {front back : Json.Members} {entry : Text × Json}
    (split : members = front ++ entry :: back)
    (noted : event ∈
      (addEntry policy (addEntries policy (startMessage policy raw members) front) entry).events) :
    event ∈ (toMessage policy raw members).events := by
  unfold toMessage
  simp only [Logged.events_bind]
  refine List.mem_append_right _ (List.mem_append_right _ ?_)
  subst split
  exact Logged.mem_events_foldlM noted

/-- What is noted about a document that passes the check. -/
theorem mem_events_decode {decoder : Decoder} {text : Text} {document : Json.Document}
    (text_eq : (Payload.toText raw.payload decoder.limit decoder.charset).value = .ok text)
    (read_eq : Json.Document.ofText text = .ok document)
    (checked : check document.value.members = .ok ())
    (noted : event ∈ (examine raw document.value.members).events ∨
      event ∈ (toMessage decoder.policy raw document.value.members).events) :
    event ∈ (decoder.decode raw).events := by
  have inDocument : event ∈ (decodeDocument decoder.policy raw text document).events := by
    unfold decodeDocument
    rcases noted with noted | noted <;> cases document.isFollowed <;>
      simp [value_examine, checked, noted]
  unfold Decoder.decode decodeText
  simp only [Logged.events_bind, text_eq, read_eq]
  exact List.mem_append_right _ (List.mem_append_right _ inDocument)

/-! ## Mandatory entries -/

theorem hostMissing_mem_examine (missing : members.find? hostKey = none) :
    .hostMissing raw ∈ (examine raw members).events := by
  unfold examine noteHost
  rw [missing]
  exact List.mem_append_left _ List.mem_cons_self

/-- A number, an array or an object. -/
def IsNumberOrContainer : Json → Prop
  | .number _ | .array _ | .object _ => True
  | _ => False

theorem timestampInvalid_mem_examine {found : Json} (checked : check members = .ok ())
    (held : members.find? timestampKey = some found) (odd : ¬ IsNumberOrContainer found) :
    .timestampInvalid raw (scalarText found) (kindName found) ∈ (examine raw members).events := by
  have noted : noteTimestamp raw members =
      Logged.note (.timestampInvalid raw (scalarText found) (kindName found)) := by
    unfold noteTimestamp
    rw [held]
    cases found with
    | null | bool _ | string _ => rfl
    | number _ | array _ | object _ => exact absurd trivial odd
  unfold examine
  rw [Logged.events_bind, checked, noted]
  exact List.mem_append_right _ List.mem_cons_self

/-! ## Further entries -/

/-- An entry is asked for a field if it may be an additional field by its key, and its
name is neither set already nor protected. -/
structure IsAsked (policy : Field.Policy) (message : Message) (entry : Text × Json) : Prop where
  additional : isAdditional entry.1 = true
  unset : message.contains (fieldName entry.1) = false
  admitted : policy.admits (fieldName entry.1) = true

variable {entry : Text × Json}

theorem IsAsked.events_addEntry (asked : IsAsked policy message entry) :
    (addEntry policy message entry).events =
      (fieldValue? (fieldName entry.1) entry.2).events ++
        (fieldValue? (fieldName entry.1) entry.2).value.elim [] fun value =>
          (addField policy (fieldName entry.1) value message).events := by
  unfold addEntry
  dsimp only
  rw [asked.additional, asked.unset, asked.admitted, Bool.not_false, Bool.and_true, Bool.and_true,
    if_pos rfl, Logged.events_bind]
  cases (fieldValue? (fieldName entry.1) entry.2).value <;> rfl

/-- Null and values of no kind that fields have are noted. -/
theorem names_of_fieldValue?_eq_none {name : Text} {value : Json}
    (none_eq : (fieldValue? name value).value = none) :
    ∃ event ∈ (fieldValue? name value).events, event.Names name := by
  cases value with
  | null | bool _ => exact ⟨_, List.mem_cons_self, Event.names_of_field? rfl rfl⟩
  | number n => cases n <;> contradiction
  | string _ | array _ | object _ => contradiction

/-- An entry has nothing but blanks to give to a field that it could give something. -/
structure IsBlankEntry (policy : Field.Policy) (entry : Text × Json) : Prop where
  blank : ∃ text, (fieldValue? (fieldName entry.1) entry.2).value = some (.text text) ∧
    text.isBlank = true
  isName : Field.isName (fieldName entry.1).trim = true
  admitted : policy.admits (fieldName entry.1).trim = true

/-- An entry that is asked gives its field, has nothing but blanks to give, or is noted
by an event that names the field. -/
theorem IsAsked.addEntry_cases (asked : IsAsked policy message entry) :
    (∃ held, offered? policy entry = some held ∧
        (addEntry policy message entry).value.get? (fieldName entry.1).trim = some held) ∨
      IsBlankEntry policy entry ∨
      ∃ event ∈ (addEntry policy message entry).events, event.Names (fieldName entry.1) := by
  cases value_eq : (fieldValue? (fieldName entry.1) entry.2).value with
  | none =>
      obtain ⟨event, noted, names⟩ := names_of_fieldValue?_eq_none value_eq
      refine .inr (.inr ⟨event, ?_, names⟩)
      rw [asked.events_addEntry]
      exact List.mem_append_left _ noted
  | some value =>
      have inserted := message.insert_spec policy (fieldName entry.1) value
      cases accepted : Message.accepted? policy (fieldName entry.1) value with
      | some held =>
          have offer : offered? policy entry = some held := by
            simp [offered?, asked.additional, asked.admitted, value_eq, accepted]
          refine .inl ⟨held, offer, ?_⟩
          rw [get?_addEntry, asked.unset, if_neg Bool.false_ne_true, offerTo?, if_pos rfl, offer,
            Option.some_or]
      | none =>
          rw [accepted] at inserted
          obtain ⟨refusal, refused⟩ := inserted
          rcases Message.names_of_insert_error refused with
            ⟨isName, admitted, blank⟩ | ⟨event, event_eq, names⟩
          · obtain ⟨text, rfl, isBlank⟩ := Field.Value.normalized?_eq_none_iff.mp blank
            exact .inr (.inl ⟨⟨text, value_eq, isBlank⟩, isName, admitted⟩)
          · refine .inr (.inr ⟨event, ?_, names⟩)
            rw [asked.events_addEntry, value_eq, Option.elim_some]
            refine List.mem_append_right _ ?_
            simp [addField, refused, event_eq]

/-- An entry has a value of no kind that fields have, or a name that is protected without
its blanks at the ends. -/
def IsUnusable (policy : Field.Policy) (entry : Text × Json) : Prop :=
  entry.2 = .null ∨ (∃ truth, entry.2 = .bool truth) ∨
    policy.admits (fieldName entry.1).trim = false

theorem IsUnusable.offered?_eq_none (unusable : IsUnusable policy entry) :
    offered? policy entry = none := by
  rcases entry with ⟨key, value⟩
  rcases unusable with rfl | ⟨truth, rfl⟩ | protects
  · simp [offered?, fieldValue?]
  · simp [offered?, fieldValue?]
  · simp [offered?, Message.accepted?, protects]

theorem IsUnusable.not_isBlankEntry (unusable : IsUnusable policy entry) :
    ¬ IsBlankEntry policy entry := by
  rintro ⟨⟨text, value_eq, -⟩, -, admitted⟩
  rcases entry with ⟨key, value⟩
  rcases unusable with rfl | ⟨truth, rfl⟩ | protects
  · simp [fieldValue?] at value_eq
  · simp [fieldValue?] at value_eq
  · rw [protects] at admitted
    contradiction

/-- An entry that is asked and cannot be used is noted by an event that names its field. -/
theorem IsAsked.noted_of_isUnusable (asked : IsAsked policy message entry)
    (unusable : IsUnusable policy entry) :
    ∃ event ∈ (addEntry policy message entry).events, event.Names (fieldName entry.1) := by
  rcases asked.addEntry_cases with ⟨held, offer, -⟩ | blank | noted
  · rw [unusable.offered?_eq_none] at offer
    contradiction
  · exact absurd blank unusable.not_isBlankEntry
  · exact noted

/-- When a document passes the check, decoding gives a message and notes a host that is
missing and a timestamp that is neither a number nor a container. Every entry that is
asked for a field gives it, has nothing but blanks to give, or is noted by an event that
names the field; the latter, if it cannot be used for its value or its name. -/
theorem omissions_are_noted {decoder : Decoder} {text : Text} {document : Json.Document}
    (text_eq : (Payload.toText raw.payload decoder.limit decoder.charset).value = .ok text)
    (read_eq : Json.Document.ofText text = .ok document)
    (checked : check document.value.members = .ok ()) :
    let policy := decoder.policy
    let members := document.value.members
    let events := (decoder.decode raw).events
    (decoder.decode raw).value = .ok (toMessage policy raw members).value ∧
      (members.find? hostKey = none → .hostMissing raw ∈ events) ∧
      (∀ found, members.find? timestampKey = some found → ¬ IsNumberOrContainer found →
        .timestampInvalid raw (scalarText found) (kindName found) ∈ events) ∧
      ∀ front entry back, members = front ++ entry :: back →
        let before := addEntries policy (startMessage policy raw members) front
        let name := fieldName entry.1
        IsAsked policy before entry →
          ((∃ held, offered? policy entry = some held ∧
              (addEntry policy before entry).value.get? name.trim = some held) ∨
            IsBlankEntry policy entry ∨ ∃ event ∈ events, event.Names name) ∧
          (IsUnusable policy entry → ∃ event ∈ events, event.Names name) := by
  intro policy members events
  refine ⟨decode_of_checked text_eq read_eq checked, fun missing => ?_,
    fun found held odd => ?_, fun front entry back split => ?_⟩
  · exact mem_events_decode text_eq read_eq checked (.inl (hostMissing_mem_examine missing))
  · exact mem_events_decode text_eq read_eq checked
      (.inl (timestampInvalid_mem_examine checked held odd))
  · intro before name asked
    have whole {event : Event} (noted : event ∈ (addEntry policy before entry).events) :
        event ∈ events :=
      mem_events_decode text_eq read_eq checked (.inr (mem_events_toMessage split noted))
    constructor
    · rcases asked.addEntry_cases with given | blank | ⟨event, noted, names⟩
      · exact .inl given
      · exact .inr (.inl blank)
      · exact .inr (.inr ⟨event, whole noted, names⟩)
    · intro unusable
      obtain ⟨event, noted, names⟩ := asked.noted_of_isUnusable unusable
      exact ⟨event, whole noted, names⟩

/-- A decoder of plain payloads in an ordinary installation. -/
def plainDecoder : Decoder :=
  ⟨128, .utf8, .standard⟩

/-- A document without a host, whose timestamp is a text and whose further entries cannot
be used. -/
def faultyDocument : Text :=
  "\x7b\"short_message\":\"m\",\"timestamp\":\"x\",\"_n\":null,\" streams\":1\x7d".toList

/-- The entries of the faulty document. -/
def faultyMembers : Json.Members :=
  [(shortMessageKey, .string ['m']), (timestampKey, .string ['x']), ("_n".toList, .null),
    (" streams".toList, .number (.integer 1))]

theorem ofText_faultyDocument :
    Json.Document.ofText faultyDocument = .ok ⟨.object faultyMembers, false⟩ :=
  Json.toOption_eq_some_iff.mp (by decide +kernel)

/-- What the faulty document lacks is noted, and so are its null and its protected name. -/
theorem omissions_of_faultyDocument :
    check faultyMembers = .ok () ∧
      let events := (plainDecoder.decode (rawOf faultyDocument)).events
      .hostMissing (rawOf faultyDocument) ∈ events ∧
        .timestampInvalid (rawOf faultyDocument) ['x'] "STRING".toList ∈ events ∧
        (∃ event ∈ events, event.Names ['n']) ∧
        ∃ event ∈ events, event.Names " streams".toList := by
  have checked : check faultyMembers = .ok () := by decide +kernel
  have faulty := @value_toText_rawOf faultyDocument (by decide +kernel) plainDecoder.limit
  obtain ⟨-, host, timestamp, entries⟩ :=
    @omissions_are_noted _ plainDecoder _ _ faulty ofText_faultyDocument checked
  have null := entries (faultyMembers.take 2) ("_n".toList, .null) (faultyMembers.drop 3) rfl
    ⟨by decide, by decide +kernel, by decide⟩
  have padded := entries (faultyMembers.take 3) (" streams".toList, .number (.integer 1)) [] rfl
    ⟨by decide, by decide +kernel, by decide⟩
  exact ⟨checked, host (by decide), timestamp (.string ['x']) rfl id, null.2 (.inl rfl),
    padded.2 (.inr (.inr (by decide)))⟩

/-- A document whose timestamp is a container and whose further entries have names that
are protected or set. -/
def silentDocument : Text :=
  "\x7b\"host\":\"h\",\"short_message\":\"m\",\"timestamp\":\x7b\x7d,".toList ++
    "\"_streams\":\"s\",\"a\":1,\"_a\":2\x7d".toList

/-- The entries of the silent document. -/
def silentMembers : Json.Members :=
  [(hostKey, .string ['h']), (shortMessageKey, .string ['m']), (timestampKey, .object []),
    ("_streams".toList, .string ['s']), (['a'], .number (.integer 1)),
    ("_a".toList, .number (.integer 2))]

theorem ofText_silentDocument :
    Json.Document.ofText silentDocument = .ok ⟨.object silentMembers, false⟩ :=
  Json.toOption_eq_some_iff.mp (by decide +kernel)

/-- All that is noted about the silent document traces the progress of decoding. -/
theorem traces_silentDocument :
    ((plainDecoder.decode (rawOf silentDocument)).events.all fun event =>
      event.severity == .trace && event.field?.isNone) = true := by
  decide +kernel

theorem contains_silentDocument :
    (addEntries .standard (startMessage .standard (rawOf silentDocument) silentMembers)
      (silentMembers.take 5)).contains ['a'] = true := by
  decide +kernel

/-- The silent document passes the check. Its timestamp is no number, one of its entries
has a protected name and another one a name that is set, and nothing is noted about any
of them. -/
theorem omissions_without_notice :
    (Payload.toText (rawOf silentDocument).payload plainDecoder.limit
        plainDecoder.charset).value = .ok silentDocument ∧
      Json.Document.ofText silentDocument = .ok ⟨.object silentMembers, false⟩ ∧
      check silentMembers = .ok () ∧
      silentMembers.find? timestampKey = some (.object []) ∧
      (("_streams".toList, .string ['s']) ∈ silentMembers ∧
        isAdditional "_streams".toList = true ∧
        Field.Policy.standard.reserved "streams".toList = true ∧
        Field.Policy.standard.settable "streams".toList = false) ∧
      (silentMembers = silentMembers.take 5 ++ [("_a".toList, .number (.integer 2))] ∧
        isAdditional "_a".toList = true ∧
        (addEntries .standard (startMessage .standard (rawOf silentDocument) silentMembers)
          (silentMembers.take 5)).contains ['a'] = true) ∧
      ∀ event ∈ (plainDecoder.decode (rawOf silentDocument)).events,
        event.severity = .trace ∧ ∀ name, ¬ event.Names name := by
  have checked : check silentMembers = .ok () := by decide +kernel
  have member : (("_streams".toList, .string ['s']) : Text × Json) ∈ silentMembers := by
    simp [silentMembers]
  refine ⟨@value_toText_rawOf silentDocument (by decide +kernel) plainDecoder.limit, ofText_silentDocument, checked, rfl,
    ⟨member, by decide, by decide, by decide⟩, ⟨rfl, by decide, contains_silentDocument⟩,
    fun event noted => ?_⟩
  have traces := List.all_eq_true.mp traces_silentDocument event noted
  rw [Bool.and_eq_true, beq_iff_eq, Option.isNone_iff_eq_none] at traces
  refine ⟨traces.1, ?_⟩
  rintro name ⟨shown, tells, -⟩
  rw [traces.2] at tells
  cases tells

end Gelf

end LogIntake
