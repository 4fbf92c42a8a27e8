import LogIntake.Json.Printer
import LogIntake.Proofs.Json.Documents

/-!
# Reading what is printed

The compact text of a value is a strict spelling of this value, so it is read back
unchanged. This holds of every value without doubles that a reader can hold at
all: integers lie within 64 bits, the keys of an object are distinct, and the
containers are nested no deeper than the reader follows.
-/

namespace LogIntake.Json

/-! ## The printer without an accumulator -/

mutual

/-- Writing leaves the text that is already there as it is. -/
theorem writeOnto_append (front back : Text) :
    ∀ value : Json, writeOnto (front ++ back) value = writeOnto front value ++ back
  | .null | .bool true | .bool false | .number _ | .string _ => by
      simp [writeOnto, List.reverseAux_eq]
  | .array [] | .object [] => rfl
  | .array (element :: elements) => by
      rw [writeOnto, ← List.cons_append, writeOnto_append _ back element,
        writeElements_append _ back elements]
      rfl
  | .object ((key, value) :: members) => by
      have opened : ':' :: (stringText key).reverseAux ('\x7b' :: (front ++ back)) =
          ':' :: (stringText key).reverseAux ('\x7b' :: front) ++ back := by
        simp [List.reverseAux_eq]
      rw [writeOnto, opened, writeOnto_append _ back value, writeMembers_append _ back members]
      rfl

theorem writeElements_append (front back : Text) :
    ∀ elements : List Json,
      writeElements (front ++ back) elements = writeElements front elements ++ back
  | [] => rfl
  | element :: elements => by
      rw [writeElements, ← List.cons_append, writeOnto_append _ back element,
        writeElements_append _ back elements]
      rfl

theorem writeMembers_append (front back : Text) :
    ∀ members : List (Text × Json),
      writeMembers (front ++ back) members = writeMembers front members ++ back
  | [] => rfl
  | (key, value) :: members => by
      have continued : ':' :: (stringText key).reverseAux (',' :: (front ++ back)) =
          ':' :: (stringText key).reverseAux (',' :: front) ++ back := by
        simp [List.reverseAux_eq]
      rw [writeMembers, continued, writeOnto_append _ back value,
        writeMembers_append _ back members]
      rfl

end

theorem writeOnto_eq (reversed : Text) (value : Json) :
    writeOnto reversed value = value.toText.reverse ++ reversed := by
  rw [toText, List.reverse_reverse]
  exact writeOnto_append [] reversed value

/-- The text of a member: its key, a colon and its value. -/
def memberText (member : Text × Json) : Text :=
  stringText member.1 ++ ':' :: member.2.toText

theorem writeElements_eq (reversed : Text) (elements : List Json) :
    writeElements reversed elements =
      (elements.flatMap fun next => ',' :: next.toText).reverse ++ reversed := by
  induction elements generalizing reversed with
  | nil => rfl
  | cons element elements ih =>
      rw [writeElements, ih, writeOnto_eq]
      simp

theorem writeMembers_eq (reversed : Text) (members : Members) :
    writeMembers reversed members =
      (members.flatMap fun next => ',' :: memberText next).reverse ++ reversed := by
  induction members generalizing reversed with
  | nil => rfl
  | cons member members ih =>
      rw [writeMembers, ih, writeOnto_eq]
      simp [memberText, List.reverseAux_eq]

theorem toText_array (element : Json) (elements : List Json) :
    toText (.array (element :: elements)) =
      '[' :: (element.toText ++ (elements.flatMap fun next => ',' :: next.toText) ++ [']']) := by
  rw [toText, writeOnto, writeElements_eq, writeOnto_eq]
  simp

theorem toText_object (member : Text × Json) (members : Members) :
    toText (.object (member :: members)) =
      '\x7b' :: (memberText member ++ (members.flatMap fun next => ',' :: memberText next) ++
        ['\x7d']) := by
  rw [toText, writeOnto, writeMembers_eq, writeOnto_eq]
  simp [memberText, List.reverseAux_eq]

theorem toText_number (n : Number) : toText (.number n) = n.toText := by
  simp [toText, writeOnto, List.reverseAux_eq]

theorem toText_string (text : Text) : toText (.string text) = stringText text := by
  simp [toText, writeOnto, List.reverseAux_eq]

/-! ## Strings -/

theorem not_isSurrogate_of_low {unit : Nat} (low : unit < 0x20) :
    Text.isHighSurrogate unit = false ∧ Text.isLowSurrogate unit = false := by
  simp only [Text.isHighSurrogate, Text.isLowSurrogate, Bool.and_eq_false_iff,
    decide_eq_false_iff_not]
  omega

/-- A character is spelled as it is printed inside a string. -/
theorem StringText.escape {value spelling : Text} (c : Char)
    (rest : StringText .strict value spelling) :
    StringText .strict (c :: value) (Json.escape c ++ spelling) := by
  have letter {d : Char} (escapes : (d, c) ∈ letterEscapes) :
      StringText .strict (c :: value) (['\\', d] ++ spelling) :=
    .letter escapes rest
  unfold Json.escape
  split
  · exact letter (by simp [letterEscapes, *])
  split
  · exact letter (by simp [letterEscapes, *])
  split
  · exact letter (by simp [letterEscapes, *])
  split
  · exact letter (by simp [letterEscapes, *])
  split
  · exact letter (by simp [letterEscapes, *])
  split
  · exact letter (by simp [letterEscapes, *])
  split
  · exact letter (by simp [letterEscapes, *])
  split
  · rename_i low
    obtain ⟨escape_eq, denotes⟩ := unicodeEscape_eq low
    obtain ⟨notHigh, notLow⟩ := not_isSurrogate_of_low low
    have spelled := StringText.unit denotes notHigh notLow rest
    rw [Char.ofNat_toNat] at spelled
    rw [escape_eq]
    exact spelled
  · rename_i notQuote notBackslash _ _ _ _ _ printable
    exact .char notQuote notBackslash (fun low => absurd low printable) rest

/-- What is printed between the quotes spells the string. -/
theorem stringText_escape (text : Text) : StringText .strict text (text.flatMap escape) := by
  induction text with
  | nil => exact .nil
  | cons c text ih =>
      rw [List.flatMap_cons]
      exact ih.escape c

theorem stringText_eq (text : Text) : stringText text = quoted (text.flatMap escape) := by
  simp [stringText, quoted]

/-! ## Integers -/

theorem isDigits_ofNat (n : Nat) : IsDigits (Text.ofNat n) := by
  constructor
  · exact Nat.toDigits_ne_nil
  · intro c member
    exact Nat.isDigit_of_mem_toDigits (by decide) (by decide) member

theorem number_ofNat (n : Nat) : Text.number (Text.ofNat n) = n :=
  Nat.ofDigitChars_ten_toDigits

/-- A positive number has no leading zero. -/
theorem head?_ofNat {n : Nat} (positive : 0 < n) : (Text.ofNat n).head? ≠ some '0' := by
  induction n using Nat.strongRecOn with
  | ind n ih =>
      by_cases below : n < 10
      · have each : ∀ n < 10, 0 < n → (Text.ofNat n).head? ≠ some '0' := by decide
        exact each n below positive
      · have digits_eq : Text.ofNat n = Text.ofNat (n / 10) ++ [(n % 10).digitChar] :=
          Nat.toDigits_of_base_le (by decide) (by omega)
        rw [digits_eq, head?_append_of_ne_nil (isDigits_ofNat _).1]
        exact ih (n / 10) (by omega) (by omega)

theorem isWhole_ofNat (n : Nat) : IsWhole (Text.ofNat n) := by
  cases n with
  | zero => exact .inl rfl
  | succ n => exact .inr ⟨isDigits_ofNat (n + 1), head?_ofNat (Nat.succ_pos n)⟩

theorem numeralText_whole (negative : Bool) {whole : Text} (isWhole : IsWhole whole) :
    NumeralText ⟨negative, whole, [], none⟩ (minusText negative ++ whole) := by
  have spelled : NumeralText ⟨negative, whole, [], none⟩
      (minusText negative ++ (whole ++ ([] ++ []))) :=
    .parts isWhole .absent .absent
  simpa using spelled

/-- Integers of 64 bits, with a sign when they are negative. -/
def FitsNumeral (n : Int) : Prop :=
  -(Int.pow 2 63) ≤ n ∧ n < Int.pow 2 64

/-- The decimal notation of an integer spells it. -/
theorem valueText_integer {depth : Nat} {n : Int} (fits : FitsNumeral n) :
    ValueText .strict depth (.number (.integer n)) (Text.ofInt n) := by
  rcases fits with ⟨least, greatest⟩
  cases n with
  | ofNat n =>
      have below : (n : Int) < Int.pow 2 64 := greatest
      have denotes : Numeral.value ⟨false, Text.ofNat n, [], none⟩ [] = .ok (.integer n) := by
        simp only [Numeral.value, Numeral.isWhole, number_ofNat, decide_eq_true below]
        rfl
      exact .number (numeralText_whole false (isWhole_ofNat n)) denotes
  | negSucc n =>
      have above : ((n + 1 : Nat) : Int) ≤ Int.pow 2 63 := by omega
      have notZero : ((n + 1 : Nat) : Int) ≠ 0 := by omega
      have denotes : Numeral.value ⟨true, Text.ofNat (n + 1), [], none⟩ [] =
          .ok (.integer (-((n + 1 : Nat) : Int))) := by
        simp only [Numeral.value, Numeral.isWhole, number_ofNat, decide_eq_true above,
          decide_eq_true notZero]
        rfl
      exact .number (numeralText_whole true (isWhole_ofNat (n + 1))) denotes

/-! ## Values -/

/-- The values that a text can hold without loss: no doubles, integers of 64 bits,
distinct keys, and at most the given number of open containers. -/
inductive Printable : Nat → Json → Prop
  | null {depth : Nat} : Printable depth .null
  | bool {depth : Nat} (value : Bool) : Printable depth (.bool value)
  | integer {depth : Nat} {n : Int} (fits : FitsNumeral n) : Printable depth (.number (.integer n))
  | string {depth : Nat} (value : Text) : Printable depth (.string value)
  | array {depth : Nat} {elements : List Json}
      (printable : ∀ element ∈ elements, Printable depth element) :
      Printable (depth + 1) (.array elements)
  | object {depth : Nat} {members : Members} (distinct : (members.map Prod.fst).Nodup)
      (printable : ∀ member ∈ members, Printable depth member.2) :
      Printable (depth + 1) (.object members)

theorem Members.put_of_notMem {members : Members} {key : Text} (absent : key ∉ members.map Prod.fst)
    (value : Json) : members.put key value = members ++ [(key, value)] := by
  have notAny : (members.any fun member => member.1 == key) = false := by
    rw [List.any_eq_false]
    intro member isMember
    simp only [beq_iff_eq]
    rintro rfl
    exact absent (List.mem_map_of_mem isMember)
  simp [Members.put, notAny]

/-- Entries with distinct keys are left as they are. -/
theorem Members.ofEntries_of_nodup {entries : List (Text × Json)}
    (distinct : (entries.map Prod.fst).Nodup) : Members.ofEntries entries = entries := by
  have keeps (entries before : List (Text × Json))
      (distinct : ((before ++ entries).map Prod.fst).Nodup) :
      entries.foldl (fun members entry => Members.put members entry.1 entry.2) before =
        before ++ entries := by
    induction entries generalizing before with
    | nil => simp
    | cons entry entries ih =>
        have absent : entry.1 ∉ before.map Prod.fst := by
          intro member
          simp only [List.map_append, List.map_cons, List.nodup_append] at distinct
          exact distinct.2.2 entry.1 member entry.1 List.mem_cons_self rfl
        rw [List.foldl_cons, Members.put_of_notMem absent, ih _ (by simpa using distinct)]
        simp
  exact keeps entries [] distinct

/-- An element as a part of a printed array. -/
def printedPart (element : Json) : Part Json :=
  ⟨[], element, element.toText, []⟩

/-- A member as an entry of a printed object. -/
def printedEntry (member : Text × Json) : Entry :=
  ⟨[], member.1, member.1.flatMap escape, [], printedPart member.2⟩

theorem printedPart_text (element : Json) : (printedPart element).text = element.toText := by
  simp [printedPart, Part.text]

theorem printedEntry_part_text (member : Text × Json) :
    (printedEntry member).part.text = memberText member := by
  simp [printedEntry, printedPart, Entry.part, Part.text, memberText, stringText_eq]

theorem map_value_printedPart (elements : List Json) :
    (elements.map printedPart).map Part.value = elements := by
  simp [printedPart, Function.comp_def]

theorem map_value_printedEntry (members : Members) :
    ((members.map printedEntry).map Entry.part).map Part.value = members := by
  simp [printedEntry, printedPart, Entry.part, Function.comp_def]

theorem separated_map {α β : Type} {asPart : β → Part α} {asText : β → Text}
    (text_eq : ∀ b, (asPart b).text = asText b) (first : β) (others : List β) :
    separated ((first :: others).map asPart) =
      asText first ++ others.flatMap fun next => ',' :: asText next := by
  rw [List.map_cons, separated_cons, text_eq, List.flatMap_map]
  simp only [text_eq]

theorem valueText_array {depth : Nat} {elements : List Json}
    (spelled : ∀ element ∈ elements, ValueText .strict depth element element.toText) :
    ValueText .strict (depth + 1) (.array elements) (toText (.array elements)) := by
  cases elements with
  | nil => exact .emptyArray blanks_nil
  | cons element elements =>
      have whole : ValueText .strict (depth + 1)
          (.array (((element :: elements).map printedPart).map Part.value))
          ('[' :: (separated ((element :: elements).map printedPart) ++ ([] ++ [']']))) := by
        refine .array (by simp) ?_ ?_ (.blanks blanks_nil)
        · intro part member
          rcases List.mem_map.mp member with ⟨printed, -, rfl⟩
          exact ⟨blanks_nil, blanks_nil⟩
        · intro part member
          rcases List.mem_map.mp member with ⟨printed, isElement, rfl⟩
          exact spelled printed isElement
      rw [map_value_printedPart, separated_map printedPart_text] at whole
      rw [toText_array]
      exact whole

theorem valueText_object {depth : Nat} {members : Members}
    (distinct : (members.map Prod.fst).Nodup)
    (spelled : ∀ member ∈ members, ValueText .strict depth member.2 member.2.toText) :
    ValueText .strict (depth + 1) (.object members) (toText (.object members)) := by
  cases members with
  | nil => exact .emptyObject blanks_nil
  | cons member members =>
      let entries := (member :: members).map printedEntry
      have whole : ValueText .strict (depth + 1)
          (.object (Members.ofEntries ((entries.map Entry.part).map Part.value)))
          ('\x7b' :: (separated (entries.map Entry.part) ++ ([] ++ ['\x7d']))) := by
        refine .object (by simp [entries]) ?_ ?_ ?_ (.blanks blanks_nil)
        · intro entry isEntry
          rcases List.mem_map.mp isEntry with ⟨printed, -, rfl⟩
          exact ⟨blanks_nil, blanks_nil, blanks_nil, blanks_nil⟩
        · intro entry isEntry
          rcases List.mem_map.mp isEntry with ⟨printed, -, rfl⟩
          exact stringText_escape printed.1
        · intro entry isEntry
          rcases List.mem_map.mp isEntry with ⟨printed, isMember, rfl⟩
          exact spelled printed isMember
      have parts_eq : entries.map Entry.part =
          (member :: members).map fun member => (printedEntry member).part :=
        List.map_map
      rw [map_value_printedEntry, Members.ofEntries_of_nodup distinct, parts_eq,
        separated_map printedEntry_part_text] at whole
      rw [toText_object]
      exact whole

/-- Printing gives a strict spelling of the value. -/
theorem Printable.valueText {depth : Nat} {value : Json} (printable : Printable depth value) :
    ValueText .strict depth value value.toText := by
  induction printable with
  | null => exact .nullWord
  | bool value =>
      cases value with
      | true => exact .trueWord
      | false => exact .falseWord
  | integer fits =>
      rw [toText_number]
      exact valueText_integer fits
  | string value =>
      rw [toText_string, stringText_eq]
      exact .string (stringText_escape value)
  | array _ ih => exact valueText_array ih
  | object distinct _ ih => exact valueText_object distinct ih

/-- A printed value is the first document of its text, and nothing follows it. -/
theorem Document.ofText_toText {value : Json} (printable : Printable depthLimit value)
    (notNull : value ≠ .null) : ofText value.toText = .ok ⟨value, false⟩ := by
  have spelled := printable.valueText.tolerant
  have kept := dropLeading_byteOrderMark blanks_nil spelled []
  rw [List.nil_append, List.append_nil] at kept
  rw [ofText_eq_ok_iff, kept]
  exact ⟨[], value.toText, [], by simp, blanks_nil, spelled, notNull, .inr atBoundary_nil,
    .ends blanks_nil⟩

end LogIntake.Json
