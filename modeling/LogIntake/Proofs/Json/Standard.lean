import LogIntake.Proofs.Json.Unmending

/-!
# Standard notation

A text is in standard notation when it follows the grammar of JSON, whatever it denotes:
numerals of any size, containers of any depth and escapes of lone surrogates are all in it,
although some of them have no value. Every text that the reader takes is in standard
notation.

Mending copies such a text. Its strings hold no raw control characters, and each of its commas
stands in front of a part of a container.
-/

namespace LogIntake.Json

/-! ## Grammar -/

/-- What may stand between the quotes of a string. -/
inductive StandardString : Text → Prop
  | nil : StandardString []
  | char {c : Char} {rest : Text} (notQuote : c ≠ '"') (notBackslash : c ≠ '\\')
      (printable : ¬ c.toNat < 0x20) (isString : StandardString rest) : StandardString (c :: rest)
  | letter {letter c : Char} {rest : Text} (escape : (letter, c) ∈ letterEscapes)
      (isString : StandardString rest) : StandardString ('\\' :: letter :: rest)
  | unit {a b c d : Char} {unit : Nat} {rest : Text} (denotes : codeUnit? a b c d = some unit)
      (isString : StandardString rest) : StandardString ('\\' :: 'u' :: a :: b :: c :: d :: rest)

/-- What a text is to be: a value, or the parts of a container with commas between them. -/
inductive Symbol
  | value
  | elements
  | entries
deriving DecidableEq

/-- The texts of each symbol. -/
inductive Derives : Symbol → Text → Prop
  | nullWord : Derives .value "null".toList
  | trueWord : Derives .value "true".toList
  | falseWord : Derives .value "false".toList
  | numeral {numeral : Numeral} {text : Text} (spelled : NumeralText numeral text) :
      Derives .value text
  | string {text : Text} (isString : StandardString text) : Derives .value (quoted text)
  | emptyArray {blanks : Text} (blank : Blanks blanks) : Derives .value ('[' :: (blanks ++ [']']))
  | array {elements blanks : Text} (derived : Derives .elements elements) (blank : Blanks blanks) :
      Derives .value ('[' :: (elements ++ (blanks ++ [']'])))
  | emptyObject {blanks : Text} (blank : Blanks blanks) :
      Derives .value ('\x7b' :: (blanks ++ ['\x7d']))
  | object {entries blanks : Text} (derived : Derives .entries entries) (blank : Blanks blanks) :
      Derives .value ('\x7b' :: (entries ++ (blanks ++ ['\x7d'])))
  | element {before value after : Text} (beforeBlank : Blanks before)
      (derived : Derives .value value) (afterBlank : Blanks after) :
      Derives .elements (before ++ (value ++ after))
  | entry {before key between inner value after : Text} (beforeBlank : Blanks before)
      (isString : StandardString key) (betweenBlank : Blanks between) (innerBlank : Blanks inner)
      (derived : Derives .value value) (afterBlank : Blanks after) :
      Derives .entries
        (before ++ (quoted key ++ (between ++ ':' :: (inner ++ (value ++ after)))))
  | comma {parts : Symbol} {first rest : Text} (isParts : parts ≠ .value)
      (firstDerived : Derives parts first) (restDerived : Derives parts rest) :
      Derives parts (first ++ ',' :: rest)

/-- A value with blanks around it. -/
def IsStandard (text : Text) : Prop :=
  ∃ before value after, text = before ++ (value ++ after) ∧ Blanks before ∧
    Derives .value value ∧ Blanks after

/-! ## What the reader takes -/

theorem StringText.standard {value spelling : Text}
    (spelled : StringText .strict value spelling) : StandardString spelling := by
  induction spelled with
  | nil => exact .nil
  | char notQuote notBackslash control _ ih =>
      exact .char notQuote notBackslash (fun low => nomatch control low) ih
  | letter escape _ ih => exact .letter escape ih
  | unit denotes _ _ _ ih => exact .unit denotes ih
  | pair first _ second _ _ ih => exact .unit first (.unit second ih)

theorem derives_separated {α : Type} {symbol : Symbol} (isParts : symbol ≠ .value)
    {parts : List (Part α)} (nonempty : parts ≠ [])
    (derived : ∀ part ∈ parts, Derives symbol part.text) : Derives symbol (separated parts) := by
  induction parts with
  | nil => contradiction
  | cons first parts ih =>
      rcases List.forall_mem_cons.mp derived with ⟨firstDerived, restDerived⟩
      cases parts with
      | nil => rwa [separated_singleton]
      | cons next parts =>
          rw [separated_cons_cons]
          exact .comma isParts firstDerived (ih (by simp) restDerived)

/-- The strict spelling of a value is in standard notation. -/
theorem ValueText.derives {depth : Nat} {value : Json} {spelling : Text}
    (spelled : ValueText .strict depth value spelling) : Derives .value spelling := by
  induction spelled with
  | nullWord => exact .nullWord
  | trueWord => exact .trueWord
  | falseWord => exact .falseWord
  | number spelled _ => exact .numeral spelled
  | string spelled => exact .string spelled.standard
  | emptyArray blank => exact .emptyArray blank
  | emptyObject blank => exact .emptyObject blank
  | array nonempty padded _ ends ih =>
      apply Derives.array _ ends.blanks_of_strict
      apply derives_separated (by decide) nonempty
      intro element member
      rcases padded element member with ⟨beforeBlank, afterBlank⟩
      exact .element beforeBlank (ih element member) afterBlank
  | object nonempty padded keys _ ends ih =>
      apply Derives.object _ ends.blanks_of_strict
      apply derives_separated (by decide) (by simpa using nonempty)
      intro part partMember
      obtain ⟨entry, member, rfl⟩ := List.mem_map.mp partMember
      rcases padded entry member with ⟨beforeBlank, betweenBlank, innerBlank, afterBlank⟩
      have derived := Derives.entry beforeBlank (keys entry member).standard betweenBlank innerBlank
        (ih entry member) afterBlank
      simpa [Part.text, Entry.part] using derived

/-- The reader takes nothing but standard notation. -/
theorem isStandard_of_ofText {text : Text} {value : Json} (read_eq : ofText text = .ok value) :
    IsStandard text := by
  obtain ⟨⟨_, rest⟩, value_eq, read_eq⟩ := exists_of_bind_eq_ok read_eq
  obtain ⟨_, end_eq, read_eq⟩ := exists_of_bind_eq_ok read_eq
  obtain ⟨before, spelling, rfl, beforeBlank, spelled⟩ := exists_of_readValue value_eq
  have restBlank : Blanks rest := by
    unfold endOfText at end_eq
    split at end_eq
    · rename_i skipped
      obtain ⟨blanks, blank, rest_eq⟩ := exists_blanks_append_skipBlanks rest
      rw [rest_eq, skipped, List.append_nil]
      exact blank
    · contradiction
  exact ⟨before, spelling, rest, rfl, beforeBlank, spelled.derives, restBlank⟩

/-! ## Copies -/

/-- Mending copies the text outside strings, whatever stands around it, and is outside
strings behind it. -/
def Copied (text : Text) : Prop :=
  ∀ last, ∃ behind, ∀ rest,
    mendedFrom (.outside last) (text ++ rest) = text ++ mendedFrom (.outside behind) rest

theorem Copied.mend_eq {text : Text} (copied : Copied text) : mend text = text := by
  rcases copied none with ⟨behind, copied⟩
  simpa [Json.mend_eq] using copied []

theorem Copied.append {first second : Text} (firstCopied : Copied first)
    (secondCopied : Copied second) : Copied (first ++ second) := by
  intro last
  rcases firstCopied last with ⟨between, firstCopied⟩
  rcases secondCopied between with ⟨behind, secondCopied⟩
  exists behind
  intro rest
  rw [List.append_assoc, firstCopied, secondCopied, List.append_assoc]

theorem copied_blanks {blanks : Text} (blank : Blanks blanks) : Copied blanks :=
  fun last => ⟨last, mendedFrom_blanks_append blank last⟩

theorem MendsTo.copied {text : Text} (mends : MendsTo text text) : Copied text :=
  fun last => ⟨text.getLast?, mends last⟩

theorem copied_plain {c : Char} (plain : isPlain c = true) : Copied [c] :=
  fun last => ⟨some c, mendedFrom_plain plain last⟩

/-- The part of a container begins with the text, behind blanks. -/
def OpensPart (text : Text) : Prop :=
  ∃ blanks c rest, text = blanks ++ c :: rest ∧ Blanks blanks ∧ startsValue c = true

theorem opensPart_cons {c : Char} (starts : startsValue c = true) (rest : Text) :
    OpensPart (c :: rest) :=
  ⟨[], c, rest, rfl, blanks_nil, starts⟩

theorem OpensPart.blanks_append {blanks text : Text} (blank : Blanks blanks)
    (opens : OpensPart text) (rest : Text) : OpensPart (blanks ++ (text ++ rest)) := by
  rcases opens with ⟨inner, c, tail, rfl, innerBlank, starts⟩
  exact ⟨blanks ++ inner, c, tail ++ rest, by simp, Json.blanks_append.mpr ⟨blank, innerBlank⟩,
    starts⟩

theorem OpensPart.not_beforeEnd {text : Text} (opens : OpensPart text) (rest : Text) :
    ¬ BeforeEnd (text ++ rest) := by
  rcases opens with ⟨blanks, c, tail, rfl, blank, starts⟩
  rw [beforeEnd_iff, List.append_assoc, skipBlanks_append blank, List.cons_append,
    skipBlanks_eq_self (isBlank_of_startsValue starts)]
  rintro ⟨_, _, ⟨⟩, closes⟩
  exact not_closes_of_startsValue starts closes

/-- A comma in front of a part is copied. -/
theorem Copied.comma {first second : Text} (firstCopied : Copied first)
    (secondCopied : Copied second) (opens : OpensPart second) :
    Copied (first ++ ',' :: second) := by
  apply firstCopied.append
  intro last
  rcases secondCopied (some ',') with ⟨behind, secondCopied⟩
  exists behind
  intro rest
  have kept : ¬ (MayEndValue last ∧ BeforeEnd (second ++ rest)) :=
    fun both => opens.not_beforeEnd rest both.2
  rw [List.cons_append, mendedFrom_comma kept, secondCopied, List.cons_append]

/-- Mending copies the inside of a string. -/
theorem StandardString.mendedFrom_eq {text : Text} (isString : StandardString text)
    (rest : Text) : mendedFrom .inside (text ++ rest) = text ++ mendedFrom .inside rest := by
  induction isString with
  | nil => rfl
  | char notQuote notBackslash printable _ ih =>
      rw [List.cons_append, mendedFrom_printable notQuote notBackslash printable, ih,
        List.cons_append]
  | letter _ _ ih =>
      simp only [List.cons_append]
      rw [mendedFrom_escape, ih]
  | unit denotes _ ih =>
      simp only [List.cons_append]
      rw [mendedFrom_codeUnit denotes, ih]

theorem StandardString.copied {text : Text} (isString : StandardString text) :
    Copied (quoted text) := by
  intro last
  exists some '"'
  intro rest
  rw [quoted, List.cons_append, List.append_assoc, mendedFrom_quote, isString.mendedFrom_eq]
  simp [mendedFrom_closingQuote]

/-- What is derived from a symbol is copied, and may follow a comma. -/
theorem Derives.copied {symbol : Symbol} {text : Text} (derived : Derives symbol text) :
    Copied text ∧ OpensPart text := by
  induction derived with
  | nullWord => exact ⟨(mendsTo_of_undivided undivided_null).copied, opensPart_cons rfl _⟩
  | trueWord => exact ⟨(mendsTo_of_undivided undivided_true).copied, opensPart_cons rfl _⟩
  | falseWord => exact ⟨(mendsTo_of_undivided undivided_false).copied, opensPart_cons rfl _⟩
  | numeral spelled =>
      obtain ⟨c, rest, rfl, starts⟩ := spelled.exists_cons
      constructor
      · exact (mendsTo_of_undivided spelled.undivided).copied
      · apply opensPart_cons
        rcases starts with rfl | digit
        · rfl
        · exact startsValue_of_isDigit digit
  | string isString => exact ⟨isString.copied, opensPart_cons rfl _⟩
  | emptyArray blank | emptyObject blank =>
      constructor
      · apply (copied_plain rfl).append
        exact (copied_blanks blank).append (copied_plain rfl)
      · exact opensPart_cons rfl _
  | array _ blank ih | object _ blank ih =>
      constructor
      · apply (copied_plain rfl).append
        apply ih.1.append
        exact (copied_blanks blank).append (copied_plain rfl)
      · exact opensPart_cons rfl _
  | element beforeBlank _ afterBlank ih =>
      constructor
      · apply (copied_blanks beforeBlank).append
        exact ih.1.append (copied_blanks afterBlank)
      · exact ih.2.blanks_append beforeBlank _
  | entry beforeBlank isString betweenBlank innerBlank _ afterBlank ih =>
      have fromValue := (copied_blanks innerBlank).append (ih.1.append (copied_blanks afterBlank))
      constructor
      · apply (copied_blanks beforeBlank).append
        apply isString.copied.append
        apply (copied_blanks betweenBlank).append
        exact (copied_plain rfl).append fromValue
      · exact (opensPart_cons rfl _).blanks_append beforeBlank _
  | comma _ _ _ firstIh restIh =>
      constructor
      · exact firstIh.1.comma restIh.1 restIh.2
      · simpa using firstIh.2.blanks_append blanks_nil _

theorem IsStandard.mend_eq {text : Text} (standard : IsStandard text) : mend text = text := by
  rcases standard with ⟨before, value, after, rfl, beforeBlank, derived, afterBlank⟩
  have copied := (copied_blanks beforeBlank).append
    (derived.copied.1.append (copied_blanks afterBlank))
  exact copied.mend_eq

end LogIntake.Json
