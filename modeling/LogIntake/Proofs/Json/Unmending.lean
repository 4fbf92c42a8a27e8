import LogIntake.Proofs.Json.Mending

/-!
# Where mended spellings come from

A strict spelling in a mended text comes from a tolerant spelling of the same
value at the same place. Mending therefore makes no text acceptable that was not
a tolerant spelling before.

The statements go through what mending has written from the left. A character
outside strings that is neither blank nor the end of a container has been copied,
blanks have been copied, and only in front of the end of a container a comma may
have been dropped.
-/

namespace LogIntake.Json

/-! ## Outside strings -/

/-- Leading blanks and the character behind them are determined by the text. -/
theorem blanks_append_cons_inj {first second firstRest secondRest : Text} {c d : Char}
    (firstBlank : Blanks first) (secondBlank : Blanks second) (cNotBlank : isBlank c = false)
    (dNotBlank : isBlank d = false)
    (text_eq : first ++ c :: firstRest = second ++ d :: secondRest) :
    first = second ∧ c = d ∧ firstRest = secondRest := by
  have skipped := congrArg skipBlanks text_eq
  rw [skipBlanks_append firstBlank, skipBlanks_append secondBlank, skipBlanks_eq_self cNotBlank,
    skipBlanks_eq_self dNotBlank] at skipped
  rw [skipped] at text_eq
  cases skipped
  exact ⟨List.append_cancel_right text_eq, rfl, rfl⟩

/-- The region behind a character that has been copied outside strings. -/
def regionBehind (c : Char) : Region :=
  if c = '"' then .inside else .outside (some c)

/-- Outside strings, blanks are copied, a comma may be dropped in front of the end
of a container, and everything else is copied. -/
theorem mendedFrom_outside_cases (last : Option Char) (d : Char) (tail : Text) :
    (isBlank d = true ∧
      mendedFrom (.outside last) (d :: tail) = d :: mendedFrom (.outside last) tail) ∨
    (∃ blanks closing rest, d = ',' ∧ MayEndValue last ∧ tail = blanks ++ closing :: rest ∧
      Blanks blanks ∧ Closes closing ∧ mendedFrom (.outside last) (d :: tail) =
        blanks ++ closing :: mendedFrom (.outside (some closing)) rest) ∨
    (isBlank d = false ∧
      mendedFrom (.outside last) (d :: tail) = d :: mendedFrom (regionBehind d) tail) := by
  by_cases isComma : d = ','
  · subst isComma
    by_cases superfluous : MayEndValue last ∧ BeforeEnd tail
    · rcases superfluous with ⟨mayEnd, beforeEnd⟩
      obtain ⟨blanks, closing, rest, rfl, blank, closes⟩ := id beforeEnd
      refine .inr (.inl ⟨blanks, closing, rest, rfl, mayEnd, rfl, blank, closes, ?_⟩)
      rw [mendedFrom_superfluous mayEnd beforeEnd, mendedFrom_blanks_append blank,
        mendedFrom_plain closes.isPlain]
    · exact .inr (.inr ⟨rfl, mendedFrom_comma superfluous⟩)
  · by_cases isQuote : d = '"'
    · subst isQuote
      exact .inr (.inr ⟨rfl, mendedFrom_quote last tail⟩)
    · cases blank : isBlank d with
      | true => exact .inl ⟨rfl, mendedFrom_blank blank last tail⟩
      | false =>
          have plain : isPlain d = true := by simp [isPlain, blank, isQuote, isComma]
          refine .inr (.inr ⟨rfl, ?_⟩)
          rw [mendedFrom_plain plain, regionBehind, if_neg isQuote]

/-- Blanks have been copied, and so has what follows them unless it ends a
container. -/
theorem exists_of_mendedFrom_eq {last : Option Char} {text blanks rest : Text} {c : Char}
    (blank : Blanks blanks) (notBlank : isBlank c = false) (notCloses : ¬ Closes c)
    (mended_eq : mendedFrom (.outside last) text = blanks ++ c :: rest) :
    ∃ tail, text = blanks ++ c :: tail ∧ mendedFrom (.outside last) (c :: tail) = c :: rest ∧
      rest = mendedFrom (regionBehind c) tail := by
  induction blanks generalizing text with
  | nil =>
      cases text with
      | nil => contradiction
      | cons d tail =>
          rcases mendedFrom_outside_cases last d tail with
            ⟨dBlank, step⟩ | ⟨blanks, closing, _, _, _, _, blank', closes, step⟩ | ⟨_, step⟩
          · rw [step] at mended_eq
            cases mended_eq
            rw [notBlank] at dBlank
            contradiction
          · rw [step] at mended_eq
            obtain ⟨-, rfl, -⟩ :=
              blanks_append_cons_inj blank' blanks_nil closes.isBlank notBlank mended_eq
            contradiction
          · have copied := step
            rw [mended_eq] at step
            cases step
            exact ⟨tail, rfl, copied, rfl⟩
  | cons b blanks ih =>
      rcases blanks_cons.mp blank with ⟨bBlank, restBlank⟩
      cases text with
      | nil => contradiction
      | cons d tail =>
          rcases mendedFrom_outside_cases last d tail with
            ⟨_, step⟩ | ⟨blanks', closing, _, _, _, _, blank', closes, step⟩ | ⟨dNotBlank, step⟩
          · rw [step] at mended_eq
            injection mended_eq with same mended_eq
            obtain ⟨behind, rfl, copied⟩ := ih restBlank mended_eq
            exact ⟨behind, by rw [same, List.cons_append], copied⟩
          · rw [step] at mended_eq
            obtain ⟨-, rfl, -⟩ :=
              blanks_append_cons_inj blank' blank closes.isBlank notBlank mended_eq
            contradiction
          · rw [step] at mended_eq
            injection mended_eq with same _
            rw [same, bBlank] at dNotBlank
            contradiction

/-- In front of the end of a container blanks have been copied, or a comma between
them has been dropped. -/
theorem exists_ending_of_mendedFrom_eq {last : Option Char} {text blanks rest : Text}
    {closing : Char} (blank : Blanks blanks) (closes : Closes closing)
    (mended_eq : mendedFrom (.outside last) text = blanks ++ closing :: rest) :
    ∃ after ending behind, text = after ++ (ending ++ closing :: behind) ∧ Blanks after ∧
      (ending = [] ∨ MayEndValue last ∧ EndText .tolerant ending) ∧
      rest = mendedFrom (.outside (some closing)) behind := by
  induction text generalizing blanks with
  | nil => cases blanks <;> contradiction
  | cons d tail ih =>
      rcases mendedFrom_outside_cases last d tail with
        ⟨dBlank, step⟩ | ⟨blanks', closing', behind, rfl, mayEnd, rfl, blank', closes', step⟩ |
          ⟨dNotBlank, step⟩
      · rw [step] at mended_eq
        cases blanks with
        | nil =>
            cases mended_eq
            rw [closes.isBlank] at dBlank
            contradiction
        | cons b blanks =>
            injection mended_eq with _ mended_eq
            obtain ⟨after, ending, behind, rfl, afterBlank, ends, rest_eq⟩ :=
              ih (blanks_cons.mp blank).2 mended_eq
            exact ⟨d :: after, ending, behind, rfl, blanks_cons.mpr ⟨dBlank, afterBlank⟩, ends,
              rest_eq⟩
      · rw [step] at mended_eq
        obtain ⟨rfl, rfl, rfl⟩ :=
          blanks_append_cons_inj blank' blank closes'.isBlank closes.isBlank mended_eq
        exact ⟨[], ',' :: blanks', behind, rfl, blanks_nil, .inr ⟨mayEnd, .comma rfl blank'⟩, rfl⟩
      · rw [step] at mended_eq
        cases blanks with
        | nil =>
            cases mended_eq
            refine ⟨[], [], tail, rfl, blanks_nil, .inl rfl, ?_⟩
            rcases closes with rfl | rfl <;> rfl
        | cons b blanks =>
            injection mended_eq with same _
            rw [same, (blanks_cons.mp blank).1] at dNotBlank
            contradiction

/-! ## Inside strings -/

/-- Inside strings a character that needs no escape has been copied. -/
theorem exists_of_mendedFrom_inside_eq {text rest : Text} {c : Char} (notBackslash : c ≠ '\\')
    (mended_eq : mendedFrom .inside text = c :: rest) :
    ∃ tail, text = c :: tail ∧ ¬ c.toNat < 0x20 ∧
      rest = mendedFrom (if c = '"' then .outside (some '"') else .inside) tail := by
  cases text with
  | nil => contradiction
  | cons d tail =>
      by_cases isQuote : d = '"'
      · subst isQuote
        rw [mendedFrom_closingQuote] at mended_eq
        cases mended_eq
        exact ⟨tail, rfl, by decide, rfl⟩
      · by_cases isBackslash : d = '\\'
        · subst isBackslash
          rw [mendedFrom_cons] at mended_eq
          injection mended_eq with same _
          exact absurd same.symm notBackslash
        · by_cases low : d.toNat < 0x20
          · rw [mendedFrom_control low] at mended_eq
            injection mended_eq with same _
            exact absurd same.symm notBackslash
          · rw [mendedFrom_printable isQuote isBackslash low] at mended_eq
            cases mended_eq
            exact ⟨tail, rfl, low, by rw [if_neg isQuote]⟩

/-- An escape has been copied, or it was written for a raw control character. -/
theorem exists_of_mendedFrom_escape_eq {text rest : Text} {c : Char}
    (mended_eq : mendedFrom .inside text = '\\' :: c :: rest) :
    (∃ tail, text = '\\' :: c :: tail ∧ rest = mendedFrom .inside tail) ∨
      ∃ d tail, text = d :: tail ∧ d.toNat < 0x20 ∧ c = 'u' ∧
        rest = '0' :: '0' :: (d.toNat / 16).digitChar :: (d.toNat % 16).digitChar ::
          mendedFrom .inside tail := by
  cases text with
  | nil => contradiction
  | cons d tail =>
      by_cases isQuote : d = '"'
      · subst isQuote
        rw [mendedFrom_closingQuote] at mended_eq
        injection mended_eq with same _
        exact absurd same (by decide)
      · by_cases isBackslash : d = '\\'
        · subst isBackslash
          cases tail with
          | nil =>
              rw [mendedFrom_cons] at mended_eq
              cases mended_eq
          | cons e tail =>
              rw [mendedFrom_escape] at mended_eq
              cases mended_eq
              exact .inl ⟨tail, rfl, rfl⟩
        · by_cases low : d.toNat < 0x20
          · rw [mendedFrom_control low] at mended_eq
            cases mended_eq
            exact .inr ⟨d, tail, rfl, low, rfl, rfl⟩
          · rw [mendedFrom_printable isQuote isBackslash low] at mended_eq
            injection mended_eq with same _
            exact absurd same isBackslash

/-- The digits of a code unit have been copied. -/
theorem exists_of_mendedFrom_digits_eq {text rest : Text} {a b c d : Char} {unit : Nat}
    (denotes : codeUnit? a b c d = some unit)
    (mended_eq : mendedFrom .inside text = a :: b :: c :: d :: rest) :
    ∃ tail, text = a :: b :: c :: d :: tail ∧ rest = mendedFrom .inside tail := by
  obtain ⟨_, _, _, _, aDigit, bDigit, cDigit, dDigit, -⟩ := exists_digits_of_codeUnit? denotes
  have copied {c : Char} {n : Nat} {text rest : Text} (digit : Text.hexDigit? c = some n)
      (mended_eq : mendedFrom .inside text = c :: rest) :
      ∃ tail, text = c :: tail ∧ rest = mendedFrom .inside tail := by
    obtain ⟨notQuote, notBackslash, -⟩ := printable_of_hexDigit? digit
    obtain ⟨tail, text_eq, -, rest_eq⟩ := exists_of_mendedFrom_inside_eq notBackslash mended_eq
    rw [if_neg notQuote] at rest_eq
    exact ⟨tail, text_eq, rest_eq⟩
  obtain ⟨behindA, rfl, behindA_eq⟩ := copied aDigit mended_eq
  obtain ⟨behindB, rfl, behindB_eq⟩ := copied bDigit behindA_eq.symm
  obtain ⟨behindC, rfl, behindC_eq⟩ := copied cDigit behindB_eq.symm
  obtain ⟨tail, rfl, rest_eq⟩ := copied dDigit behindC_eq.symm
  exact ⟨tail, rfl, rest_eq⟩

/-- An escaped code unit has been copied, or it denotes the raw control character
for which it was written. -/
theorem exists_of_mendedFrom_codeUnit_eq {text rest : Text} {a b c d : Char} {unit : Nat}
    (denotes : codeUnit? a b c d = some unit)
    (mended_eq : mendedFrom .inside text = '\\' :: 'u' :: a :: b :: c :: d :: rest) :
    (∃ tail, text = '\\' :: 'u' :: a :: b :: c :: d :: tail ∧ rest = mendedFrom .inside tail) ∨
      ∃ e tail, text = e :: tail ∧ e.toNat < 0x20 ∧ unit = e.toNat ∧
        rest = mendedFrom .inside tail := by
  rcases exists_of_mendedFrom_escape_eq mended_eq with
    ⟨tail, rfl, digits_eq⟩ | ⟨e, tail, rfl, low, -, digits_eq⟩
  · obtain ⟨tail, rfl, rest_eq⟩ := exists_of_mendedFrom_digits_eq denotes digits_eq.symm
    exact .inl ⟨tail, rfl, rest_eq⟩
  · cases digits_eq
    rw [(unicodeEscape_eq low).2] at denotes
    cases denotes
    exact .inr ⟨e, tail, rfl, low, rfl, rfl⟩

/-- The strict spelling of a string, up to its closing quote, comes from a tolerant
spelling of the same string. -/
theorem StringText.exists_of_mendedFrom_eq {value written : Text}
    (spelled : StringText .strict value written) {text rest : Text}
    (mended_eq : mendedFrom .inside text = written ++ '"' :: rest) :
    ∃ spelling behind, text = spelling ++ '"' :: behind ∧ StringText .tolerant value spelling ∧
      rest = mendedFrom (.outside (some '"')) behind := by
  induction spelled generalizing text with
  | nil =>
      obtain ⟨behind, rfl, -, rest_eq⟩ := exists_of_mendedFrom_inside_eq (by decide) mended_eq
      exact ⟨[], behind, rfl, .nil, rest_eq⟩
  | @char c value written notQuote notBackslash control _ ih =>
      obtain ⟨tail, rfl, -, tail_eq⟩ := exists_of_mendedFrom_inside_eq notBackslash mended_eq
      rw [if_neg notQuote] at tail_eq
      obtain ⟨spelling, behind, rfl, spelled, rest_eq⟩ := ih tail_eq.symm
      exact ⟨_, behind, rfl, .char notQuote notBackslash (fun _ => rfl) spelled, rest_eq⟩
  | @letter letter c value written escape _ ih =>
      rcases exists_of_mendedFrom_escape_eq mended_eq with
        ⟨tail, rfl, tail_eq⟩ | ⟨_, _, -, -, isU, -⟩
      · obtain ⟨spelling, behind, rfl, spelled, rest_eq⟩ := ih tail_eq.symm
        exact ⟨_, behind, rfl, .letter escape spelled, rest_eq⟩
      · exact absurd isU (letter_ne_u escape)
  | @unit a b c d unit value written denotes notHigh notLow _ ih =>
      rcases exists_of_mendedFrom_codeUnit_eq denotes mended_eq with
        ⟨tail, rfl, tail_eq⟩ | ⟨e, tail, rfl, low, rfl, tail_eq⟩
      · obtain ⟨spelling, behind, rfl, spelled, rest_eq⟩ := ih tail_eq.symm
        exact ⟨_, behind, rfl, .unit denotes notHigh notLow spelled, rest_eq⟩
      · obtain ⟨spelling, behind, rfl, spelled, rest_eq⟩ := ih tail_eq.symm
        have notQuote : e ≠ '"' := by
          rintro rfl
          contradiction
        have notBackslash : e ≠ '\\' := by
          rintro rfl
          contradiction
        rw [Char.ofNat_toNat]
        exact ⟨_, behind, rfl, .char notQuote notBackslash (fun _ => rfl) spelled, rest_eq⟩
  | @pair a b c d e f g h high low value written first isHigh second isLow _ ih =>
      -- no control character is half of a pair
      have notControl {c : Char} (control : c.toNat < 0x20) :
          Text.isHighSurrogate c.toNat = false ∧ Text.isLowSurrogate c.toNat = false := by
        simp only [Text.isHighSurrogate, Text.isLowSurrogate, Bool.and_eq_false_iff,
          decide_eq_false_iff_not]
        omega
      rcases exists_of_mendedFrom_codeUnit_eq first mended_eq with
        ⟨half, rfl, half_eq⟩ | ⟨_, _, rfl, control, rfl, -⟩
      · rcases exists_of_mendedFrom_codeUnit_eq second half_eq.symm with
          ⟨tail, rfl, tail_eq⟩ | ⟨_, _, rfl, control, rfl, -⟩
        · obtain ⟨spelling, behind, rfl, spelled, rest_eq⟩ := ih tail_eq.symm
          exact ⟨_, behind, rfl, .pair first isHigh second isLow spelled, rest_eq⟩
        · rw [(notControl control).2] at isLow
          exact absurd isLow Bool.false_ne_true
      · rw [(notControl control).1] at isHigh
        exact absurd isHigh Bool.false_ne_true

/-! ## Where a spelling comes from -/

/-- Wherever mending wrote the given text outside strings, the original goes on with
a spelling of the given kind, and mending went on from its last character. -/
def ComesFrom (spelled : Text → Prop) (written : Text) : Prop :=
  ∀ ⦃last text rest⦄, mendedFrom (.outside last) text = written ++ rest →
    ∃ spelling behind, text = spelling ++ behind ∧ spelled spelling ∧
      rest = mendedFrom (.outside spelling.getLast?) behind

theorem ComesFrom.imp {first second : Text → Prop} {written : Text}
    (comes : ComesFrom first written) (implies : ∀ ⦃spelling⦄, first spelling → second spelling) :
    ComesFrom second written := by
  intro last text rest mended_eq
  obtain ⟨spelling, behind, text_eq, spelled, rest_eq⟩ := comes mended_eq
  exact ⟨spelling, behind, text_eq, implies spelled, rest_eq⟩

theorem not_closes_of_isDelimiter {c : Char} (within : Document.isDelimiter c = false) :
    ¬ Closes c := by
  intro closes
  rw [closes.isDelimiter] at within
  contradiction

/-- Words and numerals have been copied. -/
theorem comesFrom_of_undivided {written : Text} (undivided : Undivided written) :
    ComesFrom (· = written) written := by
  rcases undivided with ⟨nonempty, within⟩
  induction written with
  | nil => contradiction
  | cons c written ih =>
      intro last text rest mended_eq
      rcases List.forall_mem_cons.mp within with ⟨cWithin, writtenWithin⟩
      have plain := isPlain_of_isDelimiter cWithin
      simp only [isPlain, Bool.and_eq_true, Bool.not_eq_true', bne_iff_ne] at plain
      rcases plain with ⟨⟨notBlank, notQuote⟩, -⟩
      obtain ⟨tail, rfl, -, tail_eq⟩ := exists_of_mendedFrom_eq blanks_nil notBlank
        (not_closes_of_isDelimiter cWithin) mended_eq
      rw [regionBehind, if_neg notQuote] at tail_eq
      cases written with
      | nil => exact ⟨[c], tail, rfl, rfl, tail_eq⟩
      | cons d written =>
          obtain ⟨_, behind, rfl, rfl, rest_eq⟩ := ih (by simp) writtenWithin tail_eq.symm
          exact ⟨c :: d :: written, behind, rfl, rfl, by rwa [List.getLast?_cons_cons]⟩

/-- A string between quotes comes from a tolerant spelling of the string. -/
theorem comesFrom_quoted {value written : Text} (spelled : StringText .strict value written) :
    ComesFrom (fun spelling => ∃ inner, StringText .tolerant value inner ∧ spelling = quoted inner)
      (quoted written) := by
  intro last text rest mended_eq
  simp only [quoted, List.cons_append, List.append_assoc, List.nil_append] at mended_eq
  obtain ⟨tail, rfl, -, tail_eq⟩ :=
    exists_of_mendedFrom_eq blanks_nil (by decide) (by unfold Closes; decide) mended_eq
  rw [regionBehind, if_pos rfl] at tail_eq
  obtain ⟨inner, behind, rfl, innerSpelled, rest_eq⟩ := spelled.exists_of_mendedFrom_eq tail_eq.symm
  refine ⟨quoted inner, behind, by simp [quoted], ⟨inner, innerSpelled, rfl⟩, ?_⟩
  rw [rest_eq, quoted_getLast?]

/-- The opening character of a container has been copied. -/
theorem exists_of_mendedFrom_opening_eq {last : Option Char} {text rest : Text} {opening : Char}
    (opens : opening = '[' ∨ opening = '\x7b')
    (mended_eq : mendedFrom (.outside last) text = opening :: rest) :
    ∃ tail, text = opening :: tail ∧ rest = mendedFrom (.outside (some opening)) tail := by
  rcases opens with rfl | rfl <;>
    · obtain ⟨tail, rfl, -, rest_eq⟩ :=
        exists_of_mendedFrom_eq blanks_nil (by decide) (by unfold Closes; decide) mended_eq
      exact ⟨tail, rfl, rest_eq⟩

section Parts

variable {α : Type} {spelledAs : α → Text → Prop}

/-- A part whose spelling comes from one of the same value. -/
structure Part.Traceable (spelledAs : α → Text → Prop) (part : Part α) : Prop where
  padded : part.Padded
  starts : ∃ c rest, part.spelling = c :: rest ∧ startsValue c = true
  comes : ComesFrom (spelledAs part.value) part.spelling

theorem not_closes_of_startsValue {c : Char} (starts : startsValue c = true) : ¬ Closes c := by
  intro closes
  rw [closes.startsValue] at starts
  contradiction

/-- The blanks in front of a part have been copied, and its spelling comes from one
of the same value. -/
theorem Part.Traceable.exists_spelling {part : Part α} (traceable : part.Traceable spelledAs)
    {last : Option Char} {text rest : Text}
    (mended_eq : mendedFrom (.outside last) text = part.before ++ (part.spelling ++ rest)) :
    ∃ spelling behind, text = part.before ++ (spelling ++ behind) ∧
      spelledAs part.value spelling ∧ rest = mendedFrom (.outside spelling.getLast?) behind := by
  obtain ⟨c, tail, spelling_eq, starts⟩ := traceable.starts
  have written_eq := mended_eq
  rw [spelling_eq, List.cons_append] at written_eq
  obtain ⟨_, rfl, copied, -⟩ := exists_of_mendedFrom_eq traceable.padded.1
    (isBlank_of_startsValue starts) (not_closes_of_startsValue starts) written_eq
  rw [← List.cons_append, ← spelling_eq] at copied
  obtain ⟨spelling, behind, text_eq, spelled, rest_eq⟩ := traceable.comes copied
  exact ⟨spelling, behind, by rw [text_eq], spelled, rest_eq⟩

/-- The parts of a container, up to its end, come from parts with the same values,
behind which one comma may stand. -/
theorem exists_parts_of_mendedFrom_eq {closing : Char} (closes : Closes closing)
    {first : Part α} {parts : List (Part α)}
    (traceable : ∀ part ∈ first :: parts, part.Traceable spelledAs) {blanks : Text}
    (blank : Blanks blanks) {last : Option Char} {text rest : Text}
    (mended_eq : mendedFrom (.outside last) text =
      separated (first :: parts) ++ (blanks ++ closing :: rest)) :
    ∃ originals ending behind, text = separated originals ++ (ending ++ closing :: behind) ∧
      originals.map Part.value = (first :: parts).map Part.value ∧
      (∀ part ∈ originals, part.Padded ∧ spelledAs part.value part.spelling) ∧
      EndText .tolerant ending ∧ rest = mendedFrom (.outside (some closing)) behind := by
  induction parts generalizing first last text with
  | nil =>
      have firstTraceable := traceable first List.mem_cons_self
      obtain ⟨beforeBlank, afterBlank⟩ := firstTraceable.padded
      simp only [separated_singleton, Part.text, List.append_assoc] at mended_eq
      obtain ⟨spelling, behindFirst, rfl, spelled, behindFirst_eq⟩ :=
        firstTraceable.exists_spelling mended_eq
      rw [← List.append_assoc] at behindFirst_eq
      obtain ⟨after, ending, behind, rfl, afterBlank', ends, rest_eq⟩ :=
        exists_ending_of_mendedFrom_eq (blanks_append.mpr ⟨afterBlank, blank⟩) closes
          behindFirst_eq.symm
      refine ⟨[⟨first.before, first.value, spelling, after⟩], ending, behind, ?_, rfl, ?_, ?_,
        rest_eq⟩
      · simp [separated_singleton, Part.text]
      · intro part member
        cases List.mem_singleton.mp member
        exact ⟨⟨beforeBlank, afterBlank'⟩, spelled⟩
      · rcases ends with rfl | ⟨-, ends⟩
        · exact .blanks blanks_nil
        · exact ends
  | cons next parts ih =>
      rcases List.forall_mem_cons.mp traceable with ⟨firstTraceable, restTraceable⟩
      obtain ⟨beforeBlank, afterBlank⟩ := firstTraceable.padded
      simp only [separated_cons_cons, Part.text, List.append_assoc, List.cons_append] at mended_eq
      obtain ⟨spelling, behindFirst, rfl, spelled, behindFirst_eq⟩ :=
        firstTraceable.exists_spelling mended_eq
      obtain ⟨behindComma, rfl, -, behindComma_eq⟩ :=
        exists_of_mendedFrom_eq afterBlank (by decide) (by unfold Closes; decide)
          behindFirst_eq.symm
      obtain ⟨originals, ending, behind, rfl, values_eq, spelledAll, ends, rest_eq⟩ :=
        ih restTraceable behindComma_eq.symm
      obtain ⟨second, others, rfl⟩ : ∃ second others, originals = second :: others :=
        List.exists_cons_of_ne_nil (by rintro rfl; contradiction)
      refine ⟨⟨first.before, first.value, spelling, first.after⟩ :: second :: others, ending,
        behind, ?_, ?_, ?_, ends, rest_eq⟩
      · simp [separated_cons_cons, Part.text]
      · rw [List.map_cons, values_eq]
        rfl
      · exact List.forall_mem_cons.mpr ⟨⟨⟨beforeBlank, afterBlank⟩, spelled⟩, spelledAll⟩

/-- A container with parts comes from one with the same values, behind whose last
part one comma may stand. -/
theorem comesFrom_container {opening closing : Char} (opens : opening = '[' ∨ opening = '\x7b')
    (closes : Closes closing) {parts : List (Part α)} (nonempty : parts ≠ [])
    (traceable : ∀ part ∈ parts, part.Traceable spelledAs) {blanks : Text}
    (blank : Blanks blanks) :
    ComesFrom (fun spelling => ∃ originals ending,
        originals.map Part.value = parts.map Part.value ∧
        (∀ part ∈ originals, part.Padded ∧ spelledAs part.value part.spelling) ∧
        EndText .tolerant ending ∧
        spelling = opening :: (separated originals ++ (ending ++ [closing])))
      (opening :: (separated parts ++ (blanks ++ [closing]))) := by
  intro last text rest mended_eq
  obtain ⟨first, parts, rfl⟩ := List.exists_cons_of_ne_nil nonempty
  simp only [List.cons_append, List.append_assoc, List.nil_append] at mended_eq
  obtain ⟨tail, rfl, tail_eq⟩ := exists_of_mendedFrom_opening_eq opens mended_eq
  obtain ⟨originals, ending, behind, rfl, values_eq, spelled, ends, rest_eq⟩ :=
    exists_parts_of_mendedFrom_eq closes traceable blank tail_eq.symm
  refine ⟨opening :: (separated originals ++ (ending ++ [closing])), behind, by simp,
    ⟨originals, ending, values_eq, spelled, ends, rfl⟩, ?_⟩
  rw [← List.append_assoc, ← List.cons_append, List.getLast?_concat]
  exact rest_eq

end Parts

/-- A container without parts comes from one without parts: no comma is dropped
behind an opening character. -/
theorem comesFrom_empty {opening closing : Char} (opens : opening = '[' ∨ opening = '\x7b')
    (closes : Closes closing) {blanks : Text} (blank : Blanks blanks) :
    ComesFrom (fun spelling => ∃ after, Blanks after ∧ spelling = opening :: (after ++ [closing]))
      (opening :: (blanks ++ [closing])) := by
  intro last text rest mended_eq
  simp only [List.cons_append, List.append_assoc, List.nil_append] at mended_eq
  obtain ⟨tail, rfl, tail_eq⟩ := exists_of_mendedFrom_opening_eq opens mended_eq
  obtain ⟨after, ending, behind, rfl, afterBlank, ends, rest_eq⟩ :=
    exists_ending_of_mendedFrom_eq blank closes tail_eq.symm
  rcases ends with rfl | ⟨mayEnd, -⟩
  · refine ⟨opening :: (after ++ [closing]), behind, by simp, ⟨after, afterBlank, rfl⟩, ?_⟩
    rw [← List.cons_append, List.getLast?_concat]
    exact rest_eq
  · rcases mayEnd with ⟨c, same, notBrace, notBracket, -⟩
    cases same
    rcases opens with rfl | rfl
    · exact absurd rfl notBracket
    · exact absurd rfl notBrace

/-- An entry comes from an entry with the same key and the same value. -/
theorem comesFrom_entry {spelledAs : Json → Text → Prop} {entry : Entry} (padded : entry.Padded)
    (nonempty : ∀ ⦃spelling⦄, spelledAs entry.element.value spelling → spelling ≠ [])
    (keySpelled : StringText .strict entry.key entry.keySpelling)
    (traceable : entry.element.Traceable spelledAs) :
    ComesFrom (MemberText .tolerant spelledAs entry.part.value) entry.part.spelling := by
  intro last text rest mended_eq
  rcases padded with ⟨-, betweenBlank, beforeBlank, -⟩
  simp only [Entry.part, List.append_assoc, List.cons_append] at mended_eq
  obtain ⟨_, behindKey, rfl, ⟨keySpelling, keySpelled', rfl⟩, behindKey_eq⟩ :=
    comesFrom_quoted keySpelled mended_eq
  obtain ⟨behindColon, rfl, -, behindColon_eq⟩ :=
    exists_of_mendedFrom_eq betweenBlank (by decide) (by unfold Closes; decide) behindKey_eq.symm
  obtain ⟨spelling, behind, rfl, spelled, rest_eq⟩ :=
    traceable.exists_spelling behindColon_eq.symm
  let original : Entry := { entry with
    keySpelling := keySpelling, element := { entry.element with spelling := spelling } }
  refine ⟨original.part.spelling, behind, by simp [original, Entry.part],
    ⟨keySpelling, _, _, _, keySpelled', betweenBlank, beforeBlank, spelled, rfl⟩, ?_⟩
  rw [original.part_spelling_getLast? (nonempty spelled)]
  exact rest_eq

/-! ## Values -/

theorem EndText.blanks_of_strict {ending : Text} (ends : EndText .strict ending) :
    Blanks ending := by
  cases ends with
  | blanks blank => exact blank
  | comma tolerant _ => contradiction

/-- A strict spelling that mending has written comes from a tolerant spelling of the
same value. -/
theorem ValueText.comesFrom {depth : Nat} {value : Json} {written : Text}
    (spelled : ValueText .strict depth value written) :
    ComesFrom (ValueText .tolerant depth value) written := by
  induction spelled with
  | nullWord =>
      apply (comesFrom_of_undivided undivided_null).imp
      rintro _ rfl
      exact .nullWord
  | trueWord =>
      apply (comesFrom_of_undivided undivided_true).imp
      rintro _ rfl
      exact .trueWord
  | falseWord =>
      apply (comesFrom_of_undivided undivided_false).imp
      rintro _ rfl
      exact .falseWord
  | number spelled denotes =>
      apply (comesFrom_of_undivided spelled.undivided).imp
      rintro _ rfl
      exact .number spelled denotes
  | string spelled =>
      apply (comesFrom_quoted spelled).imp
      rintro _ ⟨inner, innerSpelled, rfl⟩
      exact .string innerSpelled
  | emptyArray blank =>
      apply (comesFrom_empty (.inl rfl) (.inl rfl) blank).imp
      rintro _ ⟨after, afterBlank, rfl⟩
      exact .emptyArray afterBlank
  | emptyObject blank =>
      apply (comesFrom_empty (.inr rfl) (.inr rfl) blank).imp
      rintro _ ⟨after, afterBlank, rfl⟩
      exact .emptyObject afterBlank
  | @array depth elements ending nonempty padded spelled ends ih =>
      have traceable : ∀ element ∈ elements, element.Traceable (ValueText .tolerant depth) :=
        fun element member =>
          ⟨padded element member, (spelled element member).exists_cons, ih element member⟩
      refine (comesFrom_container (.inl rfl) (.inl rfl) nonempty traceable
        ends.blanks_of_strict).imp ?_
      rintro _ ⟨originals, ending, values_eq, originalsSpelled, ends, rfl⟩
      rw [← values_eq]
      refine .array ?_ (fun part member => (originalsSpelled part member).1)
        (fun part member => (originalsSpelled part member).2) ends
      rintro rfl
      exact nonempty (List.map_eq_nil_iff.mp values_eq.symm)
  | @object depth entries ending nonempty padded keys spelled ends ih =>
      have traceable : ∀ part ∈ entries.map Entry.part,
          part.Traceable (MemberText .tolerant (ValueText .tolerant depth)) := by
        refine List.forall_mem_map.mpr fun entry member => ?_
        obtain ⟨-, -, elementPadded⟩ := padded entry member
        refine ⟨(padded entry member).part, ⟨'"', _, rfl, rfl⟩, ?_⟩
        exact comesFrom_entry (padded entry member) (fun _ spelled => spelled.ne_nil)
          (keys entry member) ⟨elementPadded, (spelled entry member).exists_cons, ih entry member⟩
      refine (comesFrom_container (.inr rfl) (.inr rfl) (by simpa using nonempty) traceable
        ends.blanks_of_strict).imp ?_
      rintro _ ⟨originals, ending, values_eq, originalsSpelled, ends, rfl⟩
      obtain ⟨entries', rfl, entriesSpelled⟩ := exists_entries
        (fun part member => (originalsSpelled part member).1)
        (fun part member => (originalsSpelled part member).2)
      rw [← values_eq]
      refine .object ?_ (fun entry member => (entriesSpelled entry member).1)
        (fun entry member => (entriesSpelled entry member).2.1)
        (fun entry member => (entriesSpelled entry member).2.2) ends
      rintro rfl
      exact nonempty (by simpa using values_eq.symm)

end LogIntake.Json
