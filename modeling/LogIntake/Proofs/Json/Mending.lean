import LogIntake.Proofs.Json.Reading

/-!
# Mending tolerant spellings

Mending turns a tolerant spelling of a value into a strict spelling of the same
value. What it writes for the spelling does not depend on what stands behind it,
although it looks ahead at every comma: a comma inside the spelling is decided
before its end, and behind the spelling mending goes on from its last character.
-/

namespace LogIntake.Json

/-! ## Steps -/

/-- What mending writes for a text that starts in a region. -/
def mendedFrom (region : Region) (text : Text) : Text :=
  mendFrom region [] text

theorem mendFrom_eq (region : Region) (reversed text : Text) :
    mendFrom region reversed text = reversed.reverse ++ mendedFrom region text := by
  induction text generalizing region reversed with
  | nil => simp [mendedFrom, mendFrom]
  | cons c text ih =>
      simp only [mendedFrom, mendFrom]
      rw [ih, ih _ (List.reverseAux _ [])]
      simp [List.reverseAux_eq]

theorem mend_eq (text : Text) : mend text = mendedFrom (.outside none) text :=
  rfl

@[simp]
theorem mendedFrom_nil (region : Region) : mendedFrom region [] = [] :=
  rfl

theorem mendedFrom_cons (region : Region) (c : Char) (text : Text) :
    mendedFrom region (c :: text) =
      (mendStep region c text).1 ++ mendedFrom (mendStep region c text).2 text := by
  simp only [mendedFrom, mendFrom]
  rw [mendFrom_eq]
  simp [mendedFrom, List.reverseAux_eq]

/-! ## Outside strings -/

/-- The character may end a value: it exists, and neither opens a container nor
separates its parts. -/
def MayEndValue (last : Option Char) : Prop :=
  ∃ c, last = some c ∧ c ≠ '\x7b' ∧ c ≠ '[' ∧ c ≠ ','

/-- The next character that is not blank closes a container. -/
def BeforeEnd (text : Text) : Prop :=
  ∃ blanks c rest, text = blanks ++ c :: rest ∧ Blanks blanks ∧ Closes c

theorem beforeEnd_iff {text : Text} :
    BeforeEnd text ↔ ∃ c rest, skipBlanks text = c :: rest ∧ Closes c := by
  constructor
  · rintro ⟨blanks, c, rest, rfl, blank, closes⟩
    exact ⟨c, rest, by rw [skipBlanks_append blank, skipBlanks_eq_self closes.isBlank], closes⟩
  · rintro ⟨c, rest, skipped, closes⟩
    obtain ⟨blanks, blank, text_eq⟩ := exists_blanks_append_skipBlanks text
    exact ⟨blanks, c, rest, by rw [text_eq, skipped], blank, closes⟩

theorem isSuperfluousComma_iff {last : Option Char} {rest : Text} :
    isSuperfluousComma last rest = true ↔ MayEndValue last ∧ BeforeEnd rest := by
  rw [beforeEnd_iff]
  cases last with
  | none => simp [isSuperfluousComma, MayEndValue]
  | some c =>
      cases skipped : skipBlanks rest with
      | nil => simp [isSuperfluousComma, skipped]
      | cons d tail =>
          simp only [isSuperfluousComma, skipped, MayEndValue, Closes]
          simp [and_assoc, or_comm]

/-- The characters that mending copies outside strings. -/
def isPlain (c : Char) : Bool :=
  !isBlank c && c != '"' && c != ','

theorem mendedFrom_plain {c : Char} (plain : isPlain c = true) (last : Option Char)
    (text : Text) :
    mendedFrom (.outside last) (c :: text) = c :: mendedFrom (.outside (some c)) text := by
  simp only [isPlain, Bool.and_eq_true, Bool.not_eq_true', bne_iff_ne] at plain
  rcases plain with ⟨⟨notBlank, notQuote⟩, notComma⟩
  simp [mendedFrom_cons, mendStep, notQuote, notComma, notBlank]

theorem mendedFrom_quote (last : Option Char) (text : Text) :
    mendedFrom (.outside last) ('"' :: text) = '"' :: mendedFrom .inside text := by
  simp [mendedFrom_cons, mendStep]

theorem mendedFrom_blank {c : Char} (blank : isBlank c = true) (last : Option Char)
    (text : Text) :
    mendedFrom (.outside last) (c :: text) = c :: mendedFrom (.outside last) text := by
  have notQuote : c ≠ '"' := by
    rintro rfl
    contradiction
  have notComma : c ≠ ',' := by
    rintro rfl
    contradiction
  simp [mendedFrom_cons, mendStep, notQuote, notComma, blank]

theorem mendedFrom_blanks_append {blanks : Text} (blank : Blanks blanks) (last : Option Char)
    (text : Text) :
    mendedFrom (.outside last) (blanks ++ text) = blanks ++ mendedFrom (.outside last) text := by
  induction blanks with
  | nil => rfl
  | cons c blanks ih =>
      rcases blanks_cons.mp blank with ⟨cBlank, restBlank⟩
      rw [List.cons_append, mendedFrom_blank cBlank, ih restBlank, List.cons_append]

theorem mendedFrom_superfluous {last : Option Char} {text : Text} (ended : MayEndValue last)
    (closes : BeforeEnd text) :
    mendedFrom (.outside last) (',' :: text) = mendedFrom (.outside last) text := by
  have superfluous : isSuperfluousComma last text = true :=
    isSuperfluousComma_iff.mpr ⟨ended, closes⟩
  simp [mendedFrom_cons, mendStep, superfluous]

theorem mendedFrom_comma {last : Option Char} {text : Text}
    (kept : ¬ (MayEndValue last ∧ BeforeEnd text)) :
    mendedFrom (.outside last) (',' :: text) = ',' :: mendedFrom (.outside (some ',')) text := by
  have notSuperfluous : isSuperfluousComma last text = false := by
    rw [← Bool.not_eq_true, isSuperfluousComma_iff]
    exact kept
  simp [mendedFrom_cons, mendStep, notSuperfluous]

theorem Closes.isPlain {c : Char} (closes : Closes c) : Json.isPlain c = true := by
  rcases closes with rfl | rfl <;> rfl

/-! ## Inside strings -/

theorem mendedFrom_closingQuote (text : Text) :
    mendedFrom .inside ('"' :: text) = '"' :: mendedFrom (.outside (some '"')) text := by
  simp [mendedFrom_cons, mendStep]

theorem mendedFrom_escape (c : Char) (text : Text) :
    mendedFrom .inside ('\\' :: c :: text) = '\\' :: c :: mendedFrom .inside text := by
  simp [mendedFrom_cons, mendStep]

theorem mendedFrom_inside {c : Char} (notQuote : c ≠ '"') (notBackslash : c ≠ '\\')
    (text : Text) :
    mendedFrom .inside (c :: text) = mendedChar c ++ mendedFrom .inside text := by
  simp [mendedFrom_cons, mendStep, notQuote, notBackslash]

/-- A raw control character is mended into an escape that denotes it. -/
theorem unicodeEscape_eq {c : Char} (low : c.toNat < 0x20) :
    unicodeEscape c =
        ['\\', 'u', '0', '0', (c.toNat / 16).digitChar, (c.toNat % 16).digitChar] ∧
      codeUnit? '0' '0' (c.toNat / 16).digitChar (c.toNat % 16).digitChar = some c.toNat := by
  have each : ∀ n < 0x20,
      ['\\', 'u'] ++ Text.padZeros 4 (Text.hex n) =
        ['\\', 'u', '0', '0', (n / 16).digitChar, (n % 16).digitChar] ∧
      codeUnit? '0' '0' (n / 16).digitChar (n % 16).digitChar = some n := by
    decide
  exact each c.toNat low

theorem printable_of_hexDigit? {c : Char} {n : Nat} (digit : Text.hexDigit? c = some n) :
    c ≠ '"' ∧ c ≠ '\\' ∧ ¬ c.toNat < 0x20 := by
  refine ⟨?_, ?_, ?_⟩
  · rintro rfl
    contradiction
  · rintro rfl
    contradiction
  · intro low
    have each : ∀ n < 0x20, Text.hexDigit? (Char.ofNat n) = none := by decide
    have notDigit := each c.toNat low
    rw [Char.ofNat_toNat, digit] at notDigit
    contradiction

theorem mendedFrom_printable {c : Char} (notQuote : c ≠ '"') (notBackslash : c ≠ '\\')
    (printable : ¬ c.toNat < 0x20) (text : Text) :
    mendedFrom .inside (c :: text) = c :: mendedFrom .inside text := by
  simp [mendedFrom_inside notQuote notBackslash, mendedChar, printable]

theorem mendedFrom_control {c : Char} (low : c.toNat < 0x20) (text : Text) :
    mendedFrom .inside (c :: text) =
      '\\' :: 'u' :: '0' :: '0' :: (c.toNat / 16).digitChar :: (c.toNat % 16).digitChar ::
        mendedFrom .inside text := by
  have notQuote : c ≠ '"' := by
    rintro rfl
    contradiction
  have notBackslash : c ≠ '\\' := by
    rintro rfl
    contradiction
  simp [mendedFrom_inside notQuote notBackslash, mendedChar, low, (unicodeEscape_eq low).1]

/-- The four digits of a code unit. -/
theorem exists_digits_of_codeUnit? {a b c d : Char} {unit : Nat}
    (denotes : codeUnit? a b c d = some unit) :
    ∃ first second third fourth, Text.hexDigit? a = some first ∧
      Text.hexDigit? b = some second ∧ Text.hexDigit? c = some third ∧
      Text.hexDigit? d = some fourth ∧
      unit = ((first * 16 + second) * 16 + third) * 16 + fourth := by
  simp only [codeUnit?, Option.bind_eq_bind, Option.bind_eq_some_iff, Option.some.injEq]
    at denotes
  rcases denotes with ⟨first, aDigit, second, bDigit, third, cDigit, fourth, dDigit, unit_eq⟩
  exact ⟨first, second, third, fourth, aDigit, bDigit, cDigit, dDigit, unit_eq.symm⟩

theorem mendedFrom_codeUnit {a b c d : Char} {unit : Nat}
    (denotes : codeUnit? a b c d = some unit) (text : Text) :
    mendedFrom .inside ('\\' :: 'u' :: a :: b :: c :: d :: text) =
      '\\' :: 'u' :: a :: b :: c :: d :: mendedFrom .inside text := by
  obtain ⟨_, _, _, _, aDigit, bDigit, cDigit, dDigit, -⟩ := exists_digits_of_codeUnit? denotes
  obtain ⟨aQuote, aBackslash, aPrintable⟩ := printable_of_hexDigit? aDigit
  obtain ⟨bQuote, bBackslash, bPrintable⟩ := printable_of_hexDigit? bDigit
  obtain ⟨cQuote, cBackslash, cPrintable⟩ := printable_of_hexDigit? cDigit
  obtain ⟨dQuote, dBackslash, dPrintable⟩ := printable_of_hexDigit? dDigit
  rw [mendedFrom_escape, mendedFrom_printable aQuote aBackslash aPrintable,
    mendedFrom_printable bQuote bBackslash bPrintable,
    mendedFrom_printable cQuote cBackslash cPrintable,
    mendedFrom_printable dQuote dBackslash dPrintable]

/-- Mending the inside of a string gives a strict spelling of the same string, and
leaves the string open. -/
theorem StringText.mended {value spelling : Text} (spelled : StringText .tolerant value spelling) :
    StringText .strict value (mendedFrom .inside spelling) ∧ ∀ rest,
      mendedFrom .inside (spelling ++ rest) =
        mendedFrom .inside spelling ++ mendedFrom .inside rest := by
  induction spelled with
  | nil => exact ⟨.nil, fun rest => rfl⟩
  | @char c value spelling notQuote notBackslash _ _ ih =>
      rcases ih with ⟨strict, append_eq⟩
      by_cases low : c.toNat < 0x20
      · obtain ⟨-, denotes⟩ := unicodeEscape_eq low
        have notHigh : Text.isHighSurrogate c.toNat = false := by
          simp only [Text.isHighSurrogate, Bool.and_eq_false_iff, decide_eq_false_iff_not]
          omega
        have notLow : Text.isLowSurrogate c.toNat = false := by
          simp only [Text.isLowSurrogate, Bool.and_eq_false_iff, decide_eq_false_iff_not]
          omega
        have spelled := StringText.unit denotes notHigh notLow strict
        rw [Char.ofNat_toNat] at spelled
        exact ⟨by rwa [mendedFrom_control low], fun rest => by
          rw [List.cons_append, mendedFrom_control low, mendedFrom_control low, append_eq]
          rfl⟩
      · rw [mendedFrom_printable notQuote notBackslash low]
        refine ⟨.char notQuote notBackslash (fun h => absurd h low) strict, fun rest => ?_⟩
        rw [List.cons_append, mendedFrom_printable notQuote notBackslash low, append_eq,
          List.cons_append]
  | letter escape _ ih =>
      rcases ih with ⟨strict, append_eq⟩
      rw [mendedFrom_escape]
      refine ⟨.letter escape strict, fun rest => ?_⟩
      rw [List.cons_append, List.cons_append, mendedFrom_escape, append_eq]
      rfl
  | unit denotes notHigh notLow _ ih =>
      rcases ih with ⟨strict, append_eq⟩
      rw [mendedFrom_codeUnit denotes]
      refine ⟨.unit denotes notHigh notLow strict, fun rest => ?_⟩
      simp only [List.cons_append]
      rw [mendedFrom_codeUnit denotes, append_eq]
  | pair first isHigh second isLow _ ih =>
      rcases ih with ⟨strict, append_eq⟩
      rw [mendedFrom_codeUnit first, mendedFrom_codeUnit second]
      refine ⟨.pair first isHigh second isLow strict, fun rest => ?_⟩
      simp only [List.cons_append]
      rw [mendedFrom_codeUnit first, mendedFrom_codeUnit second, append_eq]

/-! ## Numerals and words -/

/-- The characters of numerals. -/
def isNumeralChar (c : Char) : Bool :=
  Text.isDigit c || c == '-' || c == '+' || c == '.' || c == 'e' || c == 'E'

theorem isDelimiter_of_isNumeralChar {c : Char} (numeralChar : isNumeralChar c = true) :
    Document.isDelimiter c = false := by
  cases delimiter : Document.isDelimiter c with
  | false => rfl
  | true =>
      simp only [Document.isDelimiter, isBlank, Bool.or_eq_true, beq_iff_eq] at delimiter
      rcases delimiter with ((((((((((rfl | rfl) | rfl) | rfl) | rfl) | rfl) | rfl) | rfl) | rfl) |
        rfl) | rfl) <;> contradiction

theorem isNumeralChar_of_isDigits {digits : Text} (run : IsDigits digits) :
    ∀ c ∈ digits, isNumeralChar c = true := by
  intro c member
  simp [isNumeralChar, run.2 c member]

theorem NumeralText.isNumeralChar {numeral : Numeral} {spelling : Text}
    (spelled : NumeralText numeral spelling) : ∀ c ∈ spelling, isNumeralChar c = true := by
  cases spelled with
  | @parts negative whole fraction fractionText exponentText exponent isWhole fractionSpelled
      exponentSpelled =>
      simp only [List.mem_append]
      rintro c (member | member | member | member)
      · cases negative with
        | true =>
            cases List.mem_singleton.mp member
            rfl
        | false => contradiction
      · rcases isWhole with rfl | ⟨run, -⟩
        · cases List.mem_singleton.mp member
          rfl
        · exact isNumeralChar_of_isDigits run c member
      · cases fractionSpelled with
        | absent => contradiction
        | digits run =>
            rcases List.mem_cons.mp member with rfl | member
            · rfl
            · exact isNumeralChar_of_isDigits run c member
      · cases exponentSpelled with
        | absent => contradiction
        | digits isLetter signed run =>
            rcases List.mem_cons.mp member with rfl | member
            · rcases isLetter with rfl | rfl <;> rfl
            · rcases List.mem_append.mp member with member | member
              · cases signed with
                | absent => contradiction
                | plus =>
                    cases List.mem_singleton.mp member
                    rfl
                | minus =>
                    cases List.mem_singleton.mp member
                    rfl
              · exact isNumeralChar_of_isDigits run c member

theorem NumeralText.undivided {numeral : Numeral} {spelling : Text}
    (spelled : NumeralText numeral spelling) : Undivided spelling :=
  ⟨spelled.ne_nil, fun c member => isDelimiter_of_isNumeralChar (spelled.isNumeralChar c member)⟩

theorem isPlain_of_isDelimiter {c : Char} (within : Document.isDelimiter c = false) :
    isPlain c = true := by
  simp only [Document.isDelimiter, Bool.or_eq_false_iff, beq_eq_false_iff_ne] at within
  simp [isPlain, within]

/-- Mending writes the given text for a spelling outside strings, and goes on from
the last character of the spelling. -/
def MendsTo (spelling mended : Text) : Prop :=
  ∀ last rest, mendedFrom (.outside last) (spelling ++ rest) =
    mended ++ mendedFrom (.outside spelling.getLast?) rest

theorem MendsTo.mend_eq {spelling mended : Text} (mends : MendsTo spelling mended) :
    mend spelling = mended := by
  simpa [Json.mend_eq] using mends none []

theorem mendsTo_of_plain {run : Text} (nonempty : run ≠ []) (plain : ∀ c ∈ run, isPlain c = true) :
    MendsTo run run := by
  induction run with
  | nil => contradiction
  | cons c run ih =>
      rcases List.forall_mem_cons.mp plain with ⟨cPlain, runPlain⟩
      intro last rest
      rw [List.cons_append, mendedFrom_plain cPlain]
      cases run with
      | nil => rfl
      | cons d run =>
          rw [ih (by simp) runPlain, List.getLast?_cons_cons]
          rfl

theorem mendsTo_of_undivided {run : Text} (undivided : Undivided run) : MendsTo run run :=
  mendsTo_of_plain undivided.1 fun c member => isPlain_of_isDelimiter (undivided.2 c member)

theorem getLast?_append_eq {first second : Text} (nonempty : second ≠ []) :
    (first ++ second).getLast? = second.getLast? := by
  rw [List.getLast?_append, List.getLast?_eq_some_getLast nonempty, Option.some_or]

theorem MendsTo.append {first second mendedFirst mendedSecond : Text}
    (firstMends : MendsTo first mendedFirst) (secondMends : MendsTo second mendedSecond)
    (nonempty : second ≠ []) : MendsTo (first ++ second) (mendedFirst ++ mendedSecond) := by
  intro last rest
  rw [List.append_assoc, firstMends, secondMends, getLast?_append_eq nonempty,
    List.append_assoc]

theorem MendsTo.blanks_append {blanks second mendedSecond : Text} (blank : Blanks blanks)
    (secondMends : MendsTo second mendedSecond) (nonempty : second ≠ []) :
    MendsTo (blanks ++ second) (blanks ++ mendedSecond) := by
  intro last rest
  rw [List.append_assoc, mendedFrom_blanks_append blank, secondMends,
    getLast?_append_eq nonempty, List.append_assoc]

theorem MendsTo.cons {c : Char} {second mendedSecond : Text} (plain : isPlain c = true)
    (secondMends : MendsTo second mendedSecond) (nonempty : second ≠ []) :
    MendsTo (c :: second) (c :: mendedSecond) := by
  have single : MendsTo [c] [c] := mendsTo_of_plain (by simp) (by simpa using plain)
  exact single.append secondMends nonempty

theorem quoted_getLast? (spelling : Text) : (quoted spelling).getLast? = some '"' := by
  rw [quoted, ← List.cons_append, List.getLast?_concat]

theorem mendsTo_quoted {value spelling : Text} (spelled : StringText .tolerant value spelling) :
    MendsTo (quoted spelling) (quoted (mendedFrom .inside spelling)) := by
  intro last rest
  rw [quoted_getLast?, quoted, List.cons_append, List.append_assoc, mendedFrom_quote,
    spelled.mended.2]
  simp [quoted, mendedFrom_closingQuote]

/-! ## Parts of a container -/

section Parts

variable {α : Type}

/-- The part with its spelling mended. -/
def Part.mended (part : Part α) : Part α :=
  { part with spelling := mend part.spelling }

/-- A part whose spelling is mended by itself, so that a value ends with it. -/
structure Part.Mendable (part : Part α) : Prop where
  padded : part.Padded
  mends : MendsTo part.spelling (mend part.spelling)
  starts : ∃ c rest, part.spelling = c :: rest ∧ startsValue c = true
  ends : MayEndValue part.spelling.getLast?

theorem Part.Mendable.mendedFrom_text {part : Part α} (mendable : part.Mendable)
    (last : Option Char) (rest : Text) :
    mendedFrom (.outside last) (part.text ++ rest) =
      part.mended.text ++ mendedFrom (.outside part.spelling.getLast?) rest := by
  obtain ⟨beforeBlank, afterBlank⟩ := mendable.padded
  simp only [Part.text, Part.mended, List.append_assoc]
  rw [mendedFrom_blanks_append beforeBlank, mendable.mends, mendedFrom_blanks_append afterBlank]

/-- A comma in front of a part stays. -/
theorem Part.Mendable.not_beforeEnd {part : Part α} (mendable : part.Mendable) (rest : Text) :
    ¬ BeforeEnd (part.text ++ rest) := by
  obtain ⟨c, spelling, spelling_eq, starts⟩ := mendable.starts
  rw [beforeEnd_iff]
  rintro ⟨d, tail, skipped, closes⟩
  simp only [Part.text, List.append_assoc, skipBlanks_append mendable.padded.1, spelling_eq,
    List.cons_append, skipBlanks_eq_self (isBlank_of_startsValue starts)] at skipped
  cases skipped
  have notStarts := closes.startsValue
  rw [starts] at notStarts
  contradiction

/-- Mending keeps the commas between parts. -/
theorem mendedFrom_separated {first : Part α} {parts : List (Part α)}
    (mendable : ∀ part ∈ first :: parts, part.Mendable) (last : Option Char) (rest : Text) :
    ∃ end?, MayEndValue end? ∧
      mendedFrom (.outside last) (separated (first :: parts) ++ rest) =
        separated ((first :: parts).map Part.mended) ++ mendedFrom (.outside end?) rest := by
  induction parts generalizing first last with
  | nil =>
      have firstMendable := mendable first List.mem_cons_self
      refine ⟨_, firstMendable.ends, ?_⟩
      simpa [separated_singleton] using firstMendable.mendedFrom_text last rest
  | cons next parts ih =>
      rcases List.forall_mem_cons.mp mendable with ⟨firstMendable, restMendable⟩
      have nextMendable := restMendable next List.mem_cons_self
      obtain ⟨end?, mayEnd, rest_eq⟩ := ih restMendable (some ',')
      refine ⟨end?, mayEnd, ?_⟩
      have kept : ¬ (MayEndValue first.spelling.getLast? ∧
          BeforeEnd (separated (next :: parts) ++ rest)) := by
        rw [separated_cons, List.append_assoc]
        exact fun both => nextMendable.not_beforeEnd _ both.2
      rw [separated_cons_cons, List.append_assoc, List.cons_append,
        firstMendable.mendedFrom_text, mendedFrom_comma kept, rest_eq]
      simp [separated_cons_cons]

/-- Mending drops a comma in front of the end of a container. -/
theorem mendedFrom_ending {ending : Text} (ends : EndText .tolerant ending) :
    ∃ blanks, Blanks blanks ∧ ∀ ⦃end? closing⦄ rest, MayEndValue end? → Closes closing →
      mendedFrom (.outside end?) (ending ++ closing :: rest) =
        blanks ++ closing :: mendedFrom (.outside (some closing)) rest := by
  cases ends with
  | blanks blank =>
      refine ⟨_, blank, fun end? closing rest mayEnd closes => ?_⟩
      rw [mendedFrom_blanks_append blank, mendedFrom_plain closes.isPlain]
  | @comma blanks _ blank =>
      refine ⟨blanks, blank, fun end? closing rest mayEnd closes => ?_⟩
      have beforeEnd : BeforeEnd (blanks ++ closing :: rest) := ⟨_, _, _, rfl, blank, closes⟩
      rw [List.cons_append, mendedFrom_superfluous mayEnd beforeEnd,
        mendedFrom_blanks_append blank, mendedFrom_plain closes.isPlain]

/-- A container is mended part by part. -/
theorem mendsTo_container {opening closing : Char} {parts : List (Part α)} {ending : Text}
    (opens : isPlain opening = true) (closes : Closes closing) (nonempty : parts ≠ [])
    (mendable : ∀ part ∈ parts, part.Mendable) (ends : EndText .tolerant ending) :
    ∃ blanks, Blanks blanks ∧
      MendsTo (opening :: (separated parts ++ (ending ++ [closing])))
        (opening :: (separated (parts.map Part.mended) ++ (blanks ++ [closing]))) := by
  obtain ⟨first, parts, rfl⟩ := List.exists_cons_of_ne_nil nonempty
  obtain ⟨blanks, blank, ending_eq⟩ := mendedFrom_ending ends
  refine ⟨blanks, blank, fun last rest => ?_⟩
  obtain ⟨end?, mayEnd, parts_eq⟩ :=
    mendedFrom_separated mendable (some opening) (ending ++ closing :: rest)
  have last_eq : (opening :: (separated (first :: parts) ++ (ending ++ [closing]))).getLast? =
      some closing := by
    rw [← List.append_assoc, ← List.cons_append, List.getLast?_concat]
  rw [last_eq, List.cons_append, mendedFrom_plain opens]
  simp only [List.append_assoc, List.cons_append, List.nil_append]
  rw [parts_eq, ending_eq rest mayEnd closes]

end Parts

/-! ## Values -/

theorem mayEndValue_of_isNumeralChar {c : Char} (numeralChar : isNumeralChar c = true) :
    MayEndValue (some c) := by
  refine ⟨c, rfl, ?_, ?_, ?_⟩ <;>
    · rintro rfl
      contradiction

theorem mayEndValue_container {opening closing : Char} (closes : Closes closing) (inner : Text) :
    MayEndValue (opening :: (inner ++ [closing])).getLast? := by
  rw [← List.cons_append, List.getLast?_concat]
  rcases closes with rfl | rfl <;> exact ⟨_, rfl, by decide, by decide, by decide⟩

/-- The last character of a value is one behind which a comma may be superfluous. -/
theorem ValueText.mayEndValue {dialect : Dialect} {depth : Nat} {value : Json} {spelling : Text}
    (spelled : ValueText dialect depth value spelling) : MayEndValue spelling.getLast? := by
  cases spelled with
  | nullWord => exact ⟨'l', rfl, by decide, by decide, by decide⟩
  | trueWord => exact ⟨'e', rfl, by decide, by decide, by decide⟩
  | falseWord => exact ⟨'e', rfl, by decide, by decide, by decide⟩
  | number spelled _ =>
      rw [List.getLast?_eq_some_getLast spelled.ne_nil]
      exact mayEndValue_of_isNumeralChar (spelled.isNumeralChar _ (List.getLast_mem _))
  | string _ =>
      rw [quoted_getLast?]
      exact ⟨'"', rfl, by decide, by decide, by decide⟩
  | emptyArray _ => exact mayEndValue_container (.inl rfl) _
  | array _ _ _ _ =>
      rw [← List.append_assoc]
      exact mayEndValue_container (.inl rfl) _
  | emptyObject _ => exact mayEndValue_container (.inr rfl) _
  | object _ _ _ _ _ =>
      rw [← List.append_assoc]
      exact mayEndValue_container (.inr rfl) _

theorem mendsTo_empty {opening closing : Char} {blanks : Text} (opens : isPlain opening = true)
    (closes : Closes closing) (blank : Blanks blanks) :
    MendsTo (opening :: (blanks ++ [closing])) (opening :: (blanks ++ [closing])) := by
  intro last rest
  have last_eq : (opening :: (blanks ++ [closing])).getLast? = some closing := by
    rw [← List.cons_append, List.getLast?_concat]
  rw [last_eq, List.cons_append, mendedFrom_plain opens, List.append_assoc,
    mendedFrom_blanks_append blank, List.cons_append, mendedFrom_plain closes.isPlain]
  simp

/-- The entry with the spellings of its key and its value mended. -/
def Entry.mended (entry : Entry) : Entry :=
  { entry with
    keySpelling := mendedFrom .inside entry.keySpelling
    element := entry.element.mended }

/-- An entry ends with its value. -/
theorem Entry.part_spelling_getLast? (entry : Entry) (nonempty : entry.element.spelling ≠ []) :
    entry.part.spelling.getLast? = entry.element.spelling.getLast? := by
  simp only [Entry.part]
  rw [getLast?_append_eq (by simp), getLast?_append_eq (by simp), ← List.singleton_append,
    getLast?_append_eq (by simp [nonempty]), getLast?_append_eq nonempty]

/-- An entry is mended from its key to its value. -/
theorem Entry.mendsTo {entry : Entry} (padded : entry.Padded)
    (keySpelled : StringText .tolerant entry.key entry.keySpelling)
    (elementMends : MendsTo entry.element.spelling (mend entry.element.spelling))
    (nonempty : entry.element.spelling ≠ []) :
    MendsTo entry.part.spelling entry.mended.part.spelling := by
  rcases padded with ⟨-, betweenBlank, beforeBlank, -⟩
  have fromValue := elementMends.blanks_append beforeBlank nonempty
  have fromColon : MendsTo (':' :: _) (':' :: _) := fromValue.cons rfl (by simp [nonempty])
  exact (mendsTo_quoted keySpelled).append (fromColon.blanks_append betweenBlank (by simp))
    (by simp)

theorem Entry.mended_part {entry : Entry}
    (mends : MendsTo entry.part.spelling entry.mended.part.spelling) :
    entry.part.mended = entry.mended.part := by
  rw [Part.mended, mends.mend_eq]
  rfl

theorem Entry.mendable {dialect : Dialect} {depth : Nat} {entry : Entry} (padded : entry.Padded)
    (spelled : ValueText dialect depth entry.element.value entry.element.spelling)
    (mends : MendsTo entry.part.spelling entry.mended.part.spelling) :
    entry.part.Mendable := by
  refine ⟨padded.part, by rwa [mends.mend_eq], ⟨'"', _, rfl, rfl⟩, ?_⟩
  rw [entry.part_spelling_getLast? spelled.ne_nil]
  exact spelled.mayEndValue

theorem mended_of_mendsTo {depth : Nat} {value : Json} {spelling mended : Text}
    (strict : ValueText .strict depth value mended) (mends : MendsTo spelling mended) :
    ValueText .strict depth value (mend spelling) ∧ MendsTo spelling (mend spelling) := by
  rw [mends.mend_eq]
  exact ⟨strict, mends⟩

/-- Mending a tolerant spelling gives a strict spelling of the same value, whatever
stands around it. -/
theorem ValueText.mended {depth : Nat} {value : Json} {spelling : Text}
    (spelled : ValueText .tolerant depth value spelling) :
    ValueText .strict depth value (mend spelling) ∧ MendsTo spelling (mend spelling) := by
  induction spelled with
  | nullWord => exact mended_of_mendsTo .nullWord (mendsTo_of_undivided undivided_null)
  | trueWord => exact mended_of_mendsTo .trueWord (mendsTo_of_undivided undivided_true)
  | falseWord => exact mended_of_mendsTo .falseWord (mendsTo_of_undivided undivided_false)
  | number spelled denotes =>
      exact mended_of_mendsTo (.number spelled denotes) (mendsTo_of_undivided spelled.undivided)
  | string spelled => exact mended_of_mendsTo (.string spelled.mended.1) (mendsTo_quoted spelled)
  | emptyArray blank =>
      exact mended_of_mendsTo (.emptyArray blank) (mendsTo_empty rfl (.inl rfl) blank)
  | emptyObject blank =>
      exact mended_of_mendsTo (.emptyObject blank) (mendsTo_empty rfl (.inr rfl) blank)
  | @array depth elements ending nonempty padded spelled ends ih =>
      have mendable : ∀ element ∈ elements, element.Mendable := fun element member =>
        ⟨padded element member, (ih element member).2, (spelled element member).exists_cons,
          (spelled element member).mayEndValue⟩
      obtain ⟨blanks, blank, mends⟩ :=
        mendsTo_container (show isPlain '[' = true from rfl) (.inl rfl) nonempty mendable ends
      refine mended_of_mendsTo ?_ mends
      have values_eq : elements.map Part.value = (elements.map Part.mended).map Part.value := by
        simp [Part.mended]
      rw [values_eq]
      refine .array (by simpa using nonempty) ?_ ?_ (.blanks blank)
      · exact List.forall_mem_map.mpr padded
      · exact List.forall_mem_map.mpr fun element member => (ih element member).1
  | @object depth entries ending nonempty padded keys spelled ends ih =>
      have entryMends : ∀ entry ∈ entries,
          MendsTo entry.part.spelling entry.mended.part.spelling := by
        intro entry member
        exact Entry.mendsTo (padded entry member) (keys entry member) (ih entry member).2
          (spelled entry member).ne_nil
      have mendable : ∀ part ∈ entries.map Entry.part, part.Mendable :=
        List.forall_mem_map.mpr fun entry member =>
          Entry.mendable (padded entry member) (spelled entry member) (entryMends entry member)
      obtain ⟨blanks, blank, mends⟩ := mendsTo_container (show isPlain '\x7b' = true from rfl)
        (.inr rfl) (by simpa using nonempty) mendable ends
      have parts_eq : (entries.map Entry.part).map Part.mended =
          (entries.map Entry.mended).map Entry.part := by
        simp only [List.map_map]
        exact List.map_congr_left fun entry member => Entry.mended_part (entryMends entry member)
      have members_eq : (entries.map Entry.part).map Part.value =
          ((entries.map Entry.mended).map Entry.part).map Part.value := by
        simp [Entry.part, Entry.mended, Part.mended]
      refine mended_of_mendsTo ?_ mends
      rw [parts_eq, members_eq]
      refine .object (by simpa using nonempty) ?_ ?_ ?_ (.blanks blank)
      · exact List.forall_mem_map.mpr padded
      · exact List.forall_mem_map.mpr fun entry member => (keys entry member).mended.1
      · exact List.forall_mem_map.mpr fun entry member => (ih entry member).1

end LogIntake.Json
