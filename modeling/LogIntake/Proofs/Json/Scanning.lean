import LogIntake.Proofs.Json.Grammar

/-!
# Scanning tokens

The scanners of the reader take exactly what the strict grammar spells:
numerals, strings and words. The scanners of numerals and strings come with two
statements each. What one takes is a spelling, and it takes a spelling whole
whenever the text behind cannot prolong it. Words are known letter by letter, so
only the first statement is needed for them.
-/

namespace LogIntake.Json

theorem toOption_eq_some_iff {ε α : Type} {result : Except ε α} {a : α} :
    result.toOption = some a ↔ result = .ok a := by
  cases result <;> simp [Except.toOption]

theorem exists_of_any_toOption {ε α : Type} {result : Except ε α} {p : α → Bool}
    (holds : result.toOption.any p = true) : ∃ a, result = .ok a ∧ p a = true := by
  cases result with
  | error fault => contradiction
  | ok a => exact ⟨a, rfl, holds⟩

/-! ## Runs -/

section Runs

variable {α : Type} {p : α → Bool} {run rest : List α}

theorem takeWhile_run_append (taken : ∀ c ∈ run, p c = true)
    (stops : ∀ c ∈ rest.head?, p c = false) : (run ++ rest).takeWhile p = run := by
  rw [List.takeWhile_append_of_pos taken]
  cases rest with
  | nil => simp
  | cons c rest =>
      have stop : p c = false := stops c rfl
      simp [stop]

theorem dropWhile_run_append (taken : ∀ c ∈ run, p c = true)
    (stops : ∀ c ∈ rest.head?, p c = false) : (run ++ rest).dropWhile p = rest := by
  rw [List.dropWhile_append_of_pos taken]
  cases rest with
  | nil => rfl
  | cons c rest =>
      have stop : p c = false := stops c rfl
      simp [stop]

/-- A run is taken as far as it goes. -/
theorem head?_dropWhile_stops (p : α → Bool) (all : List α) :
    ∀ c ∈ (all.dropWhile p).head?, p c = false := by
  intro c head
  have stop := List.head?_dropWhile_not p all
  rw [Option.mem_def.mp head] at stop
  simpa using stop

theorem head?_append_of_ne_nil (nonempty : run ≠ []) : (run ++ rest).head? = run.head? := by
  cases run with
  | nil => contradiction
  | cons c run => rfl

end Runs

/-! ## Blanks -/

theorem blanks_nil : Blanks [] := by
  simp [Blanks]

theorem blanks_append {first second : Text} :
    Blanks (first ++ second) ↔ Blanks first ∧ Blanks second := by
  simp only [Blanks, List.mem_append]
  constructor
  · intro blank
    exact ⟨fun c member => blank c (.inl member), fun c member => blank c (.inr member)⟩
  · rintro ⟨firstBlank, secondBlank⟩ c (member | member)
    · exact firstBlank c member
    · exact secondBlank c member

theorem blanks_cons {c : Char} {text : Text} :
    Blanks (c :: text) ↔ isBlank c = true ∧ Blanks text := by
  simp [Blanks]

theorem skipBlanks_append {blanks : Text} (blank : Blanks blanks) (text : Text) :
    skipBlanks (blanks ++ text) = skipBlanks text :=
  List.dropWhile_append_of_pos blank

theorem skipBlanks_eq_self {c : Char} {text : Text} (notBlank : isBlank c = false) :
    skipBlanks (c :: text) = c :: text := by
  simp [skipBlanks, notBlank]

theorem skipBlanks_of_blanks {blanks : Text} (blank : Blanks blanks) :
    skipBlanks blanks = [] := by
  simpa [skipBlanks] using skipBlanks_append blank []

/-- A text is its leading blanks and what remains without them. -/
theorem exists_blanks_append_skipBlanks (text : Text) :
    ∃ blanks, Blanks blanks ∧ text = blanks ++ skipBlanks text := by
  refine ⟨text.takeWhile isBlank, ?_, List.takeWhile_append_dropWhile.symm⟩
  exact List.all_eq_true.mp List.all_takeWhile

/-! ## Boundaries -/

theorem atBoundary_nil : AtBoundary [] := by
  simp [AtBoundary]

theorem atBoundary_cons {c : Char} {rest : Text} :
    AtBoundary (c :: rest) ↔ Document.isDelimiter c = true := by
  simp [AtBoundary]

theorem isDelimiter_of_isBlank {c : Char} (blank : isBlank c = true) :
    Document.isDelimiter c = true := by
  simp [Document.isDelimiter, blank]

/-- Blanks keep a boundary. -/
theorem atBoundary_blanks_append {blanks rest : Text} (blank : Blanks blanks)
    (boundary : AtBoundary rest) : AtBoundary (blanks ++ rest) := by
  cases blanks with
  | nil => exact boundary
  | cons c blanks =>
      exact atBoundary_cons.mpr (isDelimiter_of_isBlank (blanks_cons.mp blank).1)

theorem atBoundary_of_blanks {blanks : Text} (blank : Blanks blanks) : AtBoundary blanks := by
  simpa using atBoundary_blanks_append blank atBoundary_nil

/-- A nonempty run without delimiters, as words and numerals are. -/
def Undivided (text : Text) : Prop :=
  text ≠ [] ∧ ∀ c ∈ text, Document.isDelimiter c = false

theorem undivided_of_all {text : Text} (nonempty : text ≠ [])
    (within : (text.all fun c => !Document.isDelimiter c) = true) : Undivided text := by
  constructor
  · exact nonempty
  · intro c member
    simpa using List.all_eq_true.mp within c member

theorem undivided_null : Undivided "null".toList :=
  undivided_of_all (by decide) (by decide)

theorem undivided_true : Undivided "true".toList :=
  undivided_of_all (by decide) (by decide)

theorem undivided_false : Undivided "false".toList :=
  undivided_of_all (by decide) (by decide)

/-- The characters that may prolong a numeral. -/
def prolongs (c : Char) : Bool :=
  Text.isDigit c || c == '.' || c == 'e' || c == 'E'

theorem prolongs_of_isDelimiter {c : Char} (delimiter : Document.isDelimiter c = true) :
    prolongs c = false := by
  simp only [Document.isDelimiter, isBlank, Bool.or_eq_true, beq_iff_eq] at delimiter
  rcases delimiter with ((((((((((h | h) | h) | h) | h) | h) | h) | h) | h) | h) | h) <;>
    subst h <;> decide

theorem prolongs_of_atBoundary {rest : Text} (boundary : AtBoundary rest) :
    ∀ c ∈ rest.head?, prolongs c = false :=
  fun c head => prolongs_of_isDelimiter (boundary c head)

/-! ## Numerals -/

/-- The first character of a run of digits and the others. -/
theorem IsDigits.exists_cons {text : Text} (run : IsDigits text) :
    ∃ c rest, text = c :: rest ∧ Text.isDigit c = true ∧
      ∀ d ∈ rest, Text.isDigit d = true := by
  rcases run with ⟨nonempty, digits⟩
  cases text with
  | nil => contradiction
  | cons c rest =>
      exact ⟨c, rest, rfl, digits c List.mem_cons_self,
        fun d member => digits d (List.mem_cons_of_mem c member)⟩

theorem IsWhole.exists_cons {whole : Text} (isWhole : IsWhole whole) :
    ∃ c rest, whole = c :: rest ∧ Text.isDigit c = true := by
  rcases isWhole with rfl | ⟨run, -⟩
  · exact ⟨'0', [], rfl, rfl⟩
  · obtain ⟨c, rest, rfl, digit, -⟩ := run.exists_cons
    exact ⟨c, rest, rfl, digit⟩

theorem isDigits_cons_takeWhile {c : Char} (cDigit : Text.isDigit c = true) (text : Text) :
    IsDigits (c :: text.takeWhile Text.isDigit) := by
  constructor
  · exact List.cons_ne_nil _ _
  · intro d member
    rcases List.mem_cons.mp member with rfl | member
    · exact cDigit
    · exact List.all_eq_true.mp List.all_takeWhile d member

namespace Numeral

theorem scanWhole_append {whole rest : Text} (isWhole : IsWhole whole)
    (stops : ∀ c ∈ rest.head?, Text.isDigit c = false) :
    scanWhole (whole ++ rest) = .ok (whole, rest) := by
  rcases isWhole with rfl | ⟨run, notZero⟩
  · cases rest with
    | nil => rfl
    | cons c rest =>
        have stop : Text.isDigit c = false := stops c rfl
        simp [scanWhole, stop]
  · obtain ⟨c, whole, rfl, cDigit, digits⟩ := run.exists_cons
    have cNotZero : c ≠ '0' := by simpa using notZero
    simp [scanWhole, cDigit, takeWhile_run_append digits stops,
      dropWhile_run_append digits stops]

theorem eq_append_of_scanWhole {text whole rest : Text}
    (scanned : scanWhole text = .ok (whole, rest)) : text = whole ++ rest ∧ IsWhole whole := by
  unfold scanWhole at scanned
  split at scanned
  · contradiction
  · split at scanned
    · split at scanned
      · contradiction
      · cases scanned
        exact ⟨rfl, .inl rfl⟩
    · cases scanned
      exact ⟨rfl, .inl rfl⟩
  · rename_i c tail notZero
    split at scanned
    · rename_i cDigit
      cases scanned
      exact ⟨by simp, .inr ⟨isDigits_cons_takeWhile cDigit tail, by simpa using notZero⟩⟩
    · contradiction

theorem scanFraction_append {fraction spelling rest : Text}
    (spelled : FractionText fraction spelling)
    (stops : ∀ c ∈ rest.head?, Text.isDigit c = false ∧ c ≠ '.') :
    scanFraction (spelling ++ rest) = .ok (fraction, rest) := by
  cases spelled with
  | absent =>
      cases rest with
      | nil => rfl
      | cons c rest =>
          have notPoint : c ≠ '.' := (stops c rfl).2
          simp [scanFraction, notPoint]
  | digits run =>
      have stop : ∀ c ∈ rest.head?, Text.isDigit c = false := fun c head => (stops c head).1
      obtain ⟨c, tail, rfl, cDigit, digits⟩ := run.exists_cons
      simp [scanFraction, cDigit, takeWhile_run_append digits stop,
        dropWhile_run_append digits stop]

theorem eq_append_of_scanFraction {text fraction rest : Text}
    (scanned : scanFraction text = .ok (fraction, rest)) :
    ∃ spelling, text = spelling ++ rest ∧ FractionText fraction spelling := by
  unfold scanFraction at scanned
  split at scanned
  · rename_i tail
    split at scanned
    · contradiction
    · rename_i c digits
      split at scanned
      · rename_i cDigit
        cases scanned
        refine ⟨'.' :: (c :: digits).takeWhile Text.isDigit, by simp, .digits ?_⟩
        rw [List.takeWhile_cons_of_pos cDigit]
        exact isDigits_cons_takeWhile cDigit digits
      · contradiction
  · cases scanned
    exact ⟨[], rfl, .absent⟩

theorem exponentSign_append {negative : Bool} {sign digits : Text}
    (signed : SignText negative sign) (run : IsDigits digits) (rest : Text) :
    exponentSign (sign ++ (digits ++ rest)) = (negative, digits ++ rest) := by
  obtain ⟨c, tail, rfl, cDigit, -⟩ := run.exists_cons
  cases signed with
  | absent =>
      have notMinus : c ≠ '-' := by rintro rfl; contradiction
      have notPlus : c ≠ '+' := by rintro rfl; contradiction
      simp [exponentSign, notMinus, notPlus]
  | plus => rfl
  | minus => rfl

theorem eq_append_of_exponentSign (text : Text) :
    ∃ sign, SignText (exponentSign text).1 sign ∧ text = sign ++ (exponentSign text).2 := by
  unfold exponentSign
  split
  · exact ⟨['-'], .minus, rfl⟩
  · exact ⟨['+'], .plus, rfl⟩
  · exact ⟨[], .absent, rfl⟩

theorem scanExponent_append {exponent : Option (Bool × Text)} {spelling rest : Text}
    (spelled : ExponentText exponent spelling)
    (stops : ∀ c ∈ rest.head?, prolongs c = false) :
    scanExponent (spelling ++ rest) = .ok (exponent, rest) := by
  cases spelled with
  | absent =>
      cases rest with
      | nil => rfl
      | cons c rest =>
          have stop : prolongs c = false := stops c rfl
          have notLetter : ¬ (c = 'e' ∨ c = 'E') := by
            rintro (rfl | rfl) <;> contradiction
          simp [scanExponent, notLetter]
  | @digits letter negative sign digits isLetter signed run =>
      have stop : ∀ c ∈ rest.head?, Text.isDigit c = false := by
        intro c head
        have stop := stops c head
        simp only [prolongs, Bool.or_eq_false_iff] at stop
        exact stop.1.1.1
      have split := exponentSign_append signed run rest
      obtain ⟨c, tail, rfl, cDigit, taken⟩ := run.exists_cons
      rw [List.cons_append, List.append_assoc, scanExponent, if_pos isLetter, split]
      simp [cDigit, takeWhile_run_append taken stop, dropWhile_run_append taken stop]

theorem eq_append_of_scanExponent {text rest : Text} {exponent : Option (Bool × Text)}
    (scanned : scanExponent text = .ok (exponent, rest)) :
    ∃ spelling, text = spelling ++ rest ∧ ExponentText exponent spelling := by
  unfold scanExponent at scanned
  split at scanned
  · cases scanned
    exact ⟨[], rfl, .absent⟩
  · rename_i letter tail
    split at scanned
    · rename_i isLetter
      obtain ⟨sign, signed, tail_eq⟩ := eq_append_of_exponentSign tail
      dsimp only at scanned
      split at scanned
      · contradiction
      · rename_i c digits digits_eq
        split at scanned
        · rename_i cDigit
          cases scanned
          refine ⟨letter :: (sign ++ (exponentSign tail).2.takeWhile Text.isDigit), ?_,
            .digits isLetter signed ?_⟩
          · simpa using tail_eq
          · rw [digits_eq, List.takeWhile_cons_of_pos cDigit]
            exact isDigits_cons_takeWhile cDigit digits
        · contradiction
    · cases scanned
      exact ⟨[], rfl, .absent⟩

theorem isDigit_of_prolongs {c : Char} (stop : prolongs c = false) :
    Text.isDigit c = false ∧ c ≠ '.' := by
  simp only [prolongs, Bool.or_eq_false_iff, beq_eq_false_iff_ne] at stop
  exact ⟨stop.1.1.1, stop.1.1.2⟩

theorem stops_exponentText {exponent : Option (Bool × Text)} {spelling rest : Text}
    (spelled : ExponentText exponent spelling)
    (stops : ∀ c ∈ rest.head?, prolongs c = false) :
    ∀ c ∈ (spelling ++ rest).head?, Text.isDigit c = false ∧ c ≠ '.' := by
  cases spelled with
  | absent => exact fun c head => isDigit_of_prolongs (stops c head)
  | digits isLetter signed run =>
      intro c head
      cases head
      rcases isLetter with rfl | rfl <;> decide

theorem stops_fractionText {fraction spelling rest : Text}
    (spelled : FractionText fraction spelling)
    (stops : ∀ c ∈ rest.head?, Text.isDigit c = false ∧ c ≠ '.') :
    ∀ c ∈ (spelling ++ rest).head?, Text.isDigit c = false := by
  cases spelled with
  | absent => exact fun c head => (stops c head).1
  | digits run =>
      intro c head
      cases head
      decide

theorem scanUnsigned_append {negative : Bool} {whole fraction fractionText exponentText rest : Text}
    {exponent : Option (Bool × Text)} (isWhole : IsWhole whole)
    (fractionSpelled : FractionText fraction fractionText)
    (exponentSpelled : ExponentText exponent exponentText)
    (stops : ∀ c ∈ rest.head?, prolongs c = false) :
    scanUnsigned negative (whole ++ (fractionText ++ (exponentText ++ rest))) =
      .ok (⟨negative, whole, fraction, exponent⟩, rest) := by
  have afterFraction := stops_exponentText exponentSpelled stops
  have afterWhole := stops_fractionText fractionSpelled afterFraction
  have wholeScanned := scanWhole_append isWhole afterWhole
  have fractionScanned := scanFraction_append fractionSpelled afterFraction
  have exponentScanned := scanExponent_append exponentSpelled stops
  simp only [scanUnsigned, wholeScanned, fractionScanned, exponentScanned, bind, Except.bind]

theorem IsWhole.head_ne_minus {whole : Text} (isWhole : IsWhole whole) (rest : Text) :
    (whole ++ rest).head? ≠ some '-' := by
  obtain ⟨c, tail, rfl, digit⟩ := isWhole.exists_cons
  rintro ⟨⟩
  contradiction

/-- A numeral is scanned whole when nothing behind it prolongs it. -/
theorem scan_append {numeral : Numeral} {spelling rest : Text}
    (spelled : NumeralText numeral spelling) (stops : ∀ c ∈ rest.head?, prolongs c = false) :
    scan (spelling ++ rest) = .ok (numeral, rest) := by
  cases spelled with
  | @parts negative whole _ fractionText exponentText _ isWhole fractionSpelled exponentSpelled =>
      have scanned : scanUnsigned negative _ = .ok (⟨negative, _, _, _⟩, rest) :=
        scanUnsigned_append isWhole fractionSpelled exponentSpelled stops
      have notMinus := IsWhole.head_ne_minus isWhole (fractionText ++ (exponentText ++ rest))
      cases negative with
      | true => simpa [minusText, scan] using scanned
      | false =>
          simp only [minusText, Bool.false_eq_true, if_false, List.nil_append, List.append_assoc]
          unfold scan
          split
          · rename_i text_eq
            rw [text_eq] at notMinus
            simp at notMinus
          · exact scanned

theorem eq_append_of_scanUnsigned {negative : Bool} {text rest : Text} {numeral : Numeral}
    (scanned : scanUnsigned negative text = .ok (numeral, rest)) :
    ∃ spelling, text = spelling ++ rest ∧ NumeralText numeral (minusText negative ++ spelling) := by
  simp only [scanUnsigned, bind, Except.bind] at scanned
  split at scanned
  · contradiction
  · rename_i wholeScanned
    split at scanned
    · contradiction
    · rename_i fractionScanned
      split at scanned
      · contradiction
      · rename_i exponentScanned
        cases scanned
        obtain ⟨text_eq, isWhole⟩ := eq_append_of_scanWhole wholeScanned
        obtain ⟨fractionText, afterWhole_eq, fractionSpelled⟩ :=
          eq_append_of_scanFraction fractionScanned
        obtain ⟨exponentText, afterFraction_eq, exponentSpelled⟩ :=
          eq_append_of_scanExponent exponentScanned
        exact ⟨_, by rw [text_eq, afterWhole_eq, afterFraction_eq]; simp,
          .parts isWhole fractionSpelled exponentSpelled⟩

/-- What is scanned is the spelling of a numeral. -/
theorem eq_append_of_scan {text rest : Text} {numeral : Numeral}
    (scanned : scan text = .ok (numeral, rest)) :
    ∃ spelling, text = spelling ++ rest ∧ NumeralText numeral spelling := by
  unfold scan at scanned
  split at scanned
  · obtain ⟨spelling, rfl, spelled⟩ := eq_append_of_scanUnsigned scanned
    exact ⟨'-' :: spelling, rfl, spelled⟩
  · exact eq_append_of_scanUnsigned scanned

/-! ## Numbers -/

/-- Only the place of a fault depends on the text behind a numeral. -/
theorem toOption_double (numeral : Numeral) (rest : Text) :
    (numeral.double rest).toOption = (numeral.double []).toOption := by
  unfold double
  cases numeral.exponent with
  | none =>
      dsimp only
      split <;> rfl
  | some exponent =>
      rcases exponent with ⟨negative, digits⟩
      dsimp only
      cases excessExponent? 0 digits <;> dsimp only <;> split <;> rfl

theorem value_eq_ok_iff {numeral : Numeral} {rest : Text} {n : Number} :
    numeral.value rest = .ok n ↔ numeral.value [] = .ok n := by
  have toOption_map (result : Except Fault Binary64) :
      (result.map Number.double).toOption = result.toOption.map .double := by
    cases result <;> rfl
  simp only [← toOption_eq_some_iff]
  unfold value
  dsimp only
  split
  · rfl
  · split
    · rfl
    · rw [toOption_map, toOption_map, toOption_double numeral rest]

/-- A numeral is read whole when nothing behind it prolongs it, and only its value can
be at fault then. -/
theorem read_append {numeral : Numeral} {spelling rest : Text}
    (spelled : NumeralText numeral spelling) (stops : ∀ c ∈ rest.head?, prolongs c = false) :
    read (spelling ++ rest) = (numeral.value rest).map fun n => (n, rest) := by
  have scanned := scan_append spelled stops
  simp only [read, scanned, bind, Except.bind]
  cases numeral.value rest <;> rfl

/-- What is read is the spelling of a numeral that denotes the number. -/
theorem eq_append_of_read {text rest : Text} {n : Number} (read_eq : read text = .ok (n, rest)) :
    ∃ numeral spelling, text = spelling ++ rest ∧ NumeralText numeral spelling ∧
      numeral.value [] = .ok n := by
  simp only [read, bind, Except.bind] at read_eq
  split at read_eq
  · contradiction
  · rename_i scanned
    split at read_eq
    · contradiction
    · rename_i valued
      cases read_eq
      obtain ⟨spelling, text_eq, spelled⟩ := eq_append_of_scan scanned
      exact ⟨_, spelling, text_eq, spelled, value_eq_ok_iff.mp valued⟩

end Numeral

/-! ## Strings -/

theorem escapedChar?_eq_some_iff {letter c : Char} :
    escapedChar? letter = some c ↔ (letter, c) ∈ letterEscapes := by
  constructor
  · intro escape
    unfold escapedChar? at escape
    split at escape
    · rename_i same
      cases escape
      rcases same with rfl | rfl | rfl <;> simp [letterEscapes]
    · repeat' split at escape
      all_goals simp_all [letterEscapes, eq_comm]
  · simp only [letterEscapes, List.mem_cons, Prod.mk.injEq, List.not_mem_nil, or_false]
    rintro (⟨rfl, rfl⟩ | ⟨rfl, rfl⟩ | ⟨rfl, rfl⟩ | ⟨rfl, rfl⟩ | ⟨rfl, rfl⟩ | ⟨rfl, rfl⟩ |
      ⟨rfl, rfl⟩ | ⟨rfl, rfl⟩) <;> rfl

theorem letter_ne_u {letter c : Char} (escape : (letter, c) ∈ letterEscapes) : letter ≠ 'u' := by
  rintro rfl
  simp [letterEscapes] at escape

theorem isLowSurrogate_of_isHighSurrogate {unit : Nat}
    (isHigh : Text.isHighSurrogate unit = true) : Text.isLowSurrogate unit = false := by
  simp only [Text.isHighSurrogate, Text.isLowSurrogate, Bool.and_eq_true,
    Bool.and_eq_false_iff, decide_eq_true_eq, decide_eq_false_iff_not] at isHigh ⊢
  omega

theorem readString_char {c : Char} (notQuote : c ≠ '"') (notBackslash : c ≠ '\\')
    (printable : ¬ c.toNat < 0x20) (reversed rest : Text) :
    readString reversed (c :: rest) = readString (c :: reversed) rest := by
  rw [readString]
  · rw [if_neg printable]
  all_goals simp_all

theorem readString_letter {letter c : Char} (escape : (letter, c) ∈ letterEscapes)
    (reversed rest : Text) :
    readString reversed ('\\' :: letter :: rest) = readString (c :: reversed) rest := by
  have notU := letter_ne_u escape
  rw [readString]
  · rw [escapedChar?_eq_some_iff.mpr escape]
  all_goals simp_all

/-- A string is read up to its closing quote. -/
theorem readString_append {value spelling : Text} (spelled : StringText .strict value spelling)
    (reversed rest : Text) :
    readString reversed (spelling ++ '"' :: rest) = .ok (reversed.reverse ++ value, rest) := by
  induction spelled generalizing reversed with
  | nil => simp [readString]
  | @char c _ _ notQuote notBackslash control _ ih =>
      have printable : ¬ c.toNat < 0x20 := by
        intro low
        cases control low
      rw [List.cons_append, readString_char notQuote notBackslash printable, ih]
      simp
  | letter escape _ ih =>
      rw [List.cons_append, List.cons_append, readString_letter escape, ih]
      simp
  | unit denotes notHigh notLow _ ih =>
      simp [readString, denotes, notHigh, notLow, ih]
  | pair first isHigh second isLow _ ih =>
      have notLow := isLowSurrogate_of_isHighSurrogate isHigh
      simp [readString, first, notLow, isHigh, second, isLow, ih]

/-- What is read as a string is a spelling of it and the closing quote. -/
theorem eq_append_of_readString {reversed text value rest : Text}
    (read_eq : readString reversed text = .ok (value, rest)) :
    ∃ tail spelling, text = spelling ++ '"' :: rest ∧ StringText .strict tail spelling ∧
      value = reversed.reverse ++ tail := by
  fun_induction readString reversed text with
  | case2 =>
      cases read_eq
      exact ⟨[], [], rfl, .nil, by simp⟩
  | case6 reversed a b c d high first notLow isHigh e f g h rest' low second isLow ih =>
      obtain ⟨tail, spelling, rfl, spelled, rfl⟩ := ih read_eq
      exact ⟨_, _, rfl, .pair first isHigh second isLow spelled, by simp⟩
  | case9 reversed a b c d rest' unit denotes notLow notHigh ih =>
      obtain ⟨tail, spelling, rfl, spelled, rfl⟩ := ih read_eq
      exact ⟨_, _, rfl, .unit denotes (by simpa using notHigh) (by simpa using notLow) spelled,
        by simp⟩
  | case11 reversed letter rest' _ _ c escape ih =>
      obtain ⟨tail, spelling, rfl, spelled, rfl⟩ := ih read_eq
      exact ⟨_, _, rfl, .letter (escapedChar?_eq_some_iff.mp escape) spelled, by simp⟩
  | case15 reversed c rest' notQuote _ _ notEscape notLast printable ih =>
      have notBackslash : c ≠ '\\' := by
        intro backslash
        cases rest' with
        | nil => exact notLast backslash rfl
        | cons d rest' => exact notEscape d rest' backslash rfl
      obtain ⟨tail, spelling, rfl, spelled, rfl⟩ := ih read_eq
      exact ⟨_, _, rfl,
        .char notQuote notBackslash (fun low => absurd low printable) spelled, by simp⟩
  | _ => contradiction

/-! ## Words -/

theorem eq_append_of_readWord {word text rest : Text} (read_eq : readWord word text = .ok rest) :
    text = word ++ rest := by
  induction word generalizing text with
  | nil =>
      cases read_eq
      rfl
  | cons letter word ih =>
      cases text with
      | nil => contradiction
      | cons c text =>
          simp only [readWord] at read_eq
          split at read_eq
          · rename_i same
            rw [same, ih read_eq, List.cons_append]
          · contradiction

end LogIntake.Json
