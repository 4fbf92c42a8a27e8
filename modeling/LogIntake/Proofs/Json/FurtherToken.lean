import LogIntake.Proofs.Json.Documents
import LogIntake.Proofs.Json.Printing

/-!
# The token behind a document

Whether another token follows a document is found out without reading it: the text is
split at the next delimiter, and what stands before is compared with the words and the
grammar of numerals. The reader of values goes its own way, character by character, and
looks for the end of a value only when it has it.

Both come to the same end. Unless a container or a string is opened, a token is found
exactly where the reader would take one more value, or would refuse a number for nothing
but its size.
-/

namespace LogIntake.Json

/-! ## What the reader would take -/

/-- The reader takes one complete value from the front of a text. -/
def Readable (text : Text) : Prop :=
  ∃ value behind, Document.readDelimited text = .ok (value, behind)

/-- The reader refuses a numeral for nothing but the size of its number: in its place it
would take a zero. -/
def RefusedForSize (text : Text) : Prop :=
  ∃ before numeral spelling behind fault, text = before ++ (spelling ++ behind) ∧
    Blanks before ∧ NumeralText numeral spelling ∧
    Document.readDelimited text = .error fault ∧ fault.cause = .numberOutOfRange ∧
    Document.readDelimited (before ++ '0' :: behind) = .ok (.number (.integer 0), behind)

/-- The longest run without delimiters at the front of a text. -/
structure IsLongestRun (run text : Text) : Prop where
  isPrefix : run <+: text
  within : ∀ c ∈ run, Document.isDelimiter c = false
  longest : ∀ other, other <+: text → (∀ c ∈ other, Document.isDelimiter c = false) →
    other.length ≤ run.length

theorem isLongestRun_takeWhile (text : Text) :
    IsLongestRun (text.takeWhile fun c => !Document.isDelimiter c) text where
  isPrefix := List.takeWhile_prefix _
  within c member := by
    simpa using List.all_eq_true.mp List.all_takeWhile c member
  longest other isPrefix within := by
    obtain ⟨rest, rfl⟩ := isPrefix
    rw [List.takeWhile_append_of_pos fun c member => by simp [within c member],
      List.length_append]
    exact Nat.le_add_right _ _

theorem isLongestRun_iff {run text : Text} :
    IsLongestRun run text ↔ run = text.takeWhile fun c => !Document.isDelimiter c := by
  constructor
  · intro isRun
    have taken := isLongestRun_takeWhile text
    have length_eq := Nat.le_antisymm
      (taken.longest run isRun.isPrefix isRun.within)
      (isRun.longest _ taken.isPrefix taken.within)
    have isPrefix := List.prefix_of_prefix_length_le isRun.isPrefix taken.isPrefix
      (Nat.le_of_eq length_eq)
    exact isPrefix.eq_of_length length_eq
  · rintro rfl
    exact isLongestRun_takeWhile text

/-! ## Numerals that are too great -/

namespace Numeral

/-- Nothing but its size is ever wrong with a numeral. -/
theorem cause_of_double {numeral : Numeral} {rest : Text} {fault : Fault}
    (failed : numeral.double rest = .error fault) : fault.cause = .numberOutOfRange := by
  unfold double at failed
  dsimp only at failed
  split at failed
  · split at failed
    · contradiction
    · cases failed
      rfl
  · split at failed
    · split at failed
      · contradiction
      · cases failed
        rfl
    · split at failed
      · cases failed
        rfl
      · contradiction

theorem cause_of_value {numeral : Numeral} {rest : Text} {fault : Fault}
    (failed : numeral.value rest = .error fault) : fault.cause = .numberOutOfRange := by
  unfold value at failed
  dsimp only at failed
  split at failed
  · contradiction
  · split at failed
    · contradiction
    · cases double_eq : numeral.double rest with
      | ok x =>
          rw [double_eq] at failed
          contradiction
      | error cause =>
          rw [double_eq] at failed
          cases failed
          exact cause_of_double double_eq

end Numeral

/-- Where a numeral ends at a boundary, the reader has nothing to refuse but its value. -/
theorem readDelimited_numeral {numeral : Numeral} {before spelling behind : Text}
    (blank : Blanks before) (spelled : NumeralText numeral spelling)
    (boundary : AtBoundary behind) :
    Document.readDelimited (before ++ (spelling ++ behind)) =
      (numeral.value behind).map fun n => (.number n, behind) := by
  obtain ⟨nested?, read_eq⟩ :=
    exists_readNested_eq (before ++ (spelling ++ behind)).length depthLimit
  rw [Document.readDelimited, readValue, readNested_blanks_append blank, read_eq,
    readWith_numeral spelled boundary]
  cases numeral.value behind with
  | error fault => rfl
  | ok n =>
      have ends : Document.delimited (.number n) behind = .ok () :=
        Document.delimited_eq_ok_iff.mpr (.inr boundary)
      simp only [Except.map, bind, Except.bind, ends]

theorem readDelimited_zero {before behind : Text} (blank : Blanks before)
    (boundary : AtBoundary behind) :
    Document.readDelimited (before ++ '0' :: behind) = .ok (.number (.integer 0), behind) := by
  have fits : FitsNumeral 0 := ⟨by decide, by decide⟩
  have spelled : ValueText .strict depthLimit (.number (.integer 0)) ['0'] :=
    valueText_integer fits
  exact Document.readDelimited_eq_ok_iff.mpr ⟨before, _, rfl, blank, spelled, .inr boundary⟩

/-! ## Tokens and values -/

/-- A whole token is read, unless it is a numeral that is refused for its size. -/
theorem readable_of_tokenText {before token behind : Text} (blank : Blanks before)
    (isToken : TokenText token) (boundary : AtBoundary behind) :
    Readable (before ++ (token ++ behind)) ∨ RefusedForSize (before ++ (token ++ behind)) := by
  have readable {value : Json} (spelled : ValueText .strict depthLimit value token) :
      Readable (before ++ (token ++ behind)) :=
    ⟨value, behind, Document.readDelimited_eq_ok_iff.mpr
      ⟨before, token, rfl, blank, spelled, .inr boundary⟩⟩
  rcases isToken with rfl | rfl | rfl | ⟨numeral, spelled⟩
  · exact .inl (readable .trueWord)
  · exact .inl (readable .falseWord)
  · exact .inl (readable .nullWord)
  · have read_eq := readDelimited_numeral blank spelled boundary
    cases value_eq : numeral.value behind with
    | ok n =>
        rw [value_eq] at read_eq
        exact .inl ⟨_, _, read_eq⟩
    | error fault =>
        rw [value_eq] at read_eq
        exact .inr ⟨before, numeral, token, behind, fault, rfl, blank, spelled, read_eq,
          Numeral.cause_of_value value_eq, readDelimited_zero blank boundary⟩

/-- A value that is no container and no string is spelled by a whole token. -/
theorem tokenText_of_valueText {dialect : Dialect} {depth : Nat} {value : Json} {spelling : Text}
    (spelled : ValueText dialect depth value spelling)
    (scalar : Document.isSelfDelimiting value = false) : TokenText spelling := by
  cases spelled with
  | nullWord => exact .inr (.inr (.inl rfl))
  | trueWord => exact .inl rfl
  | falseWord => exact .inr (.inl rfl)
  | number spelled _ => exact .inr (.inr (.inr ⟨_, spelled⟩))
  | _ => contradiction

/-- The spelling of a container or a string opens it. -/
theorem opens_of_valueText {dialect : Dialect} {depth : Nat} {value : Json} {spelling : Text}
    (spelled : ValueText dialect depth value spelling)
    (selfDelimiting : Document.isSelfDelimiting value = true) :
    ∃ c rest, spelling = c :: rest ∧ (c = '\x7b' ∨ c = '[' ∨ c = '"') := by
  cases spelled with
  | string _ => exact ⟨_, _, rfl, .inr (.inr rfl)⟩
  | emptyArray _ => exact ⟨_, _, rfl, .inr (.inl rfl)⟩
  | array _ _ _ _ => exact ⟨_, _, rfl, .inr (.inl rfl)⟩
  | emptyObject _ => exact ⟨_, _, rfl, .inl rfl⟩
  | object _ _ _ _ _ => exact ⟨_, _, rfl, .inl rfl⟩
  | _ => contradiction

theorem skipBlanks_of_opening {before rest : Text} {c : Char} (blank : Blanks before)
    (opens : c = '\x7b' ∨ c = '[' ∨ c = '"') :
    skipBlanks (before ++ c :: rest) = c :: rest := by
  rw [skipBlanks_append blank]
  apply skipBlanks_eq_self
  rcases opens with rfl | rfl | rfl <;> rfl

/-- Nothing is opened at the front of a text, behind blanks. -/
def OpensNothing (text : Text) : Prop :=
  ∀ c ∈ (skipBlanks text).head?, ¬ (c = '\x7b' ∨ c = '[' ∨ c = '"')

/-- What the reader takes where nothing is opened is a whole token. -/
theorem continues_of_readable {text : Text} (opensNothing : OpensNothing text)
    (readable : Readable text) : Continues text true := by
  obtain ⟨value, behind, read_eq⟩ := readable
  obtain ⟨before, spelling, rfl, blank, spelled, ends⟩ :=
    Document.readDelimited_eq_ok_iff.mp read_eq
  cases selfDelimiting : Document.isSelfDelimiting value with
  | true =>
      obtain ⟨c, tail, rfl, opens⟩ := opens_of_valueText spelled selfDelimiting
      refine absurd opens (opensNothing c ?_)
      rw [List.cons_append, skipBlanks_of_opening blank opens]
      rfl
  | false =>
      have boundary : AtBoundary behind := ends.resolve_left (by simp [selfDelimiting])
      exact .token blank (.whole (tokenText_of_valueText spelled selfDelimiting) boundary)

theorem continues_of_refusedForSize {text : Text} (refused : RefusedForSize text) :
    Continues text true := by
  obtain ⟨before, numeral, spelling, behind, fault, rfl, blank, spelled, -, -, zero_eq⟩ := refused
  -- the reader has checked the boundary behind the zero
  obtain ⟨_, _, -, -, -, ends⟩ := Document.readDelimited_eq_ok_iff.mp zero_eq
  have boundary : AtBoundary behind := ends.resolve_left (by simp [Document.isSelfDelimiting])
  exact .token blank (.whole (.inr (.inr (.inr ⟨numeral, spelled⟩))) boundary)

/-- Where nothing is opened, a text goes on with a token exactly if the reader would take
a value, or would refuse a number for its size. -/
theorem continues_true_iff {text : Text} (opensNothing : OpensNothing text) :
    Continues text true ↔ Readable text ∨ RefusedForSize text := by
  constructor
  · rintro (_ | ⟨blank, starts⟩)
    cases starts with
    | opening opens =>
        refine absurd opens (opensNothing _ ?_)
        rw [skipBlanks_of_opening blank opens]
        rfl
    | whole isToken boundary => exact readable_of_tokenText blank isToken boundary
  · rintro (readable | refused)
    · exact continues_of_readable opensNothing readable
    · exact continues_of_refusedForSize refused

theorem continues_false_iff {text : Text} : Continues text false ↔ Blanks text :=
  ⟨fun continues => by cases continues; assumption, .ends⟩

/-! ## The search for a further token -/

theorem startsToken_iff {c : Char} :
    Document.startsToken c = true ↔ c ∈ ['t', 'f', 'n', '-'] ∨ Text.isDigit c = true := by
  simp [Document.startsToken, or_assoc]

/-- A token is at fault when it starts like one and is none. -/
theorem furtherToken_eq_invalidToken_iff {text run : Text} :
    Document.furtherToken text = .error (.invalidToken run) ↔
      ∃ c tail, skipBlanks text = c :: tail ∧ Document.startsToken c = true ∧
        Document.furtherToken text ≠ .ok true ∧
        run = (c :: tail).takeWhile fun c => !Document.isDelimiter c := by
  unfold Document.furtherToken
  cases skipBlanks text with
  | nil => simp
  | cons c tail =>
      by_cases opens : c = '\x7b' ∨ c = '[' ∨ c = '"'
      · simp [opens]
      · simp only [if_neg opens]
        split
        · rename_i starts
          split
          · simp
          · constructor
            · rintro ⟨⟩
              exact ⟨c, tail, rfl, starts, nofun, rfl⟩
            · rintro ⟨_, _, ⟨⟩, -, -, rfl⟩
              rfl
        · rename_i other
          constructor
          · exact nofun
          · rintro ⟨_, _, ⟨⟩, starts, -⟩
            exact absurd starts other

/-- A character is at fault when nothing starts with it. -/
theorem furtherToken_eq_trailingGarbage_iff {text : Text} {found : Char}
    (opensNothing : OpensNothing text) :
    Document.furtherToken text = .error (.trailingGarbage found) ↔
      ∃ tail, skipBlanks text = found :: tail ∧ Document.startsToken found = false := by
  unfold OpensNothing at opensNothing
  unfold Document.furtherToken
  cases skipped : skipBlanks text with
  | nil => simp
  | cons c tail =>
      have notOpening : ¬ (c = '\x7b' ∨ c = '[' ∨ c = '"') :=
        opensNothing c (by rw [skipped]; rfl)
      simp only [if_neg notOpening]
      split
      · rename_i starts
        constructor
        · intro garbage
          split at garbage <;> cases garbage
        · rintro ⟨_, ⟨⟩, other⟩
          simp [starts] at other
      · rename_i other
        constructor
        · rintro ⟨⟩
          exact ⟨tail, rfl, by simpa using other⟩
        · rintro ⟨_, ⟨⟩, -⟩
          rfl

/-- The search for a further token agrees with the reader of values. Opening characters
are tokens whatever follows them. Behind anything else nothing is found exactly where
there are only blanks, and a token exactly where the reader would take one more value or
would refuse a number for its size alone. Otherwise the longest run up to a delimiter is
at fault if it starts like a word or a numeral, and its first character if not. -/
theorem furtherToken_agrees_with_reader (text : Text) :
    (∀ c tail, skipBlanks text = c :: tail → (c = '\x7b' ∨ c = '[' ∨ c = '"') →
        Document.furtherToken text = .ok true) ∧
      (OpensNothing text →
        (Document.furtherToken text = .ok false ↔ Blanks text) ∧
        (Document.furtherToken text = .ok true ↔ Readable text ∨ RefusedForSize text) ∧
        (∀ run, Document.furtherToken text = .error (.invalidToken run) ↔
          ∃ c tail, skipBlanks text = c :: tail ∧
            (c ∈ ['t', 'f', 'n', '-'] ∨ Text.isDigit c = true) ∧
            ¬ (Readable text ∨ RefusedForSize text) ∧ IsLongestRun run (c :: tail)) ∧
        ∀ found, Document.furtherToken text = .error (.trailingGarbage found) ↔
          ∃ tail, skipBlanks text = found :: tail ∧
            ¬ (found ∈ ['t', 'f', 'n', '-'] ∨ Text.isDigit found = true)) := by
  constructor
  · intro c tail skipped opens
    rw [Document.furtherToken, skipped]
    exact if_pos opens
  · intro opensNothing
    have found_iff : Document.furtherToken text = .ok true ↔ Readable text ∨ RefusedForSize text :=
      furtherToken_eq_ok_iff.trans (continues_true_iff opensNothing)
    refine ⟨furtherToken_eq_ok_iff.trans continues_false_iff, found_iff, fun run => ?_,
      fun found => ?_⟩
    · simp only [furtherToken_eq_invalidToken_iff, startsToken_iff, isLongestRun_iff, ← found_iff]
    · rw [furtherToken_eq_trailingGarbage_iff opensNothing]
      simp only [← startsToken_iff, Bool.not_eq_true]

/-- A numeral beyond all doubles, behind a blank and in front of a bracket. -/
def wideText : Text :=
  " 1e400]".toList

/-- The reader refuses the wide numeral for its size, and yet it counts as a token. -/
theorem furtherToken_wideText :
    OpensNothing wideText ∧ Document.furtherToken wideText = .ok true ∧ ¬ Readable wideText ∧
      RefusedForSize wideText := by
  have opensNothing : OpensNothing wideText := by
    intro c head
    cases head
    decide
  have found : Document.furtherToken wideText = .ok true :=
    toOption_eq_some_iff.mp (by decide +kernel)
  have notReadable : ¬ Readable wideText := by
    rintro ⟨value, behind, read_eq⟩
    have refused : (Document.readDelimited wideText).toOption.isNone = true := by decide +kernel
    simp [read_eq, Except.toOption] at refused
  obtain ⟨-, agrees⟩ := furtherToken_agrees_with_reader wideText
  exact ⟨opensNothing, found, notReadable,
    ((agrees opensNothing).2.1.mp found).resolve_left notReadable⟩

end LogIntake.Json
