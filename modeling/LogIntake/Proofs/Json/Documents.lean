import LogIntake.Proofs.Json.Commas
import LogIntake.Proofs.Json.NumeralWalk
import LogIntake.Proofs.Json.Unmending

/-!
# Which texts have a first document

A text has a first document exactly when it starts with a tolerant spelling of a
value and goes on in a way that is no fault. What stands behind the first value is
mended too, but this changes neither the boundary there nor the token that follows.
-/

namespace LogIntake.Json

/-! ## Further tokens -/

/-- The characters of a token end at a boundary. -/
theorem takeWhile_undivided {token rest : Text} (undivided : Undivided token)
    (boundary : AtBoundary rest) :
    (token ++ rest).takeWhile (fun c => !Document.isDelimiter c) = token := by
  apply takeWhile_run_append (fun c member => by simp [undivided.2 c member])
  intro c head
  simp [boundary c head]

theorem isToken_iff {token : Text} : Document.isToken token = true ↔ TokenText token := by
  simp only [Document.isToken, TokenText, Bool.or_eq_true, beq_iff_eq, isNumeral_iff, or_assoc]

theorem TokenText.undivided {token : Text} (isToken : TokenText token) : Undivided token := by
  rcases isToken with rfl | rfl | rfl | ⟨numeral, spelled⟩
  · exact undivided_true
  · exact undivided_false
  · exact undivided_null
  · exact spelled.undivided

theorem TokenText.exists_cons {token : Text} (isToken : TokenText token) :
    ∃ c rest, token = c :: rest ∧ Document.startsToken c = true := by
  rcases isToken with rfl | rfl | rfl | ⟨numeral, spelled⟩
  · exact ⟨'t', _, rfl, rfl⟩
  · exact ⟨'f', _, rfl, rfl⟩
  · exact ⟨'n', _, rfl, rfl⟩
  · obtain ⟨c, rest, rfl, starts⟩ := spelled.exists_cons
    refine ⟨c, rest, rfl, ?_⟩
    rcases starts with rfl | digit
    · rfl
    · simp [Document.startsToken, digit]

theorem furtherToken_blanks_append {blanks : Text} (blank : Blanks blanks) (rest : Text) :
    Document.furtherToken (blanks ++ rest) = Document.furtherToken rest := by
  simp only [Document.furtherToken, skipBlanks_append blank]

theorem furtherToken_of_startsToken {text : Text} (starts : StartsToken text) :
    Document.furtherToken text = .ok true := by
  cases starts with
  | @opening c rest opens =>
      have notBlank : isBlank c = false := by
        rcases opens with rfl | rfl | rfl <;> rfl
      simp [Document.furtherToken, skipBlanks_eq_self notBlank, opens]
  | @whole token rest isToken boundary =>
      have taken := takeWhile_undivided isToken.undivided boundary
      have complete := isToken_iff.mpr isToken
      obtain ⟨c, letters, rfl, starts⟩ := isToken.exists_cons
      have within := isToken.undivided.2 c List.mem_cons_self
      simp only [Document.isDelimiter, Bool.or_eq_false_iff, beq_eq_false_iff_ne] at within
      have notOpening : ¬ (c = '\x7b' ∨ c = '[' ∨ c = '"') := by
        simp [within]
      have notBlank : isBlank c = false := by
        simp [within]
      rw [List.cons_append] at taken ⊢
      simp only [Document.furtherToken, skipBlanks_eq_self notBlank, if_neg notOpening, starts,
        if_true, taken, complete]

/-- A text starts with a token when its characters up to the next delimiter are one. -/
theorem startsToken_of_isToken {text : Text}
    (isToken : Document.isToken (text.takeWhile fun c => !Document.isDelimiter c) = true) :
    StartsToken text := by
  have boundary : AtBoundary (text.dropWhile fun c => !Document.isDelimiter c) := by
    intro d head
    simpa using head?_dropWhile_stops _ text d head
  rw [← List.takeWhile_append_dropWhile (p := fun c => !Document.isDelimiter c) (l := text)]
  exact .whole (isToken_iff.mp isToken) boundary

/-- The check of what follows a value finds a further token, or nothing but blanks. -/
theorem furtherToken_eq_ok_iff {rest : Text} {isFollowed : Bool} :
    Document.furtherToken rest = .ok isFollowed ↔ Continues rest isFollowed := by
  constructor
  · intro further
    obtain ⟨blanks, blank, rest_eq⟩ := exists_blanks_append_skipBlanks rest
    rw [rest_eq]
    unfold Document.furtherToken at further
    split at further
    · rename_i skipped
      cases further
      rw [skipped, List.append_nil]
      exact .ends blank
    · rename_i c tail skipped
      rw [skipped]
      split at further
      · rename_i opens
        cases further
        exact .token blank (.opening opens)
      · split at further
        · dsimp only at further
          split at further
          · rename_i isToken
            cases further
            exact .token blank (startsToken_of_isToken isToken)
          · contradiction
        · contradiction
  · rintro (⟨blank⟩ | ⟨blank, starts⟩)
    · simp [Document.furtherToken, skipBlanks_of_blanks blank]
    · rw [furtherToken_blanks_append blank]
      exact furtherToken_of_startsToken starts

/-! ## Mending behind the first value -/

/-- Mending keeps a boundary, and makes none. -/
theorem atBoundary_mendedFrom_iff {last : Option Char} {text : Text} :
    AtBoundary (mendedFrom (.outside last) text) ↔ AtBoundary text := by
  cases text with
  | nil => rfl
  | cons d tail =>
      rcases mendedFrom_outside_cases last d tail with
        ⟨_, step⟩ | ⟨blanks, closing, rest, rfl, _, _, blank, closes, step⟩ | ⟨_, step⟩
      · rw [step, atBoundary_cons, atBoundary_cons]
      · rw [step, atBoundary_cons]
        constructor
        · intro _
          rfl
        · intro _
          exact atBoundary_blanks_append blank (atBoundary_cons.mpr closes.isDelimiter)
      · rw [step, atBoundary_cons, atBoundary_cons]

theorem endsBefore_mendedFrom_iff {value : Json} {last : Option Char} {text : Text} :
    EndsBefore value (mendedFrom (.outside last) text) ↔ EndsBefore value text := by
  rw [EndsBefore, EndsBefore, atBoundary_mendedFrom_iff]

/-- Mending leaves nothing but blanks only where there was nothing else. -/
theorem blanks_of_mendedFrom {last : Option Char} {text : Text}
    (blank : Blanks (mendedFrom (.outside last) text)) : Blanks text := by
  induction text with
  | nil => exact blanks_nil
  | cons d tail ih =>
      rcases mendedFrom_outside_cases last d tail with
        ⟨dBlank, step⟩ | ⟨_, closing, _, _, _, _, _, closes, step⟩ | ⟨dNotBlank, step⟩
      · rw [step, blanks_cons] at blank
        exact blanks_cons.mpr ⟨dBlank, ih blank.2⟩
      · rw [step, blanks_append, blanks_cons, closes.isBlank] at blank
        exact absurd blank.2.1 Bool.false_ne_true
      · rw [step, blanks_cons, dNotBlank] at blank
        exact absurd blank.1 Bool.false_ne_true

/-- A token in a mended text stands behind the same blanks in the original. -/
theorem exists_startsToken_of_mendedFrom_eq {last : Option Char} {text blanks rest : Text}
    (blank : Blanks blanks) (starts : StartsToken rest)
    (mended_eq : mendedFrom (.outside last) text = blanks ++ rest) :
    ∃ original, StartsToken original ∧ text = blanks ++ original := by
  cases starts with
  | @opening c rest opens =>
      have copied : isBlank c = false ∧ ¬ Closes c := by
        unfold Closes
        rcases opens with rfl | rfl | rfl <;> decide
      obtain ⟨tail, rfl, -⟩ := exists_of_mendedFrom_eq blank copied.1 copied.2 mended_eq
      exact ⟨_, .opening opens, rfl⟩
  | @whole token rest isToken boundary =>
      obtain ⟨c, letters, token_eq, -⟩ := isToken.exists_cons
      have within := isToken.undivided.2 c (by simp [token_eq])
      have notBlank : isBlank c = false := by
        simp only [Document.isDelimiter, Bool.or_eq_false_iff] at within
        simp [within]
      have written_eq := mended_eq
      rw [token_eq, List.cons_append] at written_eq
      obtain ⟨_, rfl, copied, -⟩ := exists_of_mendedFrom_eq blank notBlank
        (not_closes_of_isDelimiter within) written_eq
      rw [← List.cons_append, ← token_eq] at copied
      obtain ⟨_, behind, behind_eq, rfl, rfl⟩ := comesFrom_of_undivided isToken.undivided copied
      rw [behind_eq]
      exact ⟨_, .whole isToken (atBoundary_mendedFrom_iff.mp boundary), rfl⟩

theorem StartsToken.mendedFrom {text : Text} (starts : StartsToken text) (last : Option Char) :
    StartsToken (mendedFrom (.outside last) text) := by
  cases starts with
  | @opening c rest opens =>
      rcases opens with rfl | rfl | rfl
      · rw [mendedFrom_plain rfl]
        exact .opening (.inl rfl)
      · rw [mendedFrom_plain rfl]
        exact .opening (.inr (.inl rfl))
      · rw [mendedFrom_quote]
        exact .opening (.inr (.inr rfl))
  | @whole token rest isToken boundary =>
      rw [mendsTo_of_undivided isToken.undivided]
      exact .whole isToken (atBoundary_mendedFrom_iff.mpr boundary)

/-- Mending changes nothing about what follows a value. -/
theorem continues_mendedFrom_iff {last : Option Char} {text : Text} {isFollowed : Bool} :
    Continues (mendedFrom (.outside last) text) isFollowed ↔ Continues text isFollowed := by
  constructor
  · intro continues
    generalize mended_eq : mendedFrom (.outside last) text = mended at continues
    cases continues with
    | ends blank =>
        rw [← mended_eq] at blank
        exact .ends (blanks_of_mendedFrom blank)
    | token blank starts =>
        obtain ⟨original, originalStarts, rfl⟩ :=
          exists_startsToken_of_mendedFrom_eq blank starts mended_eq
        exact .token blank originalStarts
  · rintro (⟨blank⟩ | ⟨blank, starts⟩)
    · have mended_eq := mendedFrom_blanks_append blank last []
      rw [List.append_nil, mendedFrom_nil, List.append_nil] at mended_eq
      rw [mended_eq]
      exact .ends blank
    · rw [mendedFrom_blanks_append blank]
      exact .token blank (starts.mendedFrom last)

/-! ## The first document -/

namespace Document

/-- The first value that is spelled in a text, and what follows it. -/
def Begins (dialect : Dialect) (text : Text) (document : Document) : Prop :=
  ∃ before spelling rest, text = before ++ (spelling ++ rest) ∧ Blanks before ∧
    ValueText dialect depthLimit document.value spelling ∧ document.value ≠ .null ∧
    EndsBefore document.value rest ∧ Continues rest document.isFollowed

theorem delimited_eq_ok_iff {value : Json} {rest : Text} :
    delimited value rest = .ok () ↔ EndsBefore value rest := by
  cases rest with
  | nil => simp [delimited, EndsBefore, atBoundary_nil]
  | cons c rest =>
      simp only [delimited, EndsBefore, atBoundary_cons, Bool.or_eq_true]
      split
      · rename_i ends
        exact ⟨fun _ => ends, fun _ => rfl⟩
      · rename_i runsOn
        exact ⟨nofun, fun ends => absurd ends runsOn⟩

theorem readDelimited_eq_ok_iff {text rest : Text} {value : Json} :
    readDelimited text = .ok (value, rest) ↔
      ∃ before spelling, text = before ++ (spelling ++ rest) ∧ Blanks before ∧
        ValueText .strict depthLimit value spelling ∧ EndsBefore value rest := by
  constructor
  · intro read_eq
    unfold readDelimited at read_eq
    cases value_eq : readValue text with
    | error fault =>
        rw [value_eq] at read_eq
        contradiction
    | ok result =>
        rcases result with ⟨value', rest'⟩
        simp only [value_eq, bind, Except.bind] at read_eq
        split at read_eq
        · contradiction
        · rename_i ends
          cases read_eq
          obtain ⟨before, spelling, text_eq, blank, spelled⟩ := exists_of_readValue value_eq
          exact ⟨before, spelling, text_eq, blank, spelled, delimited_eq_ok_iff.mp ends⟩
  · rintro ⟨before, spelling, rfl, blank, spelled, ends⟩
    simp only [readDelimited, readValue_append blank spelled ends, bind, Except.bind,
      delimited_eq_ok_iff.mpr ends]

/-- A mended text has the document that it begins with. -/
theorem ofMended_eq_ok_iff {text : Text} {document : Document} :
    ofMended text = .ok document ↔ Begins .strict text document := by
  constructor
  · intro mended_eq
    unfold ofMended at mended_eq
    split at mended_eq
    · contradiction
    · split at mended_eq
      · contradiction
      · contradiction
      · rename_i value rest notNull read_eq
        obtain ⟨before, spelling, text_eq, blank, spelled, ends⟩ :=
          readDelimited_eq_ok_iff.mp read_eq
        cases further_eq : furtherToken rest with
        | error error =>
            rw [further_eq] at mended_eq
            contradiction
        | ok isFollowed =>
            rw [further_eq] at mended_eq
            cases mended_eq
            refine ⟨before, spelling, rest, text_eq, blank, spelled, ?_, ends,
              furtherToken_eq_ok_iff.mp further_eq⟩
            rintro rfl
            exact notNull rfl
  · rintro ⟨before, spelling, rest, text_eq, blank, spelled, notNull, ends, continues⟩
    have read_eq := readDelimited_eq_ok_iff.mpr ⟨before, spelling, text_eq, blank, spelled, ends⟩
    have nonempty : (skipBlanks text).isEmpty = false := by
      obtain ⟨c, tail, spelling_eq, starts⟩ := spelled.exists_cons
      rw [text_eq, skipBlanks_append blank, spelling_eq, List.cons_append,
        skipBlanks_eq_self (isBlank_of_startsValue starts)]
      rfl
    simp only [ofMended, nonempty, read_eq]
    cases value_eq : document.value with
    | null => contradiction
    | _ =>
        rw [← value_eq, furtherToken_eq_ok_iff.mpr continues]
        rfl

/-- A text begins with the document that its mended form begins with. -/
theorem begins_mend_iff {text : Text} {document : Document} :
    Begins .strict (mend text) document ↔ Begins .tolerant text document := by
  constructor
  · rintro ⟨before, written, rest, mended_eq, blank, spelled, notNull, ends, continues⟩
    let part : Part Json := ⟨before, document.value, written, []⟩
    have traceable : part.Traceable (ValueText .tolerant depthLimit) :=
      ⟨⟨blank, blanks_nil⟩, spelled.exists_cons, spelled.comesFrom⟩
    obtain ⟨spelling, behind, text_eq, spelled, rfl⟩ := traceable.exists_spelling mended_eq
    exact ⟨before, spelling, behind, text_eq, blank, spelled, notNull,
      endsBefore_mendedFrom_iff.mp ends, continues_mendedFrom_iff.mp continues⟩
  · rintro ⟨before, spelling, rest, rfl, blank, spelled, notNull, ends, continues⟩
    obtain ⟨strict, mends⟩ := spelled.mended
    refine ⟨before, mend spelling, mendedFrom (.outside spelling.getLast?) rest, ?_, blank, strict,
      notNull, endsBefore_mendedFrom_iff.mpr ends, continues_mendedFrom_iff.mpr continues⟩
    rw [mend_eq, mendedFrom_blanks_append blank, mends]

/-- A text has the first document that it begins with, up to a byte order mark. -/
theorem ofText_eq_ok_iff {text : Text} {document : Document} :
    ofText text = .ok document ↔
      Begins .tolerant (text.dropLeading byteOrderMark) document := by
  rw [ofText, ofMended_eq_ok_iff, begins_mend_iff]

end Document

/-! ## Texts that the strict reader accepts -/

theorem StringText.tolerant {value spelling : Text} (spelled : StringText .strict value spelling) :
    StringText .tolerant value spelling := by
  induction spelled with
  | nil => exact .nil
  | char notQuote notBackslash _ _ ih => exact .char notQuote notBackslash (fun _ => rfl) ih
  | letter escape _ ih => exact .letter escape ih
  | unit denotes notHigh notLow _ ih => exact .unit denotes notHigh notLow ih
  | pair first isHigh second isLow _ ih => exact .pair first isHigh second isLow ih

/-- Every strict spelling is a tolerant one. -/
theorem ValueText.tolerant {depth : Nat} {value : Json} {spelling : Text}
    (spelled : ValueText .strict depth value spelling) :
    ValueText .tolerant depth value spelling := by
  induction spelled with
  | nullWord => exact .nullWord
  | trueWord => exact .trueWord
  | falseWord => exact .falseWord
  | number spelled denotes => exact .number spelled denotes
  | string spelled => exact .string spelled.tolerant
  | emptyArray blank => exact .emptyArray blank
  | emptyObject blank => exact .emptyObject blank
  | array nonempty padded _ ends ih =>
      exact .array nonempty padded ih (.blanks ends.blanks_of_strict)
  | object nonempty padded keys _ ends ih =>
      exact .object nonempty padded (fun entry member => (keys entry member).tolerant) ih
        (.blanks ends.blanks_of_strict)

theorem exists_of_ofText {text : Text} {value : Json} (read_eq : Json.ofText text = .ok value) :
    ∃ before spelling after, text = before ++ (spelling ++ after) ∧ Blanks before ∧
      ValueText .strict depthLimit value spelling ∧ Blanks after := by
  unfold Json.ofText at read_eq
  cases value_eq : readValue text with
  | error fault =>
      rw [value_eq] at read_eq
      contradiction
  | ok result =>
      rcases result with ⟨value', after⟩
      simp only [value_eq, bind, Except.bind, endOfText] at read_eq
      obtain ⟨before, spelling, text_eq, blank, spelled⟩ := exists_of_readValue value_eq
      obtain ⟨blanks, afterBlank, after_eq⟩ := exists_blanks_append_skipBlanks after
      cases skipped : skipBlanks after with
      | nil =>
          rw [skipped] at read_eq after_eq
          cases read_eq
          rw [List.append_nil] at after_eq
          exact ⟨before, spelling, after, text_eq, blank, spelled, after_eq ▸ afterBlank⟩
      | cons c rest =>
          rw [skipped] at read_eq
          contradiction

/-- A text that starts with blanks and a value has no byte order mark to drop. -/
theorem dropLeading_byteOrderMark {dialect : Dialect} {depth : Nat} {value : Json}
    {before spelling : Text} (blank : Blanks before)
    (spelled : ValueText dialect depth value spelling) (rest : Text) :
    Text.dropLeading Document.byteOrderMark (before ++ (spelling ++ rest)) =
      before ++ (spelling ++ rest) := by
  have kept {c : Char} (text : Text) (other : c ≠ Document.byteOrderMark) :
      Text.dropLeading Document.byteOrderMark (c :: text) = c :: text := by
    simp [Text.dropLeading, other]
  cases before with
  | nil =>
      obtain ⟨c, tail, rfl, starts⟩ := spelled.exists_cons
      apply kept _
      rintro rfl
      contradiction
  | cons c before =>
      have cBlank := (blanks_cons.mp blank).1
      apply kept _
      rintro rfl
      contradiction

/-- A text that holds one value, read strictly, has this value as its first
document. -/
theorem Document.ofText_of_strict {text : Text} {value : Json}
    (read_eq : Json.ofText text = .ok value) (notNull : value ≠ .null) :
    Document.ofText text = .ok ⟨value, false⟩ := by
  obtain ⟨before, spelling, after, rfl, blank, spelled, afterBlank⟩ := exists_of_ofText read_eq
  rw [ofText_eq_ok_iff, dropLeading_byteOrderMark blank spelled]
  exact ⟨before, spelling, after, rfl, blank, spelled.tolerant, notNull,
    .inr (atBoundary_of_blanks afterBlank), .ends afterBlank⟩

/-! ## Texts behind a document -/

theorem Continues.blanks {text : Text} (continues : Continues text false) : Blanks text := by
  cases continues with
  | ends blank => exact blank

theorem dropLeading_append {c : Char} {text : Text} (nonempty : text ≠ []) (rest : Text) :
    Text.dropLeading c (text ++ rest) = text.dropLeading c ++ rest := by
  cases text with
  | nil => contradiction
  | cons d text =>
      simp only [List.cons_append, Text.dropLeading]
      split <;> rfl

/-- What stands behind a document that ends by itself changes nothing about its
value. -/
theorem Document.ofText_append {text blanks rest : Text} {value : Json}
    (alone : ofText text = .ok ⟨value, false⟩) (ends : isSelfDelimiting value = true)
    (blank : Blanks blanks) (starts : StartsToken rest) :
    ofText (text ++ (blanks ++ rest)) = .ok ⟨value, true⟩ := by
  obtain ⟨before, spelling, after, text_eq, beforeBlank, spelled, notNull, -, continues⟩ :=
    ofText_eq_ok_iff.mp alone
  have nonempty : text ≠ [] := by
    rintro rfl
    exact absurd text_eq.symm (by simp [Text.dropLeading, spelled.ne_nil])
  rw [ofText_eq_ok_iff, dropLeading_append nonempty, text_eq]
  refine ⟨before, spelling, (after ++ blanks) ++ rest, by simp, beforeBlank, spelled, notNull,
    .inl ends, ?_⟩
  exact .token (blanks_append.mpr ⟨continues.blanks, blank⟩) starts

/-! ## The tolerant dialect -/

/-- A comma that stands outside strings without a value in front of it is no part of
the first document: the document is complete before it. -/
theorem Document.exists_of_ofText_of_comma {text front back : Text} {document : Document}
    (comma : text.dropLeading byteOrderMark = front ++ ',' :: back)
    (outside : LeavesStrings front) (noValue : ¬ EndsWithValue front)
    (accepted : ofText text = .ok document) :
    ∃ before spelling behind, front = before ++ (spelling ++ behind) ∧ Blanks before ∧
      ValueText .tolerant depthLimit document.value spelling := by
  rcases ofText_eq_ok_iff.mp accepted with ⟨before, spelling, rest, text_eq, blank, spelled, -⟩
  rw [comma, ← List.append_assoc] at text_eq
  rcases List.append_eq_append_iff.mp text_eq with
    ⟨behind, start_eq, comma_eq⟩ | ⟨behind, front_eq, -⟩
  · cases behind with
    | nil => exact ⟨before, spelling, [], by simpa using start_eq.symm, blank, spelled⟩
    | cons c behind =>
        cases comma_eq
        have orderly := (orderly_blanks blank).append spelled.orderly
        rw [start_eq] at orderly
        exact absurd (orderly.endsWithValue_of_comma outside) noValue
  · exact ⟨before, spelling, behind, by rw [front_eq, List.append_assoc], blank, spelled⟩

/-- A text has a first document exactly when it is blanks, a tolerant spelling of a
value other than null, and a rest that starts at a boundary and fails no check; the
document is followed when the rest holds a further token. In particular it has
every document that the strict reader accepts, and a comma without a value in front
of it is never tolerated within a document. -/
theorem Document.ofText_reads_tolerant_dialect (text : Text) :
    (∀ value isFollowed, ofText text = .ok ⟨value, isFollowed⟩ ↔
      ∃ before spelling rest,
        text.dropLeading byteOrderMark = before ++ (spelling ++ rest) ∧ Blanks before ∧
          ValueText .tolerant depthLimit value spelling ∧ value ≠ .null ∧
          EndsBefore value rest ∧ furtherToken rest = .ok isFollowed) ∧
    (∀ rest isFollowed, furtherToken rest = .ok isFollowed ↔ Continues rest isFollowed) ∧
    (∀ value, Json.ofText text = .ok value → value ≠ .null →
      ofText text = .ok ⟨value, false⟩) ∧
    ∀ front back document, text.dropLeading byteOrderMark = front ++ ',' :: back →
      LeavesStrings front → ¬ EndsWithValue front → ofText text = .ok document →
      ∃ before spelling behind, front = before ++ (spelling ++ behind) ∧ Blanks before ∧
        ValueText .tolerant depthLimit document.value spelling := by
  refine ⟨fun value isFollowed => ?_, fun _ _ => furtherToken_eq_ok_iff,
    fun value => ofText_of_strict, fun _ _ _ => exists_of_ofText_of_comma⟩
  rw [ofText_eq_ok_iff]
  simp only [Begins, furtherToken_eq_ok_iff]

example : ["[,]", "\x7b,\x7d", "[1,,]"].all (fun text =>
    (Document.ofText text.toList).toOption.isNone) = true := by
  decide

end LogIntake.Json
