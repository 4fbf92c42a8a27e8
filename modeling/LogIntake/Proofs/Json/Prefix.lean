import LogIntake.Charset.Utf8
import LogIntake.Proofs.Json.FurtherToken

/-!
# Spellings are no prefixes of each other

The reader takes the spelling of a container or a string whole and no more, whatever
stands behind it. So no part of such a spelling, from its front on and short of its end,
is a spelling of its own, and a text that is cut off within its document has none.

What has been cut off may leave a broken character, which is read as a replacement, and
these change nothing: no value starts with a replacement, and no container or string ends
with one.
-/

namespace LogIntake.Json

/-! ## Spellings -/

theorem isDelimiter_of_opens {c : Char} (opens : c = '\x7b' ∨ c = '[' ∨ c = '"') :
    Document.isDelimiter c = true := by
  rcases opens with rfl | rfl | rfl <;> rfl

theorem startsValue_of_opens {c : Char} (opens : c = '\x7b' ∨ c = '[' ∨ c = '"') :
    startsValue c = true := by
  rcases opens with rfl | rfl | rfl <;> rfl

/-- A value whose spelling opens a container or a string is one. -/
theorem ValueText.isSelfDelimiting_of_opens {dialect : Dialect} {depth : Nat} {value : Json}
    {c : Char} {rest : Text} (spelled : ValueText dialect depth value (c :: rest))
    (opens : c = '\x7b' ∨ c = '[' ∨ c = '"') : Document.isSelfDelimiting value = true := by
  cases scalar : Document.isSelfDelimiting value with
  | true => rfl
  | false =>
      have within := (tokenText_of_valueText spelled scalar).undivided.2 c List.mem_cons_self
      rw [isDelimiter_of_opens opens] at within
      contradiction

/-- The spelling of a container or a string ends with the character that closes it. -/
theorem ValueText.exists_concat {dialect : Dialect} {depth : Nat} {value : Json} {spelling : Text}
    (spelled : ValueText dialect depth value spelling)
    (selfDelimiting : Document.isSelfDelimiting value = true) :
    ∃ front c, spelling = front ++ [c] ∧ (Closes c ∨ c = '"') := by
  cases spelled with
  | @string _ _ inner _ => exact ⟨'"' :: inner, '"', rfl, .inr rfl⟩
  | @emptyArray _ blanks _ => exact ⟨'[' :: blanks, ']', rfl, .inl (.inl rfl)⟩
  | @emptyObject _ blanks _ => exact ⟨'\x7b' :: blanks, '\x7d', rfl, .inl (.inr rfl)⟩
  | @array _ elements ending _ _ _ _ =>
      exact ⟨'[' :: (separated elements ++ ending), ']', by simp, .inl (.inl rfl)⟩
  | @object _ entries ending _ _ _ _ _ =>
      exact ⟨'\x7b' :: (separated (entries.map Entry.part) ++ ending), '\x7d', by simp,
        .inl (.inr rfl)⟩
  | _ => contradiction

/-- No spelling of a value is the front of a longer one that opens a container or a string. -/
theorem ValueText.eq_nil_of_append {value shorter : Json} {spelling further : Text}
    (shorterSpelled : ValueText .tolerant depthLimit shorter spelling)
    (spelled : ValueText .tolerant depthLimit value (spelling ++ further))
    (selfDelimiting : Document.isSelfDelimiting value = true) : further = [] := by
  obtain ⟨c, tail, opened, opens⟩ := opens_of_valueText spelled selfDelimiting
  obtain ⟨d, front, rfl, -⟩ := shorterSpelled.exists_cons
  obtain ⟨rfl, -⟩ := List.cons.inj opened
  have shorterDelimiting := shorterSpelled.isSelfDelimiting_of_opens opens
  obtain ⟨strict, -⟩ := spelled.mended
  obtain ⟨shorterStrict, mends⟩ := shorterSpelled.mended
  -- the mended text is read twice: as the longer spelling alone, and as the shorter one with
  -- what is left of the rest behind it
  let leftover := mendedFrom (.outside (d :: front).getLast?) further
  have mended_eq : mend (d :: front ++ further) = mend (d :: front) ++ leftover := mends none further
  have whole : readValue ([] ++ (mend (d :: front ++ further) ++ [])) = .ok (value, []) :=
    readValue_append blanks_nil strict (.inl selfDelimiting)
  have part : readValue ([] ++ (mend (d :: front) ++ leftover)) = .ok (shorter, leftover) :=
    readValue_append blanks_nil shorterStrict (.inl shorterDelimiting)
  rw [List.append_nil, mended_eq] at whole
  obtain ⟨-, rest_eq⟩ := Prod.mk.inj (Except.ok.inj (whole.symm.trans part))
  have blank : Blanks further := blanks_of_mendedFrom (rest_eq ▸ blanks_nil)
  have leftover_eq : leftover = further ++ [] := by
    simpa using mendedFrom_blanks_append blank (d :: front).getLast? []
  rw [← rest_eq, List.append_nil] at leftover_eq
  exact leftover_eq.symm

/-! ## Texts that are cut off -/

/-- What is no mark stands in front of the marks. -/
theorem exists_of_append_eq {mark c : Char} {written marks front back : Text}
    (marked : ∀ d ∈ marks, d = mark) (other : c ≠ mark)
    (text_eq : written ++ marks = front ++ c :: back) :
    ∃ behind, written = front ++ c :: behind := by
  rcases List.append_eq_append_iff.mp text_eq with
    ⟨between, -, marks_eq⟩ | ⟨behind, written_eq, back_eq⟩
  · exact absurd (marked c (by simp [marks_eq])) other
  · cases behind with
    | nil =>
        rw [List.nil_append] at back_eq
        exact absurd (marked c (back_eq ▸ List.mem_cons_self)) other
    | cons d behind =>
        obtain ⟨rfl, -⟩ := List.cons.inj back_eq
        exact ⟨behind, written_eq⟩

theorem ne_replacement_of_startsValue {c : Char} (starts : startsValue c = true) :
    c ≠ Charset.replacement := by
  rintro rfl
  exact absurd starts (by decide)

theorem ne_replacement_of_closes {c : Char} (closes : Closes c ∨ c = '"') :
    c ≠ Charset.replacement := by
  rcases closes with (rfl | rfl) | rfl <;> decide

/-- What is written of a container or a string before its end begins with no document, also
with replacements behind it. -/
theorem ValueText.not_begins_of_cut {value : Json} {before spelling written marks rest : Text}
    (spelled : ValueText .tolerant depthLimit value spelling)
    (selfDelimiting : Document.isSelfDelimiting value = true) (blank : Blanks before)
    (text_eq : written ++ rest = before ++ spelling) (cut : rest ≠ [])
    (replaced : ∀ c ∈ marks, c = Charset.replacement) (document : Document) :
    ¬ Document.Begins .tolerant (written ++ marks) document := by
  rintro ⟨start, shorter, after, marked_eq, startBlank, shorterSpelled, -, -, -⟩
  obtain ⟨c, tail, rfl, opens⟩ := opens_of_valueText spelled selfDelimiting
  obtain ⟨d, shorterTail, rfl, starts⟩ := shorterSpelled.exists_cons
  -- the shorter spelling starts where the longer one does
  obtain ⟨behind, rfl⟩ :=
    exists_of_append_eq replaced (ne_replacement_of_startsValue starts) marked_eq
  obtain ⟨before_eq, rfl, -⟩ := blanks_append_cons_inj startBlank blank
    (isBlank_of_startsValue starts) (isBlank_of_startsValue (startsValue_of_opens opens))
    (by simpa using text_eq)
  -- and it ends within what has been written
  obtain ⟨front, e, shorter_eq, closes⟩ :=
    shorterSpelled.exists_concat (shorterSpelled.isSelfDelimiting_of_opens opens)
  have marked_eq' : start ++ d :: behind ++ marks = (start ++ front) ++ e :: after := by
    rw [marked_eq, shorter_eq]
    simp
  obtain ⟨leftover, written_eq⟩ :=
    exists_of_append_eq replaced (ne_replacement_of_closes closes) marked_eq'
  have whole_eq : d :: tail = (d :: shorterTail) ++ (leftover ++ rest) := by
    rw [written_eq, ← before_eq] at text_eq
    rw [shorter_eq]
    simpa using text_eq.symm
  rw [whole_eq] at spelled
  exact cut (List.append_eq_nil_iff.mp (shorterSpelled.eq_nil_of_append spelled selfDelimiting)).2

/-! ## Documents -/

theorem mem_of_mem_dropLeading {c d : Char} {text : Text}
    (member : d ∈ Text.dropLeading c text) : d ∈ text := by
  cases text with
  | nil => exact member
  | cons first rest =>
      rw [Text.dropLeading] at member
      split at member
      · exact List.mem_cons_of_mem first member
      · exact member

theorem getLast?_dropLeading {c : Char} {text : Text} (nonempty : text.dropLeading c ≠ []) :
    (text.dropLeading c).getLast? = text.getLast? := by
  cases text with
  | nil => rfl
  | cons first rest =>
      rw [Text.dropLeading] at nonempty ⊢
      split
      · rename_i same
        rw [if_pos same] at nonempty
        rw [List.getLast?_cons, List.getLast?_eq_some_getLast nonempty]
        rfl
      · rfl

namespace Document

/-- A text with one document that does not end with a blank ends with the spelling of the
document. -/
theorem exists_spelling_of_ofText {text : Text} {value : Json}
    (read_eq : ofText text = .ok ⟨value, false⟩)
    (ends : ∀ c ∈ text.getLast?, isBlank c = false) :
    ∃ before spelling, text.dropLeading byteOrderMark = before ++ spelling ∧ Blanks before ∧
      ValueText .tolerant depthLimit value spelling := by
  obtain ⟨before, spelling, after, text_eq, blank, spelled, -, -, continues⟩ :=
    ofText_eq_ok_iff.mp read_eq
  rcases List.eq_nil_or_concat after with rfl | ⟨front, last, rfl⟩
  · exact ⟨before, spelling, by simpa using text_eq, blank, spelled⟩
  · have nonempty : text.dropLeading byteOrderMark ≠ [] := by simp [text_eq]
    have last_eq : text.getLast? = some last := by
      rw [← getLast?_dropLeading nonempty, text_eq]
      simp
    have lastBlank := continues.blanks last (by simp)
    rw [ends last last_eq] at lastBlank
    contradiction

/-- A text that ends with a container or a string and is cut off has no document, also with
replacements in the place of what is missing. -/
theorem ofText_ne_ok_of_cut {written marks rest : Text} {value : Json}
    (read_eq : ofText (written ++ rest) = .ok ⟨value, false⟩)
    (selfDelimiting : isSelfDelimiting value = true)
    (ends : ∀ c ∈ (written ++ rest).getLast?, isBlank c = false) (cut : rest ≠ [])
    (replaced : ∀ c ∈ marks, c = Charset.replacement) (document : Document) :
    ofText (written ++ marks) ≠ .ok document := by
  intro marked_eq
  obtain ⟨before, spelling, text_eq, blank, spelled⟩ := exists_spelling_of_ofText read_eq ends
  have begins := ofText_eq_ok_iff.mp marked_eq
  -- the byte order mark is dropped from what is written, if anything is
  cases written with
  | nil =>
      have whole_eq : [] ++ rest.dropLeading byteOrderMark = before ++ spelling := text_eq
      have nonempty : rest.dropLeading byteOrderMark ≠ [] := by
        rw [List.nil_append] at whole_eq
        simp [whole_eq, spelled.ne_nil]
      have stillReplaced : ∀ c ∈ marks.dropLeading byteOrderMark, c = Charset.replacement :=
        fun c member => replaced c (mem_of_mem_dropLeading member)
      exact spelled.not_begins_of_cut selfDelimiting blank whole_eq nonempty stillReplaced document
        begins
  | cons c written =>
      rw [dropLeading_append (List.cons_ne_nil c written)] at text_eq begins
      exact spelled.not_begins_of_cut selfDelimiting blank text_eq cut replaced document begins

end Document

end LogIntake.Json
