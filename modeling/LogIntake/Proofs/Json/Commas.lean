import LogIntake.Proofs.Json.Mending

/-!
# Commas behind values

In both dialects every comma outside strings stands behind a value. A comma
behind an opening character, a colon or another comma therefore makes a text no
spelling at all, and mending has no way to tolerate it.

Whether a comma stands outside strings is found from the left, by the regions
that mending passes through when it keeps every comma.
-/

namespace LogIntake.Json

/-! ## Regions and values on the left -/

/-- The region behind a text, every comma counted as kept. -/
def regionAfter (region : Region) (text : Text) : Region :=
  text.foldl (fun region c => (mendStep region c []).2) region

/-- A text behind which the next character stands outside strings. -/
def LeavesStrings (text : Text) : Prop :=
  ∃ last, regionAfter (.outside none) text = .outside last

/-- A text that ends with a value, blanks not counted. -/
def EndsWithValue (text : Text) : Prop :=
  ∃ outer depth value spelling blanks, text = outer ++ (spelling ++ blanks) ∧
    ValueText .tolerant depth value spelling ∧ Blanks blanks

@[simp]
theorem regionAfter_nil (region : Region) : regionAfter region [] = region :=
  rfl

@[simp]
theorem regionAfter_cons (region : Region) (c : Char) (text : Text) :
    regionAfter region (c :: text) = regionAfter (mendStep region c []).2 text :=
  rfl

theorem regionAfter_append (region : Region) (first second : Text) :
    regionAfter region (first ++ second) = regionAfter (regionAfter region first) second :=
  List.foldl_append

theorem EndsWithValue.append_left {text : Text} (ends : EndsWithValue text) (front : Text) :
    EndsWithValue (front ++ text) := by
  rcases ends with ⟨outer, depth, value, spelling, blanks, rfl, spelled, blank⟩
  exact ⟨front ++ outer, depth, value, spelling, blanks, by simp, spelled, blank⟩

/-- Every comma outside strings in a text that stands behind `front`, in the given
region, follows a value. -/
def CommasPlaced (region : Region) (front : Text) : Text → Prop
  | [] => True
  | c :: text =>
    (c = ',' → (∃ last, region = .outside last) → EndsWithValue front) ∧
      CommasPlaced (mendStep region c []).2 (front ++ [c]) text

theorem commasPlaced_append {region : Region} {front first second : Text} :
    CommasPlaced region front (first ++ second) ↔ CommasPlaced region front first ∧
      CommasPlaced (regionAfter region first) (front ++ first) second := by
  induction first generalizing region front with
  | nil => simp [CommasPlaced]
  | cons c first ih =>
      simp only [List.cons_append, CommasPlaced, ih, regionAfter_cons, and_assoc]
      rw [List.append_assoc, List.singleton_append]

/-! ## Strings -/

theorem commasPlaced_char {front text : Text} {c : Char} (notQuote : c ≠ '"')
    (notBackslash : c ≠ '\\') :
    CommasPlaced .inside front (c :: text) ↔ CommasPlaced .inside (front ++ [c]) text := by
  simp [CommasPlaced, mendStep, notQuote, notBackslash]

theorem regionAfter_char {text : Text} {c : Char} (notQuote : c ≠ '"') (notBackslash : c ≠ '\\') :
    regionAfter .inside (c :: text) = regionAfter .inside text := by
  simp [mendStep, notQuote, notBackslash]

theorem commasPlaced_escape {front text : Text} {c : Char} :
    CommasPlaced .inside front ('\\' :: c :: text) ↔
      CommasPlaced .inside (front ++ ['\\', c]) text := by
  simp [CommasPlaced, mendStep]

theorem regionAfter_escape {text : Text} {c : Char} :
    regionAfter .inside ('\\' :: c :: text) = regionAfter .inside text := by
  simp [mendStep]

theorem commasPlaced_codeUnit {front text : Text} {a b c d : Char} {unit : Nat}
    (denotes : codeUnit? a b c d = some unit) :
    CommasPlaced .inside front ('\\' :: 'u' :: a :: b :: c :: d :: text) ↔
      CommasPlaced .inside (front ++ ['\\', 'u', a, b, c, d]) text := by
  obtain ⟨_, _, _, _, aDigit, bDigit, cDigit, dDigit, -⟩ := exists_digits_of_codeUnit? denotes
  obtain ⟨aQuote, aBackslash, -⟩ := printable_of_hexDigit? aDigit
  obtain ⟨bQuote, bBackslash, -⟩ := printable_of_hexDigit? bDigit
  obtain ⟨cQuote, cBackslash, -⟩ := printable_of_hexDigit? cDigit
  obtain ⟨dQuote, dBackslash, -⟩ := printable_of_hexDigit? dDigit
  rw [commasPlaced_escape, commasPlaced_char aQuote aBackslash,
    commasPlaced_char bQuote bBackslash, commasPlaced_char cQuote cBackslash,
    commasPlaced_char dQuote dBackslash]
  simp

theorem regionAfter_codeUnit {text : Text} {a b c d : Char} {unit : Nat}
    (denotes : codeUnit? a b c d = some unit) :
    regionAfter .inside ('\\' :: 'u' :: a :: b :: c :: d :: text) = regionAfter .inside text := by
  obtain ⟨_, _, _, _, aDigit, bDigit, cDigit, dDigit, -⟩ := exists_digits_of_codeUnit? denotes
  obtain ⟨aQuote, aBackslash, -⟩ := printable_of_hexDigit? aDigit
  obtain ⟨bQuote, bBackslash, -⟩ := printable_of_hexDigit? bDigit
  obtain ⟨cQuote, cBackslash, -⟩ := printable_of_hexDigit? cDigit
  obtain ⟨dQuote, dBackslash, -⟩ := printable_of_hexDigit? dDigit
  rw [regionAfter_escape, regionAfter_char aQuote aBackslash, regionAfter_char bQuote bBackslash,
    regionAfter_char cQuote cBackslash, regionAfter_char dQuote dBackslash]

/-- The characters of a string stand inside it. -/
theorem StringText.commasPlaced {dialect : Dialect} {value spelling : Text}
    (spelled : StringText dialect value spelling) (front : Text) :
    CommasPlaced .inside front spelling ∧ regionAfter .inside spelling = .inside := by
  induction spelled generalizing front with
  | nil => exact ⟨trivial, rfl⟩
  | char notQuote notBackslash _ _ ih =>
      rw [commasPlaced_char notQuote notBackslash, regionAfter_char notQuote notBackslash]
      exact ih _
  | letter _ _ ih =>
      rw [commasPlaced_escape, regionAfter_escape]
      exact ih _
  | unit denotes _ _ _ ih =>
      rw [commasPlaced_codeUnit denotes, regionAfter_codeUnit denotes]
      exact ih _
  | pair first _ second _ _ ih =>
      rw [commasPlaced_codeUnit first, commasPlaced_codeUnit second, regionAfter_codeUnit first,
        regionAfter_codeUnit second]
      exact ih _

/-! ## Texts that keep commas behind values -/

/-- A text that starts and ends outside strings, and in which every comma outside
them follows a value. -/
def Orderly (text : Text) : Prop :=
  ∀ last front, CommasPlaced (.outside last) front text ∧
    ∃ behind, regionAfter (.outside last) text = .outside behind

theorem Orderly.append {first second : Text} (firstOrderly : Orderly first)
    (secondOrderly : Orderly second) : Orderly (first ++ second) := by
  intro last front
  obtain ⟨firstPlaced, behind, behind_eq⟩ := firstOrderly last front
  rw [commasPlaced_append, regionAfter_append, behind_eq]
  exact ⟨⟨firstPlaced, (secondOrderly behind _).1⟩, (secondOrderly behind front).2⟩

/-- A comma may follow a text that ends with a value. -/
theorem Orderly.comma {first second : Text} (firstOrderly : Orderly first)
    (ends : EndsWithValue first) (secondOrderly : Orderly second) :
    Orderly (first ++ ',' :: second) := by
  intro last front
  obtain ⟨firstPlaced, behind, behind_eq⟩ := firstOrderly last front
  have kept : (mendStep (.outside behind) ',' []).2 = .outside (some ',') := by
    simp [mendStep, isSuperfluousComma, skipBlanks]
  rw [commasPlaced_append, regionAfter_append, behind_eq, CommasPlaced, regionAfter_cons, kept]
  exact ⟨⟨firstPlaced, fun _ _ => ends.append_left front, (secondOrderly _ _).1⟩,
    (secondOrderly (some ',') front).2⟩

theorem Orderly.endsWithValue_of_comma {front back : Text}
    (orderly : Orderly (front ++ ',' :: back)) (outside : LeavesStrings front) :
    EndsWithValue front := by
  obtain ⟨placed, -⟩ := orderly none []
  rcases commasPlaced_append.mp placed with ⟨-, behindComma⟩
  rcases behindComma with ⟨follows, -⟩
  exact follows rfl outside

theorem orderly_of_forall_ne {run : Text} (ordinary : ∀ c ∈ run, c ≠ '"' ∧ c ≠ ',') :
    Orderly run := by
  induction run with
  | nil => exact fun last front => ⟨trivial, last, rfl⟩
  | cons c run ih =>
      intro last front
      rcases List.forall_mem_cons.mp ordinary with ⟨⟨notQuote, notComma⟩, runOrdinary⟩
      have step : ∃ behind, (mendStep (.outside last) c []).2 = .outside behind := by
        simp [mendStep, notQuote, notComma]
      rcases step with ⟨behind, behind_eq⟩
      rw [CommasPlaced, regionAfter_cons, behind_eq]
      obtain ⟨placed, outside⟩ := ih runOrdinary behind (front ++ [c])
      exact ⟨⟨fun isComma => absurd isComma notComma, placed⟩, outside⟩

theorem orderly_of_undivided {run : Text} (undivided : Undivided run) : Orderly run := by
  apply orderly_of_forall_ne
  intro c member
  have plain := isPlain_of_isDelimiter (undivided.2 c member)
  simp only [isPlain, Bool.and_eq_true, bne_iff_ne] at plain
  exact ⟨plain.1.2, plain.2⟩

theorem orderly_blanks {blanks : Text} (blank : Blanks blanks) : Orderly blanks := by
  apply orderly_of_forall_ne
  intro c member
  have cBlank := blank c member
  constructor <;>
    · rintro rfl
      contradiction

theorem orderly_singleton {c : Char} (ordinary : c ≠ '"' ∧ c ≠ ',') : Orderly [c] :=
  orderly_of_forall_ne (by simpa using ordinary)

theorem StringText.orderly_quoted {dialect : Dialect} {value spelling : Text}
    (spelled : StringText dialect value spelling) : Orderly (quoted spelling) := by
  intro last front
  obtain ⟨placed, inside⟩ := spelled.commasPlaced (front ++ ['"'])
  have opened : (mendStep (.outside last) '"' []).2 = .inside := rfl
  rw [quoted, CommasPlaced, regionAfter_cons, opened, commasPlaced_append, regionAfter_append,
    inside]
  have notComma : '"' ≠ ',' := by decide
  exact ⟨⟨fun same => absurd same notComma, placed, fun same => absurd same notComma, trivial⟩,
    some '"', rfl⟩

/-! ## Parts of a container -/

theorem Orderly.part {α : Type} {part : Part α} (padded : part.Padded)
    (orderly : Orderly part.spelling) : Orderly part.text :=
  (orderly_blanks padded.1).append (orderly.append (orderly_blanks padded.2))

theorem EndsWithValue.part {α : Type} {part : Part α} (padded : part.Padded)
    (ends : EndsWithValue part.spelling) : EndsWithValue part.text := by
  rcases ends with ⟨outer, depth, value, spelling, blanks, spelling_eq, spelled, blank⟩
  refine ⟨part.before ++ outer, depth, value, spelling, blanks ++ part.after, ?_, spelled,
    blanks_append.mpr ⟨blank, padded.2⟩⟩
  simp [Part.text, spelling_eq]

/-- Commas between parts follow values when every part ends with one. -/
theorem orderly_separated {α : Type} {first : Part α} {parts : List (Part α)}
    (orderly : ∀ part ∈ first :: parts, Orderly part.text ∧ EndsWithValue part.text) :
    Orderly (separated (first :: parts)) ∧ EndsWithValue (separated (first :: parts)) := by
  induction parts generalizing first with
  | nil =>
      rw [separated_singleton]
      exact orderly first List.mem_cons_self
  | cons next parts ih =>
      rcases List.forall_mem_cons.mp orderly with ⟨⟨firstOrderly, firstEnds⟩, restOrderly⟩
      obtain ⟨othersOrderly, othersEnd⟩ := ih restOrderly
      rw [separated_cons_cons]
      refine ⟨firstOrderly.comma firstEnds othersOrderly, ?_⟩
      exact (othersEnd.append_left [',']).append_left first.text

theorem orderly_container {α : Type} {opening closing : Char} {parts : List (Part α)}
    {ending : Text} {dialect : Dialect} (opens : opening ≠ '"' ∧ opening ≠ ',')
    (closes : Closes closing) (nonempty : parts ≠ [])
    (orderly : ∀ part ∈ parts, Orderly part.text ∧ EndsWithValue part.text)
    (ends : EndText dialect ending) :
    Orderly (opening :: (separated parts ++ (ending ++ [closing]))) := by
  obtain ⟨first, parts, rfl⟩ := List.exists_cons_of_ne_nil nonempty
  obtain ⟨partsOrderly, partsEnd⟩ := orderly_separated orderly
  have closing_ne : closing ≠ '"' ∧ closing ≠ ',' := by
    rcases closes with rfl | rfl <;> decide
  apply (orderly_singleton opens).append
  cases ends with
  | blanks blank =>
      have closed := (orderly_blanks blank).append (orderly_singleton closing_ne)
      exact partsOrderly.append closed
  | comma _ blank =>
      have closed := (orderly_blanks blank).append (orderly_singleton closing_ne)
      exact partsOrderly.comma partsEnd closed

/-! ## Values -/

theorem ValueText.endsWithValue {depth : Nat} {value : Json} {spelling : Text}
    (spelled : ValueText .tolerant depth value spelling) : EndsWithValue spelling :=
  ⟨[], depth, value, spelling, [], by simp, spelled, blanks_nil⟩

theorem Entry.endsWithValue {entry : Entry} (ends : EndsWithValue entry.element.spelling) :
    EndsWithValue entry.part.spelling := by
  have fromColon := (ends.append_left entry.element.before).append_left [':']
  exact (fromColon.append_left entry.between).append_left _

theorem Entry.orderly {dialect : Dialect} {entry : Entry} (padded : entry.Padded)
    (keySpelled : StringText dialect entry.key entry.keySpelling)
    (elementOrderly : Orderly entry.element.spelling) : Orderly entry.part.spelling := by
  rcases padded with ⟨-, betweenBlank, beforeBlank, -⟩
  have fromColon : Orderly ([':'] ++ _) :=
    (orderly_singleton (by decide)).append ((orderly_blanks beforeBlank).append elementOrderly)
  exact keySpelled.orderly_quoted.append ((orderly_blanks betweenBlank).append fromColon)

theorem orderly_empty {opening closing : Char} {blanks : Text}
    (opens : opening ≠ '"' ∧ opening ≠ ',') (closes : Closes closing) (blank : Blanks blanks) :
    Orderly (opening :: (blanks ++ [closing])) := by
  have closing_ne : closing ≠ '"' ∧ closing ≠ ',' := by
    rcases closes with rfl | rfl <;> decide
  exact (orderly_singleton opens).append
    ((orderly_blanks blank).append (orderly_singleton closing_ne))

theorem ValueText.orderly {depth : Nat} {value : Json} {spelling : Text}
    (spelled : ValueText .tolerant depth value spelling) : Orderly spelling := by
  induction spelled with
  | nullWord => exact orderly_of_undivided undivided_null
  | trueWord => exact orderly_of_undivided undivided_true
  | falseWord => exact orderly_of_undivided undivided_false
  | number spelled _ => exact orderly_of_undivided spelled.undivided
  | string spelled => exact spelled.orderly_quoted
  | emptyArray blank => exact orderly_empty (by decide) (.inl rfl) blank
  | emptyObject blank => exact orderly_empty (by decide) (.inr rfl) blank
  | array nonempty padded spelled ends ih =>
      refine orderly_container (by decide) (.inl rfl) nonempty (fun element member => ?_) ends
      exact ⟨(ih element member).part (padded element member),
        (spelled element member).endsWithValue.part (padded element member)⟩
  | object nonempty padded keys spelled ends ih =>
      refine orderly_container (by decide) (.inr rfl) (by simpa using nonempty) ?_ ends
      refine List.forall_mem_map.mpr fun entry member => ?_
      have entryOrderly := Entry.orderly (padded entry member) (keys entry member) (ih entry member)
      have entryEnds := Entry.endsWithValue (spelled entry member).endsWithValue
      have partPadded := (padded entry member).part
      exact ⟨entryOrderly.part partPadded, entryEnds.part partPadded⟩

end LogIntake.Json
