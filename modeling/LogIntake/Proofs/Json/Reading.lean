import LogIntake.Proofs.Json.Scanning

/-!
# Reading values

The reader takes exactly the strict spellings of values, up to the greatest
number of open containers. Blanks in front are skipped, and the text behind is
returned untouched.

The loop over the parts of a container is treated for any reader of a part. What
is known of that reader is that it takes spellings only, or that it takes the
spelling of each part; the statement for all depths follows by induction.
-/

namespace LogIntake.Json

/-! ## Spellings -/

section Separated

variable {α : Type}

theorem separated_cons (part : Part α) (parts : List (Part α)) :
    separated (part :: parts) = part.text ++ parts.flatMap fun next => ',' :: next.text := by
  induction parts generalizing part with
  | nil => simp [separated]
  | cons next parts ih =>
      have next_eq := ih next
      rw [separated, List.map_cons] at next_eq
      rw [separated, List.map_cons, List.map_cons, List.intercalate_cons_cons, next_eq]
      simp

theorem separated_singleton (part : Part α) : separated [part] = part.text := by
  simp [separated]

theorem separated_cons_cons (part next : Part α) (parts : List (Part α)) :
    separated (part :: next :: parts) = part.text ++ ',' :: separated (next :: parts) := by
  rw [separated_cons, separated_cons]
  simp

end Separated

/-- The first characters of the spellings of values. -/
def startsValue (c : Char) : Bool :=
  c == '"' || c == '[' || c == '\x7b' || c == 'n' || c == 't' || c == 'f' || c == '-' ||
    Text.isDigit c

theorem startsValue_of_isDigit {c : Char} (digit : Text.isDigit c = true) :
    startsValue c = true := by
  simp [startsValue, digit]

theorem isBlank_of_startsValue {c : Char} (starts : startsValue c = true) :
    isBlank c = false := by
  cases blank : isBlank c with
  | false => rfl
  | true =>
      simp only [isBlank, Bool.or_eq_true, beq_iff_eq] at blank
      rcases blank with ((rfl | rfl) | rfl) | rfl <;> contradiction

theorem NumeralText.exists_cons {numeral : Numeral} {spelling : Text}
    (spelled : NumeralText numeral spelling) :
    ∃ c rest, spelling = c :: rest ∧ (c = '-' ∨ Text.isDigit c = true) := by
  cases spelled with
  | @parts negative whole _ _ _ _ isWhole _ _ =>
      cases negative with
      | true => exact ⟨'-', _, rfl, .inl rfl⟩
      | false =>
          obtain ⟨c, tail, rfl, digit⟩ := isWhole.exists_cons
          exact ⟨c, _, rfl, .inr digit⟩

theorem NumeralText.ne_nil {numeral : Numeral} {spelling : Text}
    (spelled : NumeralText numeral spelling) : spelling ≠ [] := by
  obtain ⟨c, rest, rfl, -⟩ := spelled.exists_cons
  exact List.cons_ne_nil c rest

/-- Spellings of values are not empty, and their first characters are not blank
and end no container. -/
theorem ValueText.exists_cons {dialect : Dialect} {depth : Nat} {value : Json} {spelling : Text}
    (spelled : ValueText dialect depth value spelling) :
    ∃ c rest, spelling = c :: rest ∧ startsValue c = true := by
  cases spelled with
  | number spelled _ =>
      obtain ⟨c, rest, rfl, starts⟩ := spelled.exists_cons
      refine ⟨c, rest, rfl, ?_⟩
      rcases starts with rfl | digit
      · rfl
      · exact startsValue_of_isDigit digit
  | _ => exact ⟨_, _, rfl, by decide⟩

theorem ValueText.ne_nil {dialect : Dialect} {depth : Nat} {value : Json} {spelling : Text}
    (spelled : ValueText dialect depth value spelling) : spelling ≠ [] := by
  obtain ⟨c, rest, rfl, -⟩ := spelled.exists_cons
  exact List.cons_ne_nil c rest

/-! ## Parts of a container -/

/-- The characters that close a container. -/
def Closes (c : Char) : Prop :=
  c = ']' ∨ c = '\x7d'

theorem Closes.isDelimiter {c : Char} (closes : Closes c) : Document.isDelimiter c = true := by
  rcases closes with rfl | rfl <;> rfl

theorem Closes.isBlank {c : Char} (closes : Closes c) : Json.isBlank c = false := by
  rcases closes with rfl | rfl <;> rfl

theorem Closes.ne_comma {c : Char} (closes : Closes c) : c ≠ ',' := by
  rcases closes with rfl | rfl <;> decide

theorem Closes.startsValue {c : Char} (closes : Closes c) : Json.startsValue c = false := by
  rcases closes with rfl | rfl <;> rfl

section Parts

variable {α : Type} {read : Text → Except Fault (α × Text)} {closing : Char}
  {unfinished misplaced : Cause} {fuel : Nat}

/-- The reader takes only what is spelled, perhaps behind blanks. -/
def TakesOnly (read : Text → Except Fault (α × Text)) (spelled : α → Text → Prop) : Prop :=
  ∀ ⦃text value rest⦄, read text = .ok (value, rest) →
    ∃ before spelling, text = before ++ (spelling ++ rest) ∧ Blanks before ∧ spelled value spelling

/-- The reader takes a spelling whole wherever nothing prolongs it. -/
def Takes (read : Text → Except Fault (α × Text)) (value : α) (spelling : Text) : Prop :=
  ∀ ⦃rest⦄, AtBoundary rest → read (spelling ++ rest) = .ok (value, rest)

/-- The parts that a loop has read, and the text that they leave. -/
theorem exists_parts_of_readParts {spelled : α → Text → Prop} (sound : TakesOnly read spelled)
    {reversed values : List α} {text rest : Text}
    (read_eq : readParts read closing unfinished misplaced fuel reversed text =
      .ok (values, rest))
    {blanks : Text} (blank : Blanks blanks) :
    ∃ parts : List (Part α), parts ≠ [] ∧ (∀ part ∈ parts, part.Padded) ∧
      (∀ part ∈ parts, spelled part.value part.spelling) ∧
      values = reversed.reverse ++ parts.map Part.value ∧
      blanks ++ text = separated parts ++ closing :: rest := by
  induction fuel generalizing reversed text blanks with
  | zero => contradiction
  | succ fuel ih =>
      simp only [readParts, bind, Except.bind] at read_eq
      split at read_eq
      · contradiction
      · rename_i result part_eq
        rcases result with ⟨value, behind⟩
        obtain ⟨before, spelling, rfl, beforeBlank, valueSpelled⟩ := sound part_eq
        obtain ⟨after, afterBlank, behind_eq⟩ := exists_blanks_append_skipBlanks behind
        let part : Part α := ⟨blanks ++ before, value, spelling, after⟩
        have padded : part.Padded := ⟨blanks_append.mpr ⟨blank, beforeBlank⟩, afterBlank⟩
        dsimp only at read_eq
        split at read_eq
        · contradiction
        · rename_i c tail skipped
          split at read_eq
          · -- the container closes, so this part is the last one
            rename_i closes
            cases read_eq
            refine ⟨[part], by simp, by simpa using padded, by simpa [part] using valueSpelled,
              by simp [part], ?_⟩
            rw [behind_eq, skipped, closes]
            simp [part, Part.text, separated_singleton]
          · split at read_eq
            · rename_i isComma
              obtain ⟨between, betweenBlank, tail_eq⟩ := exists_blanks_append_skipBlanks tail
              split at read_eq
              · contradiction
              · rename_i next_eq
                split at read_eq
                · contradiction
                · obtain ⟨parts, nonempty, allPadded, allSpelled, values_eq, text_eq⟩ :=
                    ih read_eq betweenBlank
                  refine ⟨part :: parts, by simp, List.forall_mem_cons.mpr ⟨padded, allPadded⟩,
                    List.forall_mem_cons.mpr ⟨valueSpelled, allSpelled⟩,
                    by simp [part, values_eq], ?_⟩
                  obtain ⟨next, parts, rfl⟩ := List.exists_cons_of_ne_nil nonempty
                  rw [← next_eq, ← tail_eq] at text_eq
                  rw [behind_eq, skipped, isComma, text_eq]
                  simp [part, Part.text, separated_cons_cons]
            · contradiction

/-- A part that a reader takes, with blanks around it, and that does not look like
the end of its container. -/
structure Part.Readable (read : Text → Except Fault (α × Text)) (closing : Char)
    (part : Part α) : Prop where
  padded : part.Padded
  takes : Takes read part.value part.spelling
  starts : ∃ c rest, part.spelling = c :: rest ∧ isBlank c = false ∧ c ≠ closing

/-- The loop starts, and goes on, without the blanks in front of a part. -/
theorem skipBlanks_separated {first : Part α} (readable : first.Readable read closing)
    (parts : List (Part α)) (rest : Text) :
    ∃ c tail, c ≠ closing ∧ skipBlanks (separated (first :: parts) ++ rest) = c :: tail ∧
      c :: tail = separated ({ first with before := [] } :: parts) ++ rest := by
  obtain ⟨c, spelling, spelling_eq, notBlank, notClosing⟩ := readable.starts
  refine ⟨c, spelling ++ (first.after ++ (parts.flatMap fun next => ',' :: next.text) ++ rest),
    notClosing, ?_, ?_⟩
  · simp only [separated_cons, Part.text, List.append_assoc, skipBlanks_append readable.padded.1,
      spelling_eq, List.cons_append]
    exact skipBlanks_eq_self notBlank
  · simp [separated_cons, Part.text, spelling_eq]

theorem readParts_last (closes : Closes closing) (unfinished misplaced : Cause) (fuel : Nat)
    {value : α} {text after rest : Text} (blank : Blanks after)
    (part_eq : read text = .ok (value, after ++ closing :: rest)) (reversed : List α) :
    readParts read closing unfinished misplaced (fuel + 1) reversed text =
      .ok (reversed.reverse ++ [value], rest) := by
  have skipped : skipBlanks (after ++ closing :: rest) = closing :: rest := by
    rw [skipBlanks_append blank, skipBlanks_eq_self closes.isBlank]
  simp [readParts, bind, Except.bind, part_eq, skipped]

theorem readParts_more (closes : Closes closing) (unfinished misplaced : Cause) (fuel : Nat)
    {value : α} {c : Char} {text after tail rest : Text} (blank : Blanks after)
    (part_eq : read text = .ok (value, after ++ ',' :: tail))
    (tail_eq : skipBlanks tail = c :: rest) (notClosing : c ≠ closing) (reversed : List α) :
    readParts read closing unfinished misplaced (fuel + 1) reversed text =
      readParts read closing unfinished misplaced fuel (value :: reversed) (c :: rest) := by
  have skipped : skipBlanks (after ++ ',' :: tail) = ',' :: tail := by
    rw [skipBlanks_append blank]
    rfl
  simp [readParts, bind, Except.bind, part_eq, skipped, closes.ne_comma.symm, tail_eq,
    notClosing]

/-- The loop reads all parts up to the end of their container. -/
theorem readParts_separated (closes : Closes closing) {first : Part α} {parts : List (Part α)}
    (readable : ∀ part ∈ first :: parts, part.Readable read closing)
    (enough : parts.length < fuel) {blanks : Text} (blank : Blanks blanks) (reversed : List α)
    (rest : Text) :
    readParts read closing unfinished misplaced fuel reversed
        (separated ({ first with before := [] } :: parts) ++ (blanks ++ closing :: rest)) =
      .ok (reversed.reverse ++ (first :: parts).map Part.value, rest) := by
  induction parts generalizing first fuel reversed with
  | nil =>
      obtain ⟨fuel, rfl⟩ := Nat.exists_eq_succ_of_ne_zero (Nat.ne_zero_of_lt enough)
      obtain ⟨⟨-, afterBlank⟩, takes, -⟩ := readable first List.mem_cons_self
      have behindBlank : Blanks (first.after ++ blanks) := blanks_append.mpr ⟨afterBlank, blank⟩
      have boundary : AtBoundary (first.after ++ blanks ++ closing :: rest) :=
        atBoundary_blanks_append behindBlank (atBoundary_cons.mpr closes.isDelimiter)
      have read_eq := readParts_last closes unfinished misplaced fuel behindBlank
        (takes boundary) reversed
      simpa [separated_singleton, Part.text] using read_eq
  | cons next parts ih =>
      obtain ⟨fuel, rfl⟩ := Nat.exists_eq_succ_of_ne_zero (Nat.ne_zero_of_lt enough)
      rcases List.forall_mem_cons.mp readable with ⟨firstReadable, restReadable⟩
      rcases firstReadable with ⟨⟨-, afterBlank⟩, takes, -⟩
      have nextReadable := restReadable next List.mem_cons_self
      obtain ⟨c, tail, notClosing, skipped, tail_eq⟩ :=
        skipBlanks_separated nextReadable parts (blanks ++ closing :: rest)
      have boundary : AtBoundary
          (first.after ++ ',' :: (separated (next :: parts) ++ (blanks ++ closing :: rest))) :=
        atBoundary_blanks_append afterBlank (atBoundary_cons.mpr rfl)
      have read_eq := readParts_more closes unfinished misplaced fuel afterBlank
        (takes boundary) skipped notClosing reversed
      rw [tail_eq, ih restReadable (Nat.lt_of_succ_lt_succ enough)] at read_eq
      simpa [separated_cons_cons, Part.text] using read_eq

/-- A container is empty, or a loop reads its parts. -/
theorem exists_parts_of_readContainer {spelled : α → Text → Prop} (sound : TakesOnly read spelled)
    {values : List α} {text rest : Text}
    (read_eq : readContainer read closing unfinished misplaced fuel text = .ok (values, rest)) :
    (values = [] ∧ ∃ blanks, Blanks blanks ∧ text = blanks ++ closing :: rest) ∨
      ∃ parts : List (Part α), parts ≠ [] ∧ (∀ part ∈ parts, part.Padded) ∧
        (∀ part ∈ parts, spelled part.value part.spelling) ∧
        values = parts.map Part.value ∧ text = separated parts ++ closing :: rest := by
  obtain ⟨blanks, blank, text_eq⟩ := exists_blanks_append_skipBlanks text
  unfold readContainer at read_eq
  split at read_eq
  · contradiction
  · rename_i c tail skipped
    split at read_eq
    · rename_i closes
      cases read_eq
      exact .inl ⟨rfl, blanks, blank, by rw [text_eq, skipped, closes]⟩
    · obtain ⟨parts, nonempty, padded, spelled, values_eq, parts_eq⟩ :=
        exists_parts_of_readParts sound read_eq blank
      refine .inr ⟨parts, nonempty, padded, spelled, by simpa using values_eq, ?_⟩
      rw [← parts_eq, ← skipped, ← text_eq]

theorem readContainer_empty (closes : Closes closing) {blanks : Text} (blank : Blanks blanks)
    (rest : Text) :
    readContainer read closing unfinished misplaced fuel (blanks ++ closing :: rest) =
      .ok ([], rest) := by
  simp [readContainer, skipBlanks_append blank, skipBlanks_eq_self closes.isBlank]

theorem readContainer_separated (closes : Closes closing) {parts : List (Part α)}
    (nonempty : parts ≠ []) (readable : ∀ part ∈ parts, part.Readable read closing)
    (enough : parts.length ≤ fuel) {blanks : Text} (blank : Blanks blanks) (rest : Text) :
    readContainer read closing unfinished misplaced fuel
        (separated parts ++ (blanks ++ closing :: rest)) =
      .ok (parts.map Part.value, rest) := by
  obtain ⟨first, parts, rfl⟩ := List.exists_cons_of_ne_nil nonempty
  obtain ⟨c, tail, notClosing, skipped, tail_eq⟩ :=
    skipBlanks_separated (readable first List.mem_cons_self) parts (blanks ++ closing :: rest)
  simp only [readContainer, skipped, notClosing, if_false]
  rw [tail_eq]
  exact readParts_separated closes readable enough blank [] rest

end Parts

/-! ## Entries -/

section Entries

variable {item : Text → Except Fault (Json × Text)}

/-- The spelling of a member: its key, a colon and its value, with blanks around
the colon. -/
def MemberText (dialect : Dialect) (spelled : Json → Text → Prop) (member : Text × Json)
    (spelling : Text) : Prop :=
  ∃ keySpelling between before valueSpelling, StringText dialect member.1 keySpelling ∧
    Blanks between ∧ Blanks before ∧ spelled member.2 valueSpelling ∧
    spelling = quoted keySpelling ++ (between ++ ':' :: (before ++ valueSpelling))

theorem takesOnly_readEntry {spelled : Json → Text → Prop} (sound : TakesOnly item spelled) :
    TakesOnly (readEntry item) (MemberText .strict spelled) := by
  intro text member rest read_eq
  unfold readEntry at read_eq
  split at read_eq
  · simp only [bind, Except.bind] at read_eq
    split at read_eq
    · contradiction
    · rename_i result key_eq
      rcases result with ⟨key, behindKey⟩
      obtain ⟨tail, keySpelling, rfl, keySpelled, key_eq⟩ := eq_append_of_readString key_eq
      obtain ⟨between, betweenBlank, behindKey_eq⟩ := exists_blanks_append_skipBlanks behindKey
      dsimp only at read_eq
      split at read_eq
      · contradiction
      · rename_i behindColon skipped
        split at read_eq
        · contradiction
        · rename_i result item_eq
          rcases result with ⟨value, behindValue⟩
          obtain ⟨before, spelling, rfl, beforeBlank, valueSpelled⟩ := sound item_eq
          cases read_eq
          refine ⟨[], _, ?_, blanks_nil, keySpelling, between, before, spelling,
            by simpa [key_eq] using keySpelled, betweenBlank, beforeBlank, valueSpelled, rfl⟩
          rw [behindKey_eq, skipped]
          simp [quoted]
      · contradiction
  · contradiction

/-- A list of images is the image of a list. -/
theorem exists_map_eq_of_forall {α β : Type} {f : α → β} {p : α → Prop} {images : List β}
    (each : ∀ image ∈ images, ∃ a, f a = image ∧ p a) :
    ∃ list : List α, list.map f = images ∧ ∀ a ∈ list, p a := by
  induction images with
  | nil => exact ⟨[], rfl, by simp⟩
  | cons image images ih =>
      rcases List.forall_mem_cons.mp each with ⟨⟨a, image_eq, aHolds⟩, restEach⟩
      obtain ⟨list, images_eq, allHold⟩ := ih restEach
      exact ⟨a :: list, by simp [image_eq, images_eq],
        List.forall_mem_cons.mpr ⟨aHolds, allHold⟩⟩

/-- Parts that are spelled as members are entries. -/
theorem exists_entries {dialect : Dialect} {spelled : Json → Text → Prop}
    {parts : List (Part (Text × Json))} (padded : ∀ part ∈ parts, part.Padded)
    (memberSpelled : ∀ part ∈ parts, MemberText dialect spelled part.value part.spelling) :
    ∃ entries : List Entry, entries.map Entry.part = parts ∧ ∀ entry ∈ entries,
      entry.Padded ∧ StringText dialect entry.key entry.keySpelling ∧
        spelled entry.element.value entry.element.spelling := by
  apply exists_map_eq_of_forall
  rintro ⟨partBefore, ⟨key, value⟩, spelling, after⟩ member
  obtain ⟨partBeforeBlank, afterBlank⟩ := padded _ member
  obtain ⟨keySpelling, between, before, valueSpelling, keySpelled, betweenBlank, beforeBlank,
    valueSpelled, rfl⟩ := memberSpelled _ member
  exact ⟨⟨partBefore, key, keySpelling, between, ⟨before, value, valueSpelling, after⟩⟩, rfl,
    ⟨partBeforeBlank, betweenBlank, beforeBlank, afterBlank⟩, keySpelled, valueSpelled⟩

theorem Entry.Padded.part {entry : Entry} (padded : entry.Padded) : entry.part.Padded :=
  ⟨padded.1, padded.2.2.2⟩

/-- An entry is read when its value is, also behind blanks. -/
theorem takes_readEntry {entry : Entry} (padded : entry.Padded)
    (keySpelled : StringText .strict entry.key entry.keySpelling)
    (takes : ∀ ⦃before⦄, Blanks before →
      Takes item entry.element.value (before ++ entry.element.spelling)) :
    Takes (readEntry item) entry.part.value entry.part.spelling := by
  intro rest boundary
  rcases padded with ⟨-, betweenBlank, beforeBlank, -⟩
  have key_eq (rest : Text) := readString_append keySpelled [] rest
  have skipped (rest : Text) : skipBlanks (entry.between ++ ':' :: rest) = ':' :: rest := by
    rw [skipBlanks_append betweenBlank]
    rfl
  have item_eq := takes beforeBlank boundary
  simp only [List.append_assoc] at item_eq
  simp [Entry.part, quoted, readEntry, key_eq, skipped, item_eq, bind, Except.bind]

end Entries

/-! ## Values -/

/-- Values are read behind blanks as they are without them. -/
theorem readNested_blanks_append {blanks : Text} (blank : Blanks blanks) (fuel depth : Nat)
    (text : Text) : readNested fuel depth (blanks ++ text) = readNested fuel depth text := by
  cases depth <;> simp only [readNested, readWith, skipBlanks_append blank]

theorem exists_of_bind_eq_ok {ε α β : Type} {first : Except ε α} {next : α → Except ε β} {b : β}
    (bind_eq : (first >>= next) = .ok b) : ∃ a, first = .ok a ∧ next a = .ok b := by
  cases first with
  | error => contradiction
  | ok a => exact ⟨a, rfl, bind_eq⟩

theorem exists_array_of_readArray {item : Text → Except Fault (Json × Text)} {fuel inner : Nat}
    (sound : TakesOnly item (ValueText .strict inner)) {values : List Json} {text rest : Text}
    (read_eq : readArray item fuel text = .ok (values, rest)) :
    ∃ spelling, '[' :: text = spelling ++ rest ∧
      ValueText .strict (inner + 1) (.array values) spelling := by
  rcases exists_parts_of_readContainer sound read_eq with
    ⟨rfl, blanks, blank, rfl⟩ | ⟨elements, nonempty, padded, spelled, rfl, rfl⟩
  · exact ⟨_, by simp, .emptyArray blank⟩
  · exact ⟨_, by simp, .array nonempty padded spelled (.blanks blanks_nil)⟩

theorem exists_object_of_readObject {item : Text → Except Fault (Json × Text)} {fuel inner : Nat}
    (sound : TakesOnly item (ValueText .strict inner)) {members : Members} {text rest : Text}
    (read_eq : readObject item fuel text = .ok (members, rest)) :
    ∃ spelling, '\x7b' :: text = spelling ++ rest ∧
      ValueText .strict (inner + 1) (.object members) spelling := by
  obtain ⟨⟨values, behind⟩, container_eq, members_eq⟩ := exists_of_bind_eq_ok read_eq
  cases members_eq
  rcases exists_parts_of_readContainer (takesOnly_readEntry sound) container_eq with
    ⟨rfl, blanks, blank, rfl⟩ | ⟨parts, nonempty, padded, spelled, rfl, rfl⟩
  · exact ⟨_, by simp, .emptyObject blank⟩
  · obtain ⟨entries, rfl, entrySpelled⟩ := exists_entries padded spelled
    have entriesNonempty : entries ≠ [] := by simpa using nonempty
    refine ⟨_, ?_, .object entriesNonempty (fun entry member => (entrySpelled entry member).1)
      (fun entry member => (entrySpelled entry member).2.1)
      (fun entry member => (entrySpelled entry member).2.2) (.blanks blanks_nil)⟩
    simp

theorem takesOnly_readWith {nested? : Option (Text → Except Fault (Json × Text))}
    {fuel depth : Nat}
    (sound : ∀ item ∈ nested?, ∃ inner, depth = inner + 1 ∧
      TakesOnly item (ValueText .strict inner)) :
    TakesOnly (readWith nested? fuel) (ValueText .strict depth) := by
  intro text value rest read_eq
  obtain ⟨before, beforeBlank, text_eq⟩ := exists_blanks_append_skipBlanks text
  suffices found : ∃ spelling, skipBlanks text = spelling ++ rest ∧
      ValueText .strict depth value spelling by
    rcases found with ⟨spelling, skipped, spelled⟩
    exact ⟨before, spelling, by rw [← skipped, ← text_eq], beforeBlank, spelled⟩
  unfold readWith at read_eq
  split at read_eq
  · contradiction
  · rename_i tail skipped
    obtain ⟨⟨content, behind⟩, string_eq, value_eq⟩ := exists_of_bind_eq_ok read_eq
    cases value_eq
    obtain ⟨tail, spelling, rfl, spelled, rfl⟩ := eq_append_of_readString string_eq
    exact ⟨quoted spelling, by rw [skipped]; simp [quoted], .string spelled⟩
  · rename_i tail skipped
    split at read_eq
    · contradiction
    · rename_i item
      obtain ⟨⟨elements, behind⟩, array_eq, value_eq⟩ := exists_of_bind_eq_ok read_eq
      cases value_eq
      obtain ⟨inner, rfl, itemSound⟩ := sound item rfl
      rw [skipped]
      exact exists_array_of_readArray itemSound array_eq
  · rename_i tail skipped
    split at read_eq
    · contradiction
    · rename_i item
      obtain ⟨⟨members, behind⟩, object_eq, value_eq⟩ := exists_of_bind_eq_ok read_eq
      cases value_eq
      obtain ⟨inner, rfl, itemSound⟩ := sound item rfl
      rw [skipped]
      exact exists_object_of_readObject itemSound object_eq
  · rename_i tail skipped
    obtain ⟨behind, word_eq, value_eq⟩ := exists_of_bind_eq_ok read_eq
    cases value_eq
    exact ⟨_, by rw [skipped, eq_append_of_readWord word_eq]; rfl, .nullWord⟩
  · rename_i tail skipped
    obtain ⟨behind, word_eq, value_eq⟩ := exists_of_bind_eq_ok read_eq
    cases value_eq
    exact ⟨_, by rw [skipped, eq_append_of_readWord word_eq]; rfl, .trueWord⟩
  · rename_i tail skipped
    obtain ⟨behind, word_eq, value_eq⟩ := exists_of_bind_eq_ok read_eq
    cases value_eq
    exact ⟨_, by rw [skipped, eq_append_of_readWord word_eq]; rfl, .falseWord⟩
  · rename_i c tail _ _ _ _ _ _ skipped
    split at read_eq
    · obtain ⟨⟨n, behind⟩, number_eq, value_eq⟩ := exists_of_bind_eq_ok read_eq
      cases value_eq
      obtain ⟨numeral, spelling, tail_eq, spelled, denotes⟩ := Numeral.eq_append_of_read number_eq
      exact ⟨spelling, by rw [skipped, tail_eq], .number spelled denotes⟩
    · contradiction

/-- What is read is a strict spelling of the value, perhaps behind blanks. -/
theorem takesOnly_readNested (fuel depth : Nat) :
    TakesOnly (readNested fuel depth) (ValueText .strict depth) := by
  induction depth with
  | zero => exact takesOnly_readWith (by simp)
  | succ depth ih =>
      refine takesOnly_readWith fun item item_eq => ⟨depth, rfl, ?_⟩
      cases item_eq
      exact ih

/-! ## Every strict spelling is read -/

theorem exists_readNested_eq (fuel depth : Nat) :
    ∃ nested?, readNested fuel depth = readWith nested? fuel := by
  cases depth with
  | zero => exact ⟨none, rfl⟩
  | succ depth => exact ⟨some (readNested fuel depth), rfl⟩

theorem readWith_numeral {nested? : Option (Text → Except Fault (Json × Text))} {fuel : Nat}
    {numeral : Numeral} {spelling rest : Text} (spelled : NumeralText numeral spelling)
    (boundary : AtBoundary rest) :
    readWith nested? fuel (spelling ++ rest) =
      (numeral.value rest).map fun n => (.number n, rest) := by
  have read_eq := Numeral.read_append spelled (prolongs_of_atBoundary boundary)
  obtain ⟨c, tail, rfl, starts⟩ := spelled.exists_cons
  have notBlank : isBlank c = false := by
    rcases starts with rfl | digit
    · rfl
    · exact isBlank_of_startsValue (startsValue_of_isDigit digit)
  unfold readWith
  rw [List.cons_append, skipBlanks_eq_self notBlank]
  -- a numeral does not start like any other value
  split
  · contradiction
  all_goals
    rename_i same
    cases same
  case h_8 =>
    rw [if_pos starts, ← List.cons_append, read_eq]
    cases numeral.value rest <;> rfl
  all_goals rcases starts with same | digit <;> contradiction

theorem readWith_number {nested? : Option (Text → Except Fault (Json × Text))} {fuel : Nat}
    {numeral : Numeral} {n : Number} {spelling rest : Text}
    (spelled : NumeralText numeral spelling) (denotes : numeral.value [] = .ok n)
    (boundary : AtBoundary rest) :
    readWith nested? fuel (spelling ++ rest) = .ok (.number n, rest) := by
  rw [readWith_numeral spelled boundary, Numeral.value_eq_ok_iff.mpr denotes]
  rfl

section Lengths

variable {α : Type}

theorem length_le_length_separated (parts : List (Part α)) :
    parts.length ≤ (separated parts).length + 1 := by
  induction parts with
  | nil => simp
  | cons part parts ih =>
      cases parts with
      | nil => simp
      | cons next parts =>
          rw [separated_cons_cons]
          simp only [List.length_cons, List.length_append] at ih ⊢
          omega

theorem length_spelling_le_length_separated {part : Part α} {parts : List (Part α)}
    (member : part ∈ parts) : part.spelling.length ≤ (separated parts).length := by
  induction parts with
  | nil => contradiction
  | cons first parts ih =>
      rw [separated_cons]
      rcases List.mem_cons.mp member with rfl | member
      · simp only [Part.text, List.length_append]
        omega
      · obtain ⟨next, parts, rfl⟩ := List.exists_cons_of_ne_nil (List.ne_nil_of_mem member)
        have shorter := ih member
        rw [separated_cons] at shorter
        simp only [List.flatMap_cons, List.length_append, List.length_cons] at shorter ⊢
        omega

end Lengths

theorem readable_element {depth fuel : Nat} {element : Part Json} (padded : element.Padded)
    (spelled : ValueText .strict depth element.value element.spelling)
    (takes : Takes (readNested fuel depth) element.value element.spelling) :
    element.Readable (readNested fuel depth) ']' := by
  refine ⟨padded, takes, ?_⟩
  obtain ⟨c, rest, spelling_eq, starts⟩ := spelled.exists_cons
  refine ⟨c, rest, spelling_eq, isBlank_of_startsValue starts, ?_⟩
  rintro rfl
  contradiction

theorem readNested_array {depth fuel : Nat} {elements : List (Part Json)}
    (nonempty : elements ≠ [])
    (readable : ∀ element ∈ elements, element.Readable (readNested fuel depth) ']')
    (enough : elements.length ≤ fuel) {blanks : Text} (blank : Blanks blanks) (rest : Text) :
    readNested fuel (depth + 1) ('[' :: (separated elements ++ (blanks ++ ']' :: rest))) =
      .ok (.array (elements.map Part.value), rest) := by
  have array_eq : readArray (readNested fuel depth) fuel
      (separated elements ++ (blanks ++ ']' :: rest)) = .ok (elements.map Part.value, rest) :=
    readContainer_separated (.inl rfl) nonempty readable enough blank rest
  simp [readNested, readWith, skipBlanks, isBlank, array_eq, bind, Except.bind]

theorem readable_entry {depth fuel : Nat} {entry : Entry} (padded : entry.Padded)
    (keySpelled : StringText .strict entry.key entry.keySpelling)
    (takes : Takes (readNested fuel depth) entry.element.value entry.element.spelling) :
    entry.part.Readable (readEntry (readNested fuel depth)) '\x7d' := by
  refine ⟨padded.part, ?_, '"', _, rfl, rfl, by decide⟩
  apply takes_readEntry padded keySpelled
  intro before blank rest boundary
  rw [List.append_assoc, readNested_blanks_append blank]
  exact takes boundary

theorem readNested_object {depth fuel : Nat} {entries : List Entry} (nonempty : entries ≠ [])
    (readable : ∀ entry ∈ entries,
      entry.part.Readable (readEntry (readNested fuel depth)) '\x7d')
    (enough : entries.length ≤ fuel) {blanks : Text} (blank : Blanks blanks) (rest : Text) :
    readNested fuel (depth + 1)
        ('\x7b' :: (separated (entries.map Entry.part) ++ (blanks ++ '\x7d' :: rest))) =
      .ok (.object (Members.ofEntries ((entries.map Entry.part).map Part.value)), rest) := by
  have container_eq : readContainer (readEntry (readNested fuel depth)) '\x7d' .unfinishedObject
      .expectedObjectCommaOrEnd fuel
      (separated (entries.map Entry.part) ++ (blanks ++ '\x7d' :: rest)) =
      .ok ((entries.map Entry.part).map Part.value, rest) :=
    readContainer_separated (.inr rfl) (by simpa using nonempty) (by simpa using readable)
      (by simpa using enough) blank rest
  have object_eq : readObject (readNested fuel depth) fuel
      (separated (entries.map Entry.part) ++ (blanks ++ '\x7d' :: rest)) =
      .ok (Members.ofEntries ((entries.map Entry.part).map Part.value), rest) := by
    rw [readObject, container_eq]
    rfl
  simp [readNested, readWith, skipBlanks, isBlank, object_eq, bind, Except.bind]

/-- A value is read whole wherever nothing prolongs it. -/
theorem readNested_append {depth fuel : Nat} {value : Json} {spelling rest : Text}
    (spelled : ValueText .strict depth value spelling) (enough : spelling.length ≤ fuel)
    (ends : EndsBefore value rest) :
    readNested fuel depth (spelling ++ rest) = .ok (value, rest) := by
  induction spelled generalizing rest with
  | @nullWord depth =>
      obtain ⟨nested?, read_eq⟩ := exists_readNested_eq fuel depth
      rw [read_eq]
      rfl
  | @trueWord depth =>
      obtain ⟨nested?, read_eq⟩ := exists_readNested_eq fuel depth
      rw [read_eq]
      rfl
  | @falseWord depth =>
      obtain ⟨nested?, read_eq⟩ := exists_readNested_eq fuel depth
      rw [read_eq]
      rfl
  | @number depth _ _ _ spelled denotes =>
      obtain ⟨nested?, read_eq⟩ := exists_readNested_eq fuel depth
      have boundary : AtBoundary rest := ends.resolve_left (by simp [Document.isSelfDelimiting])
      rw [read_eq]
      exact readWith_number spelled denotes boundary
  | @string depth _ _ spelled =>
      obtain ⟨nested?, read_eq⟩ := exists_readNested_eq fuel depth
      have string_eq := readString_append spelled [] rest
      rw [read_eq]
      simp [quoted, readWith, skipBlanks, isBlank, string_eq, bind, Except.bind]
  | @emptyArray depth blanks blank =>
      have array_eq : readArray (readNested fuel depth) fuel (blanks ++ ']' :: rest) =
          .ok ([], rest) := readContainer_empty (.inl rfl) blank rest
      simp [readNested, readWith, skipBlanks, isBlank, array_eq, bind, Except.bind]
  | @array depth elements ending nonempty padded spelled ending_ends ih =>
      cases ending_ends with
      | comma tolerant => contradiction
      | blanks blank =>
          have lengths := length_le_length_separated elements
          simp only [List.length_cons, List.length_append, List.length_nil] at enough
          have readable : ∀ element ∈ elements,
              element.Readable (readNested fuel depth) ']' := by
            intro element member
            have shorter := length_spelling_le_length_separated member
            exact readable_element (padded element member) (spelled element member)
              fun rest boundary => ih element member (by omega) (.inr boundary)
          simpa using readNested_array nonempty readable (by omega) blank rest
  | @emptyObject depth blanks blank =>
      have container_eq : readContainer (readEntry (readNested fuel depth)) '\x7d'
          .unfinishedObject .expectedObjectCommaOrEnd fuel (blanks ++ '\x7d' :: rest) =
          .ok ([], rest) := readContainer_empty (.inr rfl) blank rest
      simp [readNested, readWith, readObject, skipBlanks, isBlank, container_eq, bind,
        Except.bind, Members.ofEntries]
  | @object depth entries ending nonempty padded keys spelled ending_ends ih =>
      cases ending_ends with
      | comma tolerant => contradiction
      | blanks blank =>
          have lengths := length_le_length_separated (entries.map Entry.part)
          simp only [List.length_cons, List.length_append, List.length_nil,
            List.length_map] at enough lengths
          have readable : ∀ entry ∈ entries,
              entry.part.Readable (readEntry (readNested fuel depth)) '\x7d' := by
            intro entry member
            have partMember : entry.part ∈ entries.map Entry.part := List.mem_map_of_mem member
            have shorter := length_spelling_le_length_separated partMember
            have enoughInner : entry.element.spelling.length ≤ fuel := by
              simp only [Entry.part, List.length_append, List.length_cons] at shorter
              omega
            exact readable_entry (padded entry member) (keys entry member)
              fun rest boundary => ih entry member enoughInner (.inr boundary)
          simpa using readNested_object nonempty readable (by omega) blank rest

/-! ## Whole texts -/

/-- What is read from a text is the first value spelled in it. -/
theorem exists_of_readValue {text rest : Text} {value : Json}
    (read_eq : readValue text = .ok (value, rest)) :
    ∃ before spelling, text = before ++ (spelling ++ rest) ∧ Blanks before ∧
      ValueText .strict depthLimit value spelling :=
  takesOnly_readNested text.length depthLimit read_eq

theorem readValue_append {value : Json} {before spelling rest : Text} (blank : Blanks before)
    (spelled : ValueText .strict depthLimit value spelling) (ends : EndsBefore value rest) :
    readValue (before ++ (spelling ++ rest)) = .ok (value, rest) := by
  rw [readValue, readNested_blanks_append blank]
  refine readNested_append spelled ?_ ends
  simp only [List.length_append]
  omega

end LogIntake.Json
