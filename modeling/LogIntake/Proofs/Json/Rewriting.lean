import Mathlib.Data.List.FinRange
import Mathlib.Data.List.TakeWhile
import LogIntake.Proofs.Json.Standard

/-!
# What mending rewrites

Mending keeps track of the characters that it has written and looks ahead in those that it
has not, but what it writes for a character can be told from the text as it was given: from
the place in which the quotes in front put it and from its nearest neighbours on both sides.
A comma that is dropped is neighbour to no other comma, so no decision depends on an earlier
one.

A text that has been mended is not rewritten again, and neither is one in standard notation.
-/

namespace LogIntake.Json

/-! ## Places and neighbours -/

/-- Where the quotes in front of a character put it. -/
inductive Place
  | outside
  | inside
  /-- Inside a string, right behind a backslash that escapes. -/
  | escaped
deriving DecidableEq

/-- The place behind a character. A quote that is not escaped opens or closes a string. -/
def Place.next (c : Char) : Place → Place
  | .outside => if c = '"' then .inside else .outside
  | .inside => if c = '"' then .outside else if c = '\\' then .escaped else .inside
  | .escaped => .inside

/-- The place behind a text. -/
def placeBehind (front : Text) : Place :=
  front.foldl (fun place c => place.next c) .outside

/-- The first character that is not blank. -/
def nearest (text : Text) : Option Char :=
  text.find? fun c => !isBlank c

/-- Whether a comma with the given text on either side follows a value and ends the list of
its container. -/
def IsTrailing (front back : Text) : Prop :=
  (∃ c ∈ nearest front.reverse, c ≠ '\x7b' ∧ c ≠ '[' ∧ c ≠ ',') ∧
    ∃ c ∈ nearest back, c = '\x7d' ∨ c = ']'

instance (front back : Text) : Decidable (IsTrailing front back) :=
  inferInstanceAs (Decidable (_ ∧ _))

/-- What is to be written for a character with the given text on either side. -/
def rewritten (front : Text) (c : Char) (back : Text) : Text :=
  match placeBehind front with
  | .outside => if c = ',' ∧ IsTrailing front back then [] else [c]
  | .inside =>
    if c.toNat < 0x20 then
      ['\\', 'u', '0', '0', (c.toNat / 16).digitChar, (c.toNat % 16).digitChar]
    else [c]
  | .escaped => [c]

@[simp]
theorem placeBehind_concat (front : Text) (c : Char) :
    placeBehind (front ++ [c]) = (placeBehind front).next c :=
  List.foldl_concat ..

@[simp]
theorem nearest_cons (c : Char) (text : Text) :
    nearest (c :: text) = if isBlank c then nearest text else some c := by
  cases blank : isBlank c <;> simp [nearest, blank]

theorem beforeEnd_iff_nearest {text : Text} :
    BeforeEnd text ↔ ∃ c ∈ nearest text, c = '\x7d' ∨ c = ']' := by
  have nearest_eq : nearest text = (skipBlanks text).head? :=
    List.find?_not_eq_head?_dropWhile isBlank text
  rw [beforeEnd_iff, nearest_eq]
  cases skipBlanks text with
  | nil => simp
  | cons c rest => simp [Closes, or_comm]

theorem beforeEnd_cons {c : Char} {text : Text} :
    BeforeEnd (c :: text) ↔ if isBlank c then BeforeEnd text else Closes c := by
  simp only [beforeEnd_iff_nearest, nearest_cons]
  cases isBlank c <;> simp [Closes, or_comm]

theorem isTrailing_iff {front back : Text} :
    IsTrailing front back ↔ isSuperfluousComma (nearest front.reverse) back = true := by
  rw [isSuperfluousComma_iff, beforeEnd_iff_nearest]
  rfl

/-! ## Steps -/

/-- The region agrees with the text in front. Behind a comma that has been dropped its last
character does not, but there the end of a container comes next, and no other comma. -/
def Region.Agrees (front back : Text) : Region → Prop
  | .outside last =>
    placeBehind front = .outside ∧ (last = nearest front.reverse ∨ BeforeEnd back)
  | .inside => placeBehind front = .inside
  | .escaped => placeBehind front = .escaped

theorem rewritten_outside {front back : Text} {c : Char} (place_eq : placeBehind front = .outside)
    (notComma : c ≠ ',') : rewritten front c back = [c] := by
  simp [rewritten, place_eq, notComma]

theorem mendStep_comma {front back : Text} {last : Option Char}
    (agrees : (Region.outside last).Agrees front (',' :: back)) :
    (mendStep (.outside last) ',' back).1 = rewritten front ',' back ∧
      (mendStep (.outside last) ',' back).2.Agrees (front ++ [',']) back := by
  rcases agrees with ⟨place_eq, agrees⟩
  have notBeforeEnd : ¬ BeforeEnd (',' :: back) := by
    rw [beforeEnd_cons]
    exact (by decide : ¬ (',' = ']' ∨ ',' = '\x7d'))
  have last_eq := agrees.resolve_right notBeforeEnd
  subst last_eq
  have place_eq' : placeBehind (front ++ [',']) = .outside := by
    rw [placeBehind_concat, place_eq]
    rfl
  cases superfluous : isSuperfluousComma (nearest front.reverse) back with
  | true =>
      have trailing : IsTrailing front back := isTrailing_iff.mpr superfluous
      have beforeEnd : BeforeEnd back := (isSuperfluousComma_iff.mp superfluous).2
      simp [mendStep, rewritten, superfluous, place_eq, trailing, Region.Agrees, place_eq',
        beforeEnd]
  | false =>
      have notTrailing : ¬ IsTrailing front back := by
        rw [isTrailing_iff, superfluous]
        exact Bool.false_ne_true
      simp [mendStep, rewritten, superfluous, place_eq, notTrailing, Region.Agrees, place_eq',
        isBlank]

/-- What a step writes can be told from the text in front. -/
theorem mendStep_spec {front back : Text} {region : Region} {c : Char}
    (agrees : region.Agrees front (c :: back)) :
    (mendStep region c back).1 = rewritten front c back ∧
      (mendStep region c back).2.Agrees (front ++ [c]) back := by
  cases region with
  | outside last =>
      by_cases isComma : c = ','
      · subst isComma
        exact mendStep_comma agrees
      rcases agrees with ⟨place_eq, agrees⟩
      rw [rewritten_outside place_eq isComma]
      by_cases isQuote : c = '"'
      · simp [mendStep, isQuote, Region.Agrees, place_eq, Place.next]
      · rw [beforeEnd_cons] at agrees
        cases blank : isBlank c with
        | true =>
            rw [blank, if_pos rfl] at agrees
            simp [mendStep, isQuote, isComma, Region.Agrees, place_eq, Place.next, blank, agrees]
        | false => simp [mendStep, isQuote, isComma, Region.Agrees, place_eq, Place.next, blank]
  | inside =>
      have place_eq : placeBehind front = .inside := agrees
      by_cases isQuote : c = '"'
      · simp [mendStep, isQuote, rewritten, Region.Agrees, place_eq, Place.next, isBlank]
      by_cases isBackslash : c = '\\'
      · simp [mendStep, isBackslash, rewritten, Region.Agrees, place_eq, Place.next]
      by_cases low : c.toNat < 0x20
      · simp [mendStep, isQuote, isBackslash, mendedChar, low, (unicodeEscape_eq low).1, rewritten,
          Region.Agrees, place_eq, Place.next]
      · simp [mendStep, isQuote, isBackslash, mendedChar, low, rewritten, Region.Agrees, place_eq,
          Place.next]
  | escaped =>
      have place_eq : placeBehind front = .escaped := agrees
      simp [mendStep, rewritten, Region.Agrees, place_eq, Place.next]

/-! ## Whole texts -/

/-- From any place on, what is written is put together character by character. -/
theorem mendedFrom_eq_flatMap {front text : Text} {region : Region}
    (agrees : region.Agrees front text) :
    mendedFrom region text = (List.finRange text.length).flatMap fun i : Fin text.length =>
      rewritten (front ++ text.take i) text[i] (text.drop (i + 1)) := by
  induction text generalizing front region with
  | nil => rfl
  | cons c text ih =>
      rcases mendStep_spec agrees with ⟨written_eq, agrees⟩
      have places_eq : List.finRange (c :: text).length =
          ⟨0, Nat.zero_lt_succ _⟩ :: (List.finRange text.length).map Fin.succ :=
        List.finRange_succ
      rw [mendedFrom_cons, written_eq, ih agrees, places_eq, List.flatMap_cons, List.flatMap_map]
      simp

theorem not_mayEndValue_comma : ¬ MayEndValue (some ',') := by
  rintro ⟨_, ⟨⟩, -, -, notComma⟩
  exact notComma rfl

/-- Behind a character that ends no value, mending brings no end of a container nearer. -/
theorem beforeEnd_of_mendedFrom {last : Option Char} {text : Text} (notEnd : ¬ MayEndValue last)
    (beforeEnd : BeforeEnd (mendedFrom (.outside last) text)) : BeforeEnd text := by
  induction text with
  | nil => exact beforeEnd
  | cons d tail ih =>
      rw [beforeEnd_cons]
      rcases mendedFrom_outside_cases last d tail with
        ⟨blank, step⟩ | ⟨_, _, _, _, mayEnd, _⟩ | ⟨notBlank, step⟩
      · rw [step, beforeEnd_cons, if_pos blank] at beforeEnd
        rw [if_pos blank]
        exact ih beforeEnd
      · contradiction
      · rw [step, beforeEnd_cons, notBlank] at beforeEnd
        rw [notBlank]
        exact beforeEnd

theorem mendedFrom_escaped (c : Char) (text : Text) :
    mendedFrom .escaped (c :: text) = c :: mendedFrom .inside text := by
  simp [mendedFrom_cons, mendStep]

theorem mendedFrom_backslash (text : Text) :
    mendedFrom .inside ('\\' :: text) = '\\' :: mendedFrom .escaped text := by
  simp [mendedFrom_cons, mendStep]

/-- What has been mended from some region on is not changed by mending it from there. -/
theorem mendedFrom_mendedFrom (region : Region) (text : Text) :
    mendedFrom region (mendedFrom region text) = mendedFrom region text := by
  induction text generalizing region with
  | nil => rfl
  | cons c text ih =>
      cases region with
      | escaped => rw [mendedFrom_escaped, mendedFrom_escaped, ih]
      | inside =>
          by_cases isQuote : c = '"'
          · rw [isQuote, mendedFrom_closingQuote, mendedFrom_closingQuote, ih]
          by_cases isBackslash : c = '\\'
          · rw [isBackslash, mendedFrom_backslash, mendedFrom_backslash, ih]
          by_cases low : c.toNat < 0x20
          · rw [mendedFrom_control low, mendedFrom_codeUnit (unicodeEscape_eq low).2, ih]
          · rw [mendedFrom_printable isQuote isBackslash low,
              mendedFrom_printable isQuote isBackslash low, ih]
      | outside last =>
          by_cases isComma : c = ','
          · subst isComma
            by_cases superfluous : MayEndValue last ∧ BeforeEnd text
            · rw [mendedFrom_superfluous superfluous.1 superfluous.2, ih]
            · have kept : ¬ (MayEndValue last ∧
                  BeforeEnd (mendedFrom (.outside (some ',')) text)) := by
                rintro ⟨mayEnd, beforeEnd⟩
                exact superfluous ⟨mayEnd, beforeEnd_of_mendedFrom not_mayEndValue_comma beforeEnd⟩
              rw [mendedFrom_comma superfluous, mendedFrom_comma kept, ih]
          by_cases isQuote : c = '"'
          · rw [isQuote, mendedFrom_quote, mendedFrom_quote, ih]
          cases blank : isBlank c with
          | true => rw [mendedFrom_blank blank, mendedFrom_blank blank, ih]
          | false =>
              have plain : isPlain c = true := by simp [isPlain, blank, isQuote, isComma]
              rw [mendedFrom_plain plain, mendedFrom_plain plain, ih]

/-- Mending a text again changes nothing, and neither does mending one in standard notation,
which every text is that the reader takes as it stands. Every other text, unfinished strings
and escapes included, is put together from what is to be written for each of its characters,
in their order. -/
theorem mend_stable_and_minimal (text : Text) :
    mend (mend text) = mend text ∧
      (IsStandard text → mend text = text) ∧
      (∀ value, ofText text = .ok value → IsStandard text) ∧
      mend text = (List.finRange text.length).flatMap fun i : Fin text.length =>
        rewritten (text.take i) text[i] (text.drop (i + 1)) := by
  constructor
  · rw [mend_eq, mend_eq, mendedFrom_mendedFrom]
  constructor
  · exact IsStandard.mend_eq
  constructor
  · intro value
    exact isStandard_of_ofText
  · have agrees : (Region.outside none).Agrees [] text := ⟨rfl, .inl rfl⟩
    rw [mend_eq, mendedFrom_eq_flatMap agrees]
    simp only [List.nil_append]

/-- Standard notation: an escape and a comma inside a string, and commas between parts. -/
def standardDocument : Text :=
  "\x7b\"a\": [1, \",]\\n\"], \"b\": \x7b\x7d\x7d".toList

theorem mend_standardDocument :
    IsStandard standardDocument ∧ mend standardDocument = standardDocument := by
  have read_eq : ofText standardDocument = .ok (.object
      [(['a'], .array [.number (.integer 1), .string [',', ']', '\n']]), (['b'], .object [])]) :=
    toOption_eq_some_iff.mp (by decide +kernel)
  obtain ⟨-, keeps, reads, -⟩ := mend_stable_and_minimal standardDocument
  have standard := reads _ read_eq
  exact ⟨standard, keeps standard⟩

end LogIntake.Json
