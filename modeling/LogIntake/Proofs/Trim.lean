import Mathlib.Data.List.TakeWhile
import LogIntake.Text.Basic

/-!
# Trimming

A trimmed text neither starts nor ends with a blank, and a text that does neither
is trimmed already.
-/

namespace LogIntake.Text

/-- A text that neither starts nor ends with a blank. -/
def Trimmed (text : Text) : Prop :=
  (∀ c ∈ text.head?, isBlankChar c = false) ∧ ∀ c ∈ text.getLast?, isBlankChar c = false

theorem trimStart_eq_self {text : Text} (starts : ∀ c ∈ text.head?, isBlankChar c = false) :
    text.trimStart = text := by
  cases text with
  | nil => rfl
  | cons c rest => simp [trimStart, starts c rfl]

theorem trimEnd_eq_self {text : Text} (ends : ∀ c ∈ text.getLast?, isBlankChar c = false) :
    text.trimEnd = text := by
  have starts : ∀ c ∈ text.reverse.head?, isBlankChar c = false := by
    rwa [List.head?_reverse]
  have kept : text.reverse.dropWhile isBlankChar = text.reverse := trimStart_eq_self starts
  rw [trimEnd, kept, List.reverse_reverse]

theorem Trimmed.trim_eq {text : Text} (trimmed : Trimmed text) : text.trim = text := by
  rw [trim, trimStart_eq_self trimmed.1, trimEnd_eq_self trimmed.2]

theorem trimStart_append_of_isBlank {before : Text} (blank : before.isBlank = true)
    (text : Text) : (before ++ text).trimStart = text.trimStart :=
  List.dropWhile_append_of_pos (List.all_eq_true.mp blank)

theorem trimEnd_append_of_isBlank {after : Text} (blank : after.isBlank = true) (text : Text) :
    (text ++ after).trimEnd = text.trimEnd := by
  have reversed : isBlank after.reverse = true := List.all_reverse.trans blank
  rw [trimEnd, List.reverse_append]
  exact congrArg List.reverse (trimStart_append_of_isBlank reversed text.reverse)

theorem trimStart_head? (text : Text) : ∀ c ∈ text.trimStart.head?, isBlankChar c = false := by
  intro c head
  have stop := List.head?_dropWhile_not isBlankChar text
  rw [show (text.dropWhile isBlankChar).head? = some c from head] at stop
  simpa using stop

theorem trimEnd_getLast? (text : Text) : ∀ c ∈ text.trimEnd.getLast?, isBlankChar c = false := by
  rw [trimEnd, List.getLast?_reverse]
  exact trimStart_head? text.reverse

/-- Trimming the end takes nothing off the start unless nothing remains. -/
theorem trimEnd_head? (text : Text) : ∀ c ∈ text.trimEnd.head?, c ∈ text.head? := by
  intro c head
  have isPrefix : text.trimEnd <+: text := by
    have isSuffix := List.dropWhile_suffix isBlankChar (l := text.reverse)
    rw [← List.reverse_reverse text]
    simpa [trimEnd] using List.reverse_prefix.mpr isSuffix
  rcases isPrefix with ⟨rest, text_eq⟩
  rcases List.head?_eq_some_iff.mp head with ⟨tail, trimmed_eq⟩
  rw [← text_eq, trimmed_eq]
  rfl

theorem trimmed_trim (text : Text) : Trimmed text.trim := by
  constructor
  · intro c head
    exact trimStart_head? text c (trimEnd_head? _ c head)
  · exact trimEnd_getLast? _

@[simp]
theorem trim_trim (text : Text) : text.trim.trim = text.trim :=
  (trimmed_trim text).trim_eq

theorem trim_eq_nil_of_isBlank {text : Text} (blank : text.isBlank = true) : text.trim = [] := by
  have start_eq : text.trimStart = [] :=
    List.dropWhile_eq_nil_iff.mpr (List.all_eq_true.mp blank)
  rw [trim, start_eq]
  rfl

/-- Trimming leaves something of a text that is not blank. -/
theorem trim_ne_nil {text : Text} (filled : text.isBlank = false) : text.trim ≠ [] := by
  intro empty
  have blanks : ∀ c ∈ text.trimStart, isBlankChar c = true := by
    rw [trim, trimEnd, List.reverse_eq_nil_iff, List.dropWhile_eq_nil_iff] at empty
    simpa using empty
  cases start_eq : text.trimStart with
  | nil =>
      rw [trimStart, List.dropWhile_eq_nil_iff] at start_eq
      rw [isBlank, List.all_eq_true.mpr start_eq] at filled
      contradiction
  | cons c rest =>
      have notBlank := trimStart_head? text c (by rw [start_eq]; rfl)
      rw [blanks c (by simp [start_eq])] at notBlank
      contradiction

theorem trimmed_iff {text : Text} : Trimmed text ↔ text.trim = text := by
  constructor
  · exact Trimmed.trim_eq
  · intro trim_eq
    rw [← trim_eq]
    exact trimmed_trim text

end LogIntake.Text
