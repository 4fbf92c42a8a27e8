import LogIntake.Charset.Basic
import LogIntake.Proofs.Charset.Utf16
import LogIntake.Proofs.Charset.Utf8

/-!
# Bytes that are cut off

Bytes that have been cut off hold the text of the whole up to the character at which they
break off. This may leave replacements, of which the whole text knows nothing: one for an
unfinished sequence or for a surrogate that waits, and one for half a code unit.
-/

namespace LogIntake.Charset

/-- A text of which something is missing at the end, where replacements may stand instead. -/
def IsCutFrom (cut whole : Text) : Prop :=
  ∃ written marks rest, cut = written ++ marks ∧ whole = written ++ rest ∧ rest ≠ [] ∧
    ∀ c ∈ marks, c = replacement

theorem IsCutFrom.append_left {cut whole : Text} (isCut : IsCutFrom cut whole) (front : Text) :
    IsCutFrom (front ++ cut) (front ++ whole) := by
  obtain ⟨written, marks, rest, rfl, rfl, missing, replaced⟩ := isCut
  exact ⟨front ++ written, marks, rest, by simp, by simp, missing, replaced⟩

/-- Nothing but replacements is left of a text. -/
theorem isCutFrom_of_forall {marks whole : Text} (replaced : ∀ c ∈ marks, c = replacement)
    (nonempty : whole ≠ []) : IsCutFrom marks whole :=
  ⟨[], marks, whole, rfl, rfl, nonempty, replaced⟩

theorem isCutFrom_map {f : UInt8 → Char} {front back : List UInt8} (cut : back ≠ []) :
    IsCutFrom (front.map f) ((front ++ back).map f) :=
  ⟨front.map f, [], back.map f, by simp, List.map_append, by simpa using cut, nofun⟩

/-! ## UTF-8 -/

namespace Utf8

/-- Every byte gives a character or is held. -/
theorem step_ne_nil (pending? : Option Pending) (byte : Nat) :
    (step pending? byte).1 ≠ [] ∨ (step pending? byte).2.isSome = true := by
  have starts : (start byte).1 ≠ [] ∨ (start byte).2.isSome = true := by
    unfold start
    split
    · exact .inl (List.cons_ne_nil _ _)
    · cases begin? byte with
      | none => exact .inl (List.cons_ne_nil _ _)
      | some pending => exact .inr rfl
  unfold step
  split
  · exact starts
  · split
    · dsimp only
      split
      · exact .inl (List.cons_ne_nil _ _)
      · exact .inr rfl
    · exact .inl (List.cons_ne_nil _ _)

theorem decodeFrom_ne_nil {pending? : Option Pending} {bytes : List UInt8}
    (more : pending?.isSome = true ∨ bytes ≠ []) : decodeFrom pending? [] bytes ≠ [] := by
  induction bytes generalizing pending? with
  | nil =>
      have held : pending?.isSome = true := more.resolve_right fun nonempty => nonempty rfl
      simp [decodeFrom, held]
  | cons byte rest ih =>
      rw [decodeFrom_byte]
      rcases step_ne_nil pending? byte.toNat with given | held
      · exact List.append_ne_nil_of_left_ne_nil given _
      · exact List.append_ne_nil_of_right_ne_nil _ (ih (.inl held))

theorem isCutFrom_decodeFrom (pending? : Option Pending) (front : List UInt8)
    {back : List UInt8} (cut : back ≠ []) :
    IsCutFrom (decodeFrom pending? [] front) (decodeFrom pending? [] (front ++ back)) := by
  induction front generalizing pending? with
  | nil =>
      refine isCutFrom_of_forall ?_ (decodeFrom_ne_nil (.inr cut))
      cases pending? <;> simp [decodeFrom]
  | cons byte front ih =>
      rw [List.cons_append, decodeFrom_byte, decodeFrom_byte]
      exact (ih _).append_left _

end Utf8

/-! ## UTF-16 -/

namespace Utf16

variable {order : ByteOrder}

/-- Every code unit gives a character or waits. -/
theorem step_ne_nil (waiting? : Option Nat) (unit : Nat) :
    (step waiting? unit).1 ≠ [] ∨ (step waiting? unit).2.isSome = true := by
  have starts : (start unit).1 ≠ [] ∨ (start unit).2.isSome = true := by
    unfold start
    split
    · exact .inr rfl
    · split <;> exact .inl (List.cons_ne_nil _ _)
  unfold step
  split
  · exact starts
  · split <;> exact .inl (List.cons_ne_nil _ _)

theorem decodeFrom_ne_nil : ∀ {waiting? : Option Nat} {bytes : List UInt8},
    waiting?.isSome = true ∨ bytes ≠ [] → decodeFrom order waiting? [] bytes ≠ []
  | _, [], more => by
      simp [decodeFrom, finish, more.resolve_right fun nonempty => nonempty rfl]
  | _, [_], _ => by
      simp [decodeFrom]
  | waiting?, first :: second :: rest, _ => by
      rw [decodeFrom_pair]
      rcases step_ne_nil waiting? (unit order first second) with given | waits
      · exact List.append_ne_nil_of_left_ne_nil given _
      · exact List.append_ne_nil_of_right_ne_nil _ (decodeFrom_ne_nil (.inl waits))

theorem isCutFrom_decodeFrom {back : List UInt8} (cut : back ≠ []) :
    ∀ (waiting? : Option Nat) (front : List UInt8),
      IsCutFrom (decodeFrom order waiting? [] front) (decodeFrom order waiting? [] (front ++ back))
  | waiting?, [] => by
      refine isCutFrom_of_forall ?_ (decodeFrom_ne_nil (.inr cut))
      cases waiting? <;> simp [decodeFrom, finish]
  | waiting?, [byte] => by
      refine isCutFrom_of_forall ?_ (decodeFrom_ne_nil (.inr (List.cons_ne_nil byte back)))
      cases waiting? <;> simp [decodeFrom, finish]
  | waiting?, first :: second :: rest => by
      rw [List.cons_append, List.cons_append, decodeFrom_pair, decodeFrom_pair]
      exact (isCutFrom_decodeFrom cut _ rest).append_left _

/-- Two bytes tell whether there is a mark. -/
theorem decodeMarked_pair (first second : UInt8) (rest : List UInt8) :
    decodeMarked (first :: second :: rest) =
      if [first, second] = mark .bigEndian then decode .bigEndian rest
      else if [first, second] = mark .littleEndian then decode .littleEndian rest
      else decode .bigEndian (first :: second :: rest) := by
  split
  · rename_i marked
    cases marked
    rfl
  · split
    · rename_i marked
      cases marked
      rfl
    · rename_i notBig notLittle
      apply decodeMarked_of_unmarked
      rintro (_ | _) others bytes_eq
      · cases bytes_eq
        exact notBig rfl
      · cases bytes_eq
        exact notLittle rfl

theorem isCutFrom_decodeMarked {front back : List UInt8} (cut : back ≠ [])
    (nonempty : decodeMarked (front ++ back) ≠ []) :
    IsCutFrom (decodeMarked front) (decodeMarked (front ++ back)) :=
  match front with
  | [] => isCutFrom_of_forall nofun nonempty
  | [_] => isCutFrom_of_forall (by simp [decodeMarked, decode, decodeFrom, finish]) nonempty
  | first :: second :: rest => by
      rw [List.cons_append, List.cons_append, decodeMarked_pair, decodeMarked_pair]
      split
      · exact isCutFrom_decodeFrom cut none rest
      · split
        · exact isCutFrom_decodeFrom cut none rest
        · exact isCutFrom_decodeFrom cut none (first :: second :: rest)

end Utf16

/-! ## All charsets -/

/-- Cutting off bytes cuts off their text. -/
theorem isCutFrom_decode (charset : Charset) {front back : List UInt8} (cut : back ≠ [])
    (nonempty : charset.decode (front ++ back) ≠ []) :
    IsCutFrom (charset.decode front) (charset.decode (front ++ back)) := by
  cases charset with
  | utf8 => exact Utf8.isCutFrom_decodeFrom none front cut
  | usAscii => exact isCutFrom_map cut
  | latin1 => exact isCutFrom_map cut
  | utf16 => exact Utf16.isCutFrom_decodeMarked cut nonempty
  | utf16BE => exact Utf16.isCutFrom_decodeFrom cut none front
  | utf16LE => exact Utf16.isCutFrom_decodeFrom cut none front

end LogIntake.Charset
