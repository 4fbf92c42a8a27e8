import LogIntake.Event

/-!
# Runs of logged computations

The result of a run over a list depends on the results of its steps alone. What a
computation notes is followed through the same operations: a property of every
noted event holds of a whole run when it holds of each step.
-/

namespace LogIntake.Logged

variable {α β : Type}

theorem value_foldlM (step : β → α → Logged β) (start : β) (items : List α) :
    (items.foldlM step start).value =
      items.foldl (fun state item => (step state item).value) start := by
  induction items generalizing start with
  | nil => rfl
  | cons item items ih =>
      rw [List.foldlM_cons, value_bind, ih, List.foldl_cons]

/-- What a step notes in its turn is noted by the whole run. -/
theorem mem_events_foldlM {step : β → α → Logged β} {start : β} {front back : List α} {item : α}
    {event : Event}
    (noted : event ∈
      (step (front.foldl (fun state item => (step state item).value) start) item).events) :
    event ∈ ((front ++ item :: back).foldlM step start).events := by
  induction front generalizing start with
  | nil =>
      rw [List.nil_append, List.foldlM_cons, events_bind]
      exact List.mem_append_left _ noted
  | cons first front ih =>
      rw [List.cons_append, List.foldlM_cons, events_bind]
      exact List.mem_append_right _ (ih noted)

/-- Every event that a computation notes has a property. -/
def Notes (p : Event → Prop) (logged : Logged α) : Prop :=
  ∀ event ∈ logged.events, p event

section Notes

variable {p : Event → Prop}

theorem notes_pure (value : α) : Notes p (pure value) := by
  simp [Notes]

theorem notes_note {event : Event} : Notes p (note event) ↔ p event := by
  simp [Notes]

theorem Notes.bind {first : Logged α} {next : α → Logged β} (firstNotes : Notes p first)
    (nextNotes : Notes p (next first.value)) : Notes p (first >>= next) := by
  intro event member
  rcases List.mem_append.mp member with member | member
  · exact firstNotes event member
  · exact nextNotes event member

theorem Notes.note_bind {event : Event} {next : Unit → Logged β} (has : p event)
    (nextNotes : Notes p (next ())) : Notes p (note event >>= next) :=
  (notes_note.mpr has).bind nextNotes

theorem Notes.foldlM {step : β → α → Logged β} {items : List α}
    (stepNotes : ∀ state, ∀ item ∈ items, Notes p (step state item)) (start : β) :
    Notes p (items.foldlM step start) := by
  induction items generalizing start with
  | nil => exact notes_pure start
  | cons item items ih =>
      rw [List.foldlM_cons]
      refine (stepNotes start item List.mem_cons_self).bind (ih ?_ _)
      exact fun state item member => stepNotes state item (List.mem_cons_of_mem _ member)

end Notes

end LogIntake.Logged
