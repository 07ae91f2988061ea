import Mathlib.Data.List.Basic

/-!
# Folds and the prefix they have read

A property of the prefix read so far and of the accumulator that every item
keeps holds of the whole list when the fold ends.
-/

namespace OpenExec.PrefixFold

variable {α β : Type*} {step : β → α → β}

theorem foldl_prefix {items : List α} {start : β}
    (property : List α → β → Prop) (initially : property [] start)
    (kept : ∀ {done rest : List α} {item : α} {accumulator : β}, items = done ++ item :: rest →
      property done accumulator → property (done ++ [item]) (step accumulator item)) :
    property items (items.foldl step start) := by
  have suffixes (rest done : List α) (accumulator : β) (split : items = done ++ rest)
      (reached : property done accumulator) : property items (rest.foldl step accumulator) := by
    induction rest generalizing done accumulator with
    | nil =>
      rw [List.append_nil] at split
      exact split ▸ reached
    | cons item rest ih =>
      apply ih (done ++ [item])
      · simpa using split
      · exact kept split reached
  exact suffixes items [] start rfl initially

/-- A fold whose every item may add something holds what some item added. -/
theorem foldl_mem_iff (holds : β → Prop) (adds : α → Prop) (added : ∀ (accumulator : β) (item : α),
      holds (step accumulator item) ↔ holds accumulator ∨ adds item)
    (items : List α) (start : β) :
    holds (items.foldl step start) ↔ holds start ∨ ∃ item ∈ items, adds item := by
  induction items generalizing start with
  | nil => simp
  | cons item items ih =>
    rw [List.foldl_cons, ih, added]
    simp [or_assoc]

end OpenExec.PrefixFold
