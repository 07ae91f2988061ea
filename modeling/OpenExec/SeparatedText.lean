import Mathlib.Data.List.TakeWhile

/-!
# Texts of separated pieces

A text that is cut at a separator is known by its pieces.
-/

namespace OpenExec.SeparatedText

open List

variable {α : Type*} {separator : α} {text piece : List α}

theorem intercalate_append {left right : List (List α)} (leftSome : left ≠ [])
    (rightSome : right ≠ []) : [separator].intercalate (left ++ right) =
      [separator].intercalate left ++ separator :: [separator].intercalate right := by
  induction left with
  | nil => exact absurd rfl leftSome
  | cons head left ih =>
    by_cases last : left = []
    · simp [last, intercalate_cons_of_ne_nil rightSome]
    · rw [cons_append, intercalate_cons_of_ne_nil (by simp [last]), ih last,
        intercalate_cons_of_ne_nil last]
      simp

theorem intercalate_cons (head : List α) (tail : List (List α)) :
    [separator].intercalate (head :: tail) =
      head ++ tail.flatMap fun piece => separator :: piece := by
  induction tail generalizing head with
  | nil => simp
  | cons next tail ih =>
    rw [intercalate_cons_cons, ih]
    simp

variable [DecidableEq α]

theorem not_mem_of_mem_splitOn (isPiece : piece ∈ text.splitOn separator) : separator ∉ piece := by
  induction text generalizing piece with
  | nil => simp_all
  | cons x text ih =>
    rw [splitOn_cons_eq_if_modifyHead] at isPiece
    obtain ⟨head, tail, cut⟩ := exists_cons_of_ne_nil (splitOn_ne_nil separator text)
    rw [cut] at ih isPiece
    split at isPiece
    · rcases mem_cons.mp isPiece with rfl | later
      · simp
      · exact ih later
    · next other =>
      rcases mem_cons.mp isPiece with rfl | later
      · rw [mem_cons]
        rintro (rfl | inHead)
        · simp at other
        · exact ih mem_cons_self inHead
      · exact ih (mem_cons_of_mem _ later)

theorem splitOn_map {change : α → α} (kept : ∀ x, change x = separator ↔ x = separator) :
    (text.map change).splitOn separator = (text.splitOn separator).map (List.map change) := by
  induction text with
  | nil => simp
  | cons x text ih =>
    obtain ⟨head, tail, cut⟩ := exists_cons_of_ne_nil (splitOn_ne_nil separator text)
    rw [map_cons, splitOn_cons_eq_if_modifyHead, splitOn_cons_eq_if_modifyHead, ih, cut]
    by_cases same : x = separator
    · simp [same, (kept separator).mpr rfl]
    · have changed : change x ≠ separator := fun equal => same ((kept x).mp equal)
      simp [same, changed]

/-- A piece between two separators is an inner piece. -/
theorem infix_iff (absent : separator ∉ piece) : separator :: piece ++ [separator] <:+: text ↔
      piece ∈ (text.splitOn separator).tail.dropLast := by
  constructor
  · rintro ⟨first, second, rfl⟩
    have regrouped : first ++ (separator :: piece ++ [separator]) ++ second =
        first ++ separator :: (piece ++ separator :: second) := by simp
    rw [regrouped, splitOn_append_cons_self, splitOn_append_cons_self_of_not_mem absent]
    obtain ⟨head, tail, cut⟩ := exists_cons_of_ne_nil (splitOn_ne_nil separator first)
    rw [cut, cons_append, tail_cons, dropLast_append_of_ne_nil (by simp),
      dropLast_cons_of_ne_nil (splitOn_ne_nil separator second)]
    simp
  · intro isPiece
    obtain ⟨head, tail, cut⟩ := exists_cons_of_ne_nil (splitOn_ne_nil separator text)
    rw [cut, tail_cons] at isPiece
    rcases eq_nil_or_concat tail with rfl | ⟨inner, last, rfl⟩
    · simp at isPiece
    rw [concat_eq_append, dropLast_concat] at isPiece
    obtain ⟨before, after, rfl⟩ := append_of_mem isPiece
    have pieces : text.splitOn separator = (head :: before) ++ ([piece] ++ (after ++ [last])) := by
      rw [cut]
      simp
    have whole := @intercalate_splitOn _ text _ _ separator
    rw [pieces, intercalate_append (by simp) (by simp), intercalate_append (by simp) (by simp)]
      at whole
    refine ⟨[separator].intercalate (head :: before), [separator].intercalate (after ++ [last]), ?_⟩
    rw [← whole]
    simp

/-- A piece after the last separator is the last piece of several. -/
theorem suffix_iff (absent : separator ∉ piece) :
    separator :: piece <:+ text ↔ (text.splitOn separator).tail.getLast? = some piece := by
  constructor
  · rintro ⟨first, rfl⟩
    rw [splitOn_append_cons_self, splitOn_eq_singleton absent]
    obtain ⟨head, tail, cut⟩ := exists_cons_of_ne_nil (splitOn_ne_nil separator first)
    simp [cut]
  · intro isLast
    obtain ⟨head, tail, cut⟩ := exists_cons_of_ne_nil (splitOn_ne_nil separator text)
    rw [cut, tail_cons] at isLast
    obtain ⟨before, rfl⟩ := getLast?_eq_some_iff.mp isLast
    have whole := @intercalate_splitOn _ text _ _ separator
    rw [cut, ← cons_append, intercalate_append (by simp) (by simp)] at whole
    exact ⟨[separator].intercalate (head :: before), by simpa using whole⟩

theorem getLast?_splitOn_append (absent : separator ∉ piece) (before : List α) :
    ((before ++ separator :: piece).splitOn separator).getLast? = some piece := by
  rw [splitOn_append_cons_self, splitOn_eq_singleton absent]
  simp

/-- The last piece is what stands after the last separator. -/
theorem getLast?_splitOn : (text.splitOn separator).getLast? =
      some (text.reverse.takeWhile (· ≠ separator)).reverse := by
  have whole := @takeWhile_append_dropWhile _ (fun x => decide (x ≠ separator)) text.reverse
  have absent : separator ∉ (text.reverse.takeWhile (· ≠ separator)).reverse := by
    intro inLast
    simpa using mem_takeWhile_imp (mem_reverse.mp inLast)
  have turned := congrArg reverse whole
  rw [reverse_append, reverse_reverse] at turned
  have fails := head?_dropWhile_not (fun x => decide (x ≠ separator)) text.reverse
  generalize (text.reverse.takeWhile (· ≠ separator)).reverse = last at absent turned ⊢
  cases stopped : text.reverse.dropWhile (· ≠ separator) with
  | nil =>
    rw [stopped] at turned
    obtain rfl : last = text := turned
    rw [splitOn_eq_singleton absent]
    rfl
  | cons x before =>
    rw [stopped] at turned fails
    obtain rfl : x = separator := by simpa using fails
    rw [← turned, reverse_cons, append_assoc, singleton_append]
    exact getLast?_splitOn_append absent before.reverse

end OpenExec.SeparatedText
