import Mathlib.Data.List.Sort

/-!
# Queries with an order

An order over the rows of a query says which rows come before others.
-/

namespace OpenExec.OrderedQueries

open List

variable {α : Type*} {before : α → α → Prop}

structure OrderBy (before : α → α → Prop) where
  arrange : List α → List α
  perm : ∀ rows, (arrange rows).Perm rows
  sorted : ∀ rows, (arrange rows).Pairwise before

namespace OrderBy

/-- Rows that tie keep their places. -/
def stable (before : α → α → Prop) [DecidableRel before] [Std.Total before] [IsTrans α before] :
    OrderBy before where
  arrange rows := rows.insertionSort before
  perm rows := perm_insertionSort before rows
  sorted rows := pairwise_insertionSort before rows

variable (orderBy : OrderBy before) {rows : List α} {row other : α}

theorem mem_arrange : row ∈ orderBy.arrange rows ↔ row ∈ rows :=
  (orderBy.perm rows).mem_iff

def first (rows : List α) : Option α :=
  (orderBy.arrange rows).head?

theorem first_mem (found : orderBy.first rows = some row) : row ∈ rows :=
  orderBy.mem_arrange.mp (mem_of_mem_head? found)

theorem first_before (found : orderBy.first rows = some row) (member : other ∈ rows) :
    other = row ∨ before row other := by
  have sorted := orderBy.sorted rows
  have arranged := orderBy.mem_arrange.mpr member
  unfold first at found
  cases isArranged : orderBy.arrange rows with
  | nil =>
    rw [isArranged] at found
    cases found
  | cons head tail =>
    rw [isArranged] at found sorted arranged
    cases found
    rcases mem_cons.mp arranged with same | later
    · exact .inl same
    · exact .inr (rel_of_pairwise_cons sorted later)

end OrderBy

/-- Rows of a lower rank come first, and newer ones among equals. -/
def Newest (rank time : α → Nat) (row other : α) : Prop :=
  rank row < rank other ∨ rank row = rank other ∧ time other ≤ time row

variable {rank time : α → Nat}

instance : DecidableRel (Newest rank time) :=
  fun _ _ => inferInstanceAs (Decidable (_ ∨ _ ∧ _))

instance : Std.Total (Newest rank time) where
  total row other := by
    unfold Newest
    omega

instance : IsTrans α (Newest rank time) where
  trans row middle last := by
    unfold Newest
    omega

end OpenExec.OrderedQueries
