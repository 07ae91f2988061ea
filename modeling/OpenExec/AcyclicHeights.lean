import Mathlib.Data.Finset.Card
import Mathlib.Logic.Relation

/-!
# Heights in graphs without cycles

The height of a node counts the listed nodes a path leads to.  Without cycles
every edge lowers it, and a measure that every edge lowers rules cycles out.
-/

namespace OpenExec.AcyclicHeights

open Relation Finset

variable {α : Type*} {edge : α → α → Prop}

def Acyclic (edge : α → α → Prop) : Prop :=
  ∀ node, ¬ TransGen edge node node

theorem acyclic_of_measure (measure : α → Nat)
    (lowers : ∀ {first second}, edge first second → measure second < measure first) :
    Acyclic edge := by
  have lowered : ∀ {first second}, TransGen edge first second → measure second < measure first := by
    intro first second path
    induction path with
    | single step => exact lowers step
    | tail _ step ih => exact (lowers step).trans ih
  intro node cycle
  exact absurd (lowered cycle) (Nat.lt_irrefl _)

open Classical in
noncomputable def height (edge : α → α → Prop) (nodes : Finset α) (node : α) : Nat :=
  (nodes.filter (TransGen edge node)).card

open Classical in
theorem height_le_card (nodes : Finset α) (node : α) : height edge nodes node ≤ nodes.card :=
  card_filter_le _ _

open Classical in
theorem height_lt_of_edge (acyclic : Acyclic edge) {nodes : Finset α} {first second : α}
    (member : second ∈ nodes) (step : edge first second) :
    height edge nodes second < height edge nodes first := by
  apply card_lt_card
  rw [ssubset_iff_of_subset]
  · refine ⟨second, mem_filter.mpr ⟨member, .single step⟩, ?_⟩
    intro reachesItself
    exact acyclic second (mem_filter.mp reachesItself).2
  · intro node reached
    obtain ⟨listed, path⟩ := mem_filter.mp reached
    exact mem_filter.mpr ⟨listed, .head step path⟩

end OpenExec.AcyclicHeights
