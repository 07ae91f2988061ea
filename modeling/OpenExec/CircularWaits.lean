import Mathlib.Data.Fintype.EquivFin
import Mathlib.Data.Fintype.Sets
import Mathlib.Order.WellFounded
import Mathlib.Logic.Relation

/-!
# Circular waits

Some member of a finite set waits for no other member, unless the members wait
for each other in a circle.
-/

namespace OpenExec.CircularWaits

open Relation

variable {α : Type*}

def WaitsWithin (waits : α → α → Prop) (members : Finset α) (first second : α) : Prop :=
  first ∈ members ∧ second ∈ members ∧ waits first second

def Circular (waits : α → α → Prop) (members : Finset α) : Prop :=
  ∃ member, TransGen (WaitsWithin waits members) member member

theorem Circular.mono {waits : α → α → Prop} {members more : Finset α}
    (circular : Circular waits members) (subset : members ⊆ more) : Circular waits more := by
  obtain ⟨member, circle⟩ := circular
  refine ⟨member, TransGen.mono ?_ _ _ circle⟩
  exact fun _ _ within => ⟨subset within.1, subset within.2.1, within.2.2⟩

theorem exists_free {waits : α → α → Prop} {members : Finset α} (nonempty : members.Nonempty)
    (straight : ¬ Circular waits members) :
    ∃ free ∈ members, ∀ other ∈ members, ¬ waits free other := by
  let later (first second : members) : Prop :=
    TransGen (WaitsWithin waits members) second.val first.val
  have transitive : IsTrans members later :=
    ⟨fun _ _ _ between between' => between'.trans between⟩
  have irreflexive : Std.Irrefl later := ⟨fun member circle => straight ⟨member.val, circle⟩⟩
  have wellFounded : WellFounded later := Finite.wellFounded_of_trans_of_irrefl later
  obtain ⟨first, isMember⟩ := nonempty
  obtain ⟨free, _, least⟩ := wellFounded.has_min Set.univ ⟨⟨first, isMember⟩, trivial⟩
  refine ⟨free.val, free.property, ?_⟩
  intro other otherMember waits
  exact least ⟨other, otherMember⟩ trivial (.single ⟨free.property, otherMember, waits⟩)

end OpenExec.CircularWaits
