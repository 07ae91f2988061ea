import Mathlib.Data.List.Nodup
import Mathlib.Data.List.Perm.Subperm

/-!
# The first free name of a numbered family

Allocators that number their names try `candidate 1`, `candidate 2`, ... and return the
first one nobody holds.
-/

namespace OpenExec.FirstFree

open List

variable {α : Type*} [DecidableEq α]

/-- Search upward from `index`, giving up after `fuel` held candidates. -/
def search (candidate : Nat → α) (held : List α) : Nat → Nat → α
  | 0, index => candidate index
  | fuel + 1, index =>
    if candidate index ∈ held then search candidate held fuel (index + 1)
    else candidate index

variable (candidate : Nat → α) (held : List α)

def firstFree : α :=
  search candidate held held.length 1

theorem search_eq_candidate (fuel index : Nat) :
    ∃ found, index ≤ found ∧ search candidate held fuel index = candidate found ∧
      ∀ earlier, index ≤ earlier → earlier < found → candidate earlier ∈ held := by
  induction fuel generalizing index with
  | zero => exact ⟨index, Nat.le_refl _, rfl, fun _ lower upper => by omega⟩
  | succ fuel ih =>
    by_cases isHeld : candidate index ∈ held
    · obtain ⟨found, lower, same, earlierHeld⟩ := ih (index + 1)
      refine ⟨found, by omega, by simpa [search, isHeld] using same, ?_⟩
      intro earlier earlierLower earlierUpper
      by_cases first : earlier = index
      · exact first ▸ isHeld
      · exact earlierHeld earlier (by omega) earlierUpper
    · exact ⟨index, Nat.le_refl _, by simp [search, isHeld], fun _ lower upper => by omega⟩

/-- A search that ends on a held name rejected every candidate on its way. -/
theorem search_mem_held {candidate : Nat → α} {held : List α} {fuel index : Nat}
    (exhausted : search candidate held fuel index ∈ held) :
    ∀ offset ≤ fuel, candidate (index + offset) ∈ held := by
  induction fuel generalizing index with
  | zero =>
    intro offset bound
    obtain rfl : offset = 0 := by omega
    exact exhausted
  | succ fuel ih =>
    by_cases isHeld : candidate index ∈ held
    · rw [search, if_pos isHeld] at exhausted
      intro offset bound
      cases offset with
      | zero => exact isHeld
      | succ offset =>
        have later := ih exhausted offset (by omega)
        rwa [Nat.add_right_comm] at later
    · rw [search, if_neg isHeld] at exhausted
      exact absurd exhausted isHeld

/-- An injective family always has a free name, and the search finds it. -/
theorem firstFree_not_mem {candidate : Nat → α} (injective : Function.Injective candidate)
    (held : List α) : firstFree candidate held ∉ held := by
  intro exhausted
  have allHeld := search_mem_held exhausted
  let tried := (List.range (held.length + 1)).map fun offset => candidate (1 + offset)
  have triedNodup : tried.Nodup :=
    nodup_range.map fun first second same => by
      have := injective same
      omega
  have triedHeld : tried ⊆ held := by
    intro name member
    obtain ⟨offset, offsetMem, rfl⟩ := mem_map.mp member
    exact allHeld offset (by simpa [Nat.lt_succ_iff] using offsetMem)
  have bound := (subperm_of_subset triedNodup triedHeld).length_le
  simp only [tried, length_map, length_range] at bound
  omega

/-- The search only looks at which candidates are held. -/
theorem firstFree_congr {candidate : Nat → α} (injective : Function.Injective candidate)
    {held other : List α} (same : ∀ index, candidate index ∈ held ↔ candidate index ∈ other) :
    firstFree candidate held = firstFree candidate other := by
  have free := firstFree_not_mem injective held
  have otherFree := firstFree_not_mem injective other
  obtain ⟨found, lower, isFound, skipped⟩ := search_eq_candidate candidate held held.length 1
  obtain ⟨found', lower', isFound', skipped'⟩ := search_eq_candidate candidate other other.length 1
  change firstFree candidate held = candidate found at isFound
  change firstFree candidate other = candidate found' at isFound'
  rw [isFound] at free ⊢
  rw [isFound'] at otherFree ⊢
  rcases Nat.lt_trichotomy found found' with less | rfl | greater
  · exact absurd ((same found).mpr (skipped' found lower less)) free
  · rfl
  · exact absurd ((same found').mp (skipped found' lower' greater)) otherFree

theorem firstFree_eq_candidate : ∃ found, firstFree candidate held = candidate found := by
  obtain ⟨found, _, same, _⟩ := search_eq_candidate candidate held held.length 1
  exact ⟨found, same⟩

end OpenExec.FirstFree
