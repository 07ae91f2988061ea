import OpenExec.KeyedRows

/-!
# Writes that stop at the first refusal

A list of rows is written one after the other into a store.  A refused write
ends the sequence and leaves what was written before it.
-/

namespace OpenExec.PartialWrites

open KeyedRows List

variable {σ ρ τ κ : Type*} [DecidableEq κ]

/-- The store after the writes, and whether all of them were accepted. -/
def writeAll (write : σ → ρ → Option σ) : List ρ → σ → σ × Bool
  | [], store => (store, true)
  | row :: rest, store =>
    match write store row with
    | none => (store, false)
    | some next => writeAll write rest next

variable {write : σ → ρ → Option σ} {rows : List ρ} {store : σ}

/-- What every accepted write keeps, the sequence keeps. -/
theorem writeAll_invariant {property : σ → Prop}
    (kept : ∀ {store row next}, property store → write store row = some next → property next)
    (holds : property store) : property (writeAll write rows store).1 := by
  induction rows generalizing store with
  | nil => exact holds
  | cons row rest ih =>
    unfold writeAll
    split
    · exact holds
    · next next written => exact ih (kept holds written)

theorem writeAll_keeps {read : σ → τ}
    (kept : ∀ {store row next}, write store row = some next → read next = read store) :
    read (writeAll write rows store).1 = read store :=
  @writeAll_invariant _ _ write rows store (fun next => read next = read store)
    (fun holds written => (kept written).trans holds) rfl

theorem foldlM_invariant {next : σ} {property : σ → Prop}
    (kept : ∀ {store row next}, property store → write store row = some next → property next)
    (holds : property store) (folds : rows.foldlM write store = some next) : property next := by
  induction rows generalizing store with
  | nil => exact Option.some.inj folds ▸ holds
  | cons row rest ih =>
    obtain ⟨later, written, folds⟩ := Option.bind_eq_some_iff.mp folds
    exact ih (kept holds written) folds

variable {key : ρ → κ} {read : σ → κ → Option τ} {content : Option τ → ρ → τ}

variable (unique : (rows.map key).Nodup) (reads : ∀ {store row next}, write store row = some next →
  ∀ name, read next name =
    if key row = name then some (content (read store name) row) else read store name)
include unique reads

/-- A key reads as before, or as the row listed under it was written. -/
theorem read_writeAll (name : κ) :
    read (writeAll write rows store).1 name = read store name ∨ ∃ row ∈ rows, key row = name ∧
        read (writeAll write rows store).1 name = some (content (read store name) row) := by
  induction rows generalizing store with
  | nil => exact .inl rfl
  | cons row rest ih =>
    obtain ⟨absent, restUnique⟩ := nodup_cons.mp unique
    unfold writeAll
    split
    · exact .inl rfl
    next next written =>
    have step := reads written name
    rcases @ih next restUnique with same | ⟨later, isLater, named, reached⟩
    · by_cases isRow : key row = name
      · rw [if_pos isRow] at step
        exact .inr ⟨row, mem_cons_self, isRow, same.trans step⟩
      · rw [if_neg isRow] at step
        exact .inl (same.trans step)
    · have different : key row ≠ name := by
        intro isRow
        exact absent (isRow.trans named.symm ▸ mem_map_of_mem isLater)
      rw [if_neg different] at step
      exact .inr ⟨later, mem_cons_of_mem _ isLater, named, step ▸ reached⟩

/-- When every write is accepted, each listed key reads as its row was written. -/
theorem read_writeAll_accepted (accepted : (writeAll write rows store).2) (name : κ) :
    read (writeAll write rows store).1 name =
      ((row? key rows name).map (content (read store name))).or (read store name) := by
  induction rows generalizing store with
  | nil => rfl
  | cons row rest ih =>
    obtain ⟨absent, restUnique⟩ := nodup_cons.mp unique
    unfold writeAll at accepted ⊢
    split at accepted
    · cases accepted
    next next written =>
    have step := reads written name
    rw [ih restUnique accepted]
    by_cases isRow : key row = name
    · have notLater : row? key rest name = none := by
        rw [row?_eq_none_iff, ← isRow]
        exact absent
      have isHead : row? key (row :: rest) name = some row := by simp [row?, isRow]
      rw [notLater, isHead, step, if_pos isRow]
      rfl
    · have sameRow : row? key (row :: rest) name = row? key rest name := by simp [row?, isRow]
      rw [sameRow, step, if_neg isRow]

end OpenExec.PartialWrites
