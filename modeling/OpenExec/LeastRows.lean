import OpenExec.KeyedRows

/-!
# The least row of every key

Rows are offered to a table one after the other.  The table keeps, for every key, a row of
least measure among those offered.
-/

namespace OpenExec.KeyedRows

open Table Option

variable {ρ κ : Type*} [DecidableEq κ] {key : ρ → κ}

def Table.keepLeast (measure : ρ → Nat) (table : Table key) (row : ρ) : Table key :=
  match table.get? (key row) with
  | none => table.put row
  | some current => if measure row < measure current then table.put row else table

structure Table.IsLeast (measure : ρ → Nat) (offered : ρ → Prop) (table : Table key) : Prop where
  least : ∀ name row, table.get? name = some row → offered row ∧
    ∀ other, offered other → key other = name → measure row ≤ measure other
  complete : ∀ row, offered row → (table.get? (key row)).isSome

variable {measure : ρ → Nat} {offered : ρ → Prop} {table : Table key} {row : ρ} {name : κ}

theorem Table.isLeast_empty : (Table.empty : Table key).IsLeast measure fun _ => False where
  least _ _ found := by cases found
  complete _ impossible := impossible.elim

theorem Table.IsLeast.congr {other : ρ → Prop} (isLeast : table.IsLeast measure offered)
    (same : ∀ row, offered row ↔ other row) : table.IsLeast measure other := by
  have equal : offered = other := funext fun row => propext (same row)
  exact equal ▸ isLeast

/-- A row stands under a key exactly if one was offered. -/
theorem Table.IsLeast.isSome_iff (isLeast : table.IsLeast measure offered) :
    (table.get? name).isSome ↔ ∃ row, offered row ∧ key row = name := by
  constructor
  · intro found
    obtain ⟨row, isFound⟩ := isSome_iff_exists.mp found
    exact ⟨row, (isLeast.least name row isFound).1, get?_key isFound⟩
  · rintro ⟨row, isOffered, rfl⟩
    exact isLeast.complete row isOffered

theorem Table.get?_keepLeast_of_ne (different : key row ≠ name) :
    (table.keepLeast measure row).get? name = table.get? name := by
  unfold keepLeast
  split
  · rw [get?_put, if_neg different]
  · split
    · rw [get?_put, if_neg different]
    · rfl

/-- Under the key of an offered row stands that row, or the earlier one if it is no greater. -/
theorem Table.get?_keepLeast_self :
    (table.keepLeast measure row).get? (key row) = some row ∧
        (∀ current, table.get? (key row) = some current → measure row < measure current) ∨
      ∃ current, (table.keepLeast measure row).get? (key row) = some current ∧
        table.get? (key row) = some current ∧ measure current ≤ measure row := by
  unfold keepLeast
  split
  · next absent =>
    rw [get?_put, if_pos rfl]
    exact .inl ⟨rfl, fun current found => by rw [absent] at found; cases found⟩
  · next current found =>
    split
    · next less =>
      rw [get?_put, if_pos rfl]
      refine .inl ⟨rfl, fun other isOther => ?_⟩
      rw [found] at isOther
      exact Option.some.inj isOther ▸ less
    · next notLess => exact .inr ⟨current, found, found, Nat.le_of_not_lt notLess⟩

theorem Table.IsLeast.keepLeast (isLeast : table.IsLeast measure offered) :
    (table.keepLeast measure row).IsLeast measure fun other => offered other ∨ other = row := by
  constructor
  case least =>
    intro name found isFound
    by_cases named : key row = name
    · subst named
      rcases @get?_keepLeast_self _ _ _ key measure table row with
        ⟨isRow, less⟩ | ⟨current, isCurrent, wasCurrent, notMore⟩
      · rw [isRow] at isFound
        cases isFound
        refine ⟨.inr rfl, fun other isOffered sameKey => ?_⟩
        rcases isOffered with earlier | rfl
        · obtain ⟨current, wasCurrent⟩ := isSome_iff_exists.mp (isLeast.complete other earlier)
          rw [sameKey] at wasCurrent
          have := (isLeast.least _ current wasCurrent).2 other earlier sameKey
          have := less current wasCurrent
          omega
        · exact Nat.le_refl _
      · rw [isCurrent] at isFound
        cases isFound
        obtain ⟨wasOffered, least⟩ := isLeast.least _ _ wasCurrent
        refine ⟨.inl wasOffered, fun other isOffered sameKey => ?_⟩
        rcases isOffered with earlier | rfl
        · exact least other earlier sameKey
        · exact notMore
    · rw [get?_keepLeast_of_ne named] at isFound
      obtain ⟨wasOffered, least⟩ := isLeast.least name found isFound
      refine ⟨.inl wasOffered, fun other isOffered sameKey => ?_⟩
      rcases isOffered with earlier | rfl
      · exact least other earlier sameKey
      · exact absurd sameKey named
  case complete =>
    have present : ((table.keepLeast measure row).get? (key row)).isSome := by
      rcases @get?_keepLeast_self _ _ _ key measure table row with
        ⟨isRow, _⟩ | ⟨current, isCurrent, _⟩
      · exact isSome_of_eq_some isRow
      · exact isSome_of_eq_some isCurrent
    rintro other (earlier | rfl)
    · by_cases named : key row = key other
      · exact named ▸ present
      · rw [get?_keepLeast_of_ne named]
        exact isLeast.complete other earlier
    · exact present

/-- Without the rows of a key, the table is as if they had not been offered. -/
theorem Table.IsLeast.erase (isLeast : table.IsLeast measure offered) :
    (table.erase name).IsLeast measure fun other => offered other ∧ key other ≠ name where
  least other found isFound := by
    rw [get?_erase] at isFound
    split at isFound
    · cases isFound
    · next different =>
      obtain ⟨wasOffered, least⟩ := isLeast.least other found isFound
      have named := get?_key isFound
      exact ⟨⟨wasOffered, named ▸ different⟩, fun row isOffered => least row isOffered.1⟩
  complete row isOffered := by
    rw [get?_erase, if_neg isOffered.2]
    exact isLeast.complete row isOffered.1

end OpenExec.KeyedRows
