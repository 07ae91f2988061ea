import Mathlib.Data.List.Nodup

/-!
# Tables of keyed rows

A table is a list of rows, each with a key; no two rows share one.  Reading a
key returns its row.
-/

namespace OpenExec.KeyedRows

open List Option Function

variable {ρ κ : Type*} [DecidableEq κ]

def row? (key : ρ → κ) (rows : List ρ) (name : κ) : Option ρ :=
  rows.find? fun row => key row = name

variable {key : ρ → κ} {rows : List ρ} {name : κ} {row extra : ρ}

theorem row?_key (found : row? key rows name = some row) : key row = name := by
  simpa using find?_some found

theorem row?_mem (found : row? key rows name = some row) : row ∈ rows :=
  mem_of_find?_eq_some found

theorem row?_isSome_iff : (row? key rows name).isSome ↔ name ∈ rows.map key := by
  simp [row?, find?_isSome]

theorem row?_eq_none_iff : row? key rows name = none ↔ name ∉ rows.map key := by
  have isSome : (row? key rows name).isSome ↔ name ∈ rows.map key := row?_isSome_iff
  rw [← isSome]
  cases row? key rows name <;> simp

theorem row?_of_mem (unique : (rows.map key).Nodup) (member : row ∈ rows) :
    row? key rows (key row) = some row := by
  induction rows with
  | nil => simp at member
  | cons head rows ih =>
    obtain ⟨absent, tailUnique⟩ := nodup_cons.mp unique
    rcases mem_cons.mp member with same | tailMember
    · subst same
      simp [row?]
    · have different : ¬ key head = key row := fun same =>
        absent (same ▸ mem_map_of_mem tailMember)
      simpa [row?, find?_cons, different] using ih tailUnique tailMember

theorem row?_map {change : ρ → ρ} (keeps : ∀ row ∈ rows, key (change row) = key row) :
    row? key (rows.map change) name = (row? key rows name).map change := by
  induction rows with
  | nil => rfl
  | cons head rows ih =>
    have same := keeps head mem_cons_self
    have rest := ih fun row member => keeps row (mem_cons_of_mem _ member)
    unfold row? at rest ⊢
    by_cases named : key head = name
    · simp [same, named]
    · simp [same, named, rest]

theorem row?_append_one : row? key (rows ++ [extra]) name =
      (row? key rows name).or (if key extra = name then some extra else none) := by
  rw [row?, find?_append]
  congr 1
  by_cases same : key extra = name <;> simp [same]

structure Table (key : ρ → κ) where
  rows : List ρ
  unique : (rows.map key).Nodup

namespace Table

instance [DecidableEq ρ] : DecidableEq (Table key) := fun first second =>
  decidable_of_iff (first.rows = second.rows) (by cases first; cases second; simp)

variable (table : Table key)

def get? (name : κ) : Option ρ :=
  row? key table.rows name

def empty : Table key := ⟨[], List.nodup_nil⟩

def put (row : ρ) : Table key where
  rows :=
    if key row ∈ table.rows.map key then
      table.rows.map fun old => if key old = key row then row else old
    else table.rows ++ [row]
  unique := by
    split
    · have same : ∀ old, key (if key old = key row then row else old) = key old := by
        intro old
        split
        · next named => exact named.symm
        · rfl
      rw [List.map_map]
      simpa [comp_def, same] using table.unique
    · next absent =>
      rw [List.map_append, List.nodup_append']
      exact ⟨table.unique, List.nodup_singleton _, by simpa using absent⟩

def erase (name : κ) : Table key where
  rows := table.rows.filter fun row => key row ≠ name
  unique := table.unique.sublist (List.filter_sublist.map key)

def map {τ : Type*} {key' : τ → κ} (change : ρ → τ)
    (keeps : ∀ row, key' (change row) = key row) : Table key' where
  rows := table.rows.map change
  unique := by
    rw [List.map_map]
    simpa [comp_def, keeps] using table.unique

variable {table : Table key}

theorem get?_put :
    (table.put row).get? name = if key row = name then some row else table.get? name := by
  unfold put get?
  split
  · next present =>
    have same : ∀ old ∈ table.rows, key (if key old = key row then row else old) = key old := by
      intro old _
      split
      · next named => exact named.symm
      · rfl
    rw [row?_map same]
    by_cases named : key row = name
    · obtain ⟨old, isOld⟩ := isSome_iff_exists.mp (row?_isSome_iff.mpr present)
      rw [← named, isOld]
      simp [row?_key isOld]
    · rw [if_neg named]
      cases found : row? key table.rows name with
      | none => rfl
      | some old =>
        have different : key old ≠ key row := fun equal => named (equal.symm.trans (row?_key found))
        simp [different]
  · next absent =>
    rw [row?_append_one]
    by_cases named : key row = name
    · rw [if_pos named, if_pos named, ← named, row?_eq_none_iff.mpr absent]
      rfl
    · rw [if_neg named, if_neg named, or_none]

theorem get?_erase {other : κ} :
    (table.erase other).get? name = if name = other then none else table.get? name := by
  unfold erase get?
  by_cases named : name = other
  · rw [if_pos named, row?_eq_none_iff]
    simp [named]
  rw [if_neg named]
  simp only [row?, find?_filter]
  congr 1
  funext row
  by_cases isRow : key row = name <;> simp [isRow, named]

theorem get?_map {τ : Type*} {key' : τ → κ} {change : ρ → τ}
    (keeps : ∀ row, key' (change row) = key row) :
    (table.map change keeps).get? name = (table.get? name).map change := by
  unfold map get?
  simp only [row?, find?_map, comp_def, keeps]

theorem get?_key (found : table.get? name = some row) : key row = name :=
  row?_key found

theorem get?_mem (found : table.get? name = some row) : row ∈ table.rows :=
  row?_mem found

theorem get?_of_mem (member : row ∈ table.rows) : table.get? (key row) = some row :=
  row?_of_mem table.unique member

theorem mem_put {other : ρ} (member : other ∈ (table.put row).rows) :
    other = row ∨ other ∈ table.rows := by
  unfold put at member
  split at member
  · obtain ⟨old, isOld, rfl⟩ := mem_map.mp member
    split
    · exact .inl rfl
    · exact .inr isOld
  · rcases mem_append.mp member with earlier | new
    · exact .inr earlier
    · exact .inl (mem_singleton.mp new)

def insert? (table : Table key) (row : ρ) : Option (Table key) :=
  if (table.get? (key row)).isSome then none else some (table.put row)

theorem get?_of_insert? {next : Table key} (inserted : table.insert? extra = some next)
    (found : table.get? name = some row) : next.get? name = some row := by
  unfold insert? at inserted
  split at inserted
  · cases inserted
  next absent =>
  cases inserted
  have different : key extra ≠ name := by
    rintro rfl
    exact absent (isSome_of_eq_some found)
  rw [get?_put, if_neg different, found]

def insertOrIgnore (table : Table key) (row : ρ) : Table key :=
  if (table.get? (key row)).isSome then table else table.put row

theorem get?_insertOrIgnore : (table.insertOrIgnore extra).get? name =
      (table.get? name).or (if key extra = name then some extra else none) := by
  unfold insertOrIgnore
  by_cases named : key extra = name
  · subst named
    cases found : table.get? (key extra) with
    | none => simp [get?_put]
    | some row => simp [found]
  · rw [if_neg named, or_none]
    split
    · rfl
    · rw [get?_put, if_neg named]

/-- Rows whose keys are distinct. -/
def ofRows? (rows : List ρ) : Option (Table key) :=
  if unique : (rows.map key).Nodup then some ⟨rows, unique⟩ else none

end Table

end OpenExec.KeyedRows
