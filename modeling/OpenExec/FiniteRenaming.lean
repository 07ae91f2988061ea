import OpenExec.KeyedRows

/-!
# Finite renamings

A renaming is a finite table from old names to new ones; names outside the table are
left alone.
-/

namespace OpenExec.FiniteRenaming

open List Option

variable {α : Type*} [DecidableEq α]

variable (table : List (α × α))

def find? (name : α) : Option α :=
  (table.find? fun entry => entry.1 = name).map Prod.snd

def rename (name : α) : α :=
  (find? table name).getD name

def assign (name value : α) : List (α × α) :=
  (name, value) :: table.filter fun entry => entry.1 ≠ name

def names : List α :=
  table.map Prod.fst

/-- The name whose entry is `value`, or `value` itself when no entry is. -/
def source (value : α) : α :=
  ((table.find? fun entry => entry.2 = value).map Prod.fst).getD value

variable {table : List (α × α)} {name value other : α}

@[simp]
theorem find?_nil (name : α) : find? ([] : List (α × α)) name = none :=
  rfl

@[simp]
theorem rename_nil (name : α) : rename ([] : List (α × α)) name = name :=
  rfl

@[simp]
theorem map_rename_nil (references : List α) :
    references.map (rename ([] : List (α × α))) = references :=
  map_id'' rename_nil references

theorem find?_assign (table : List (α × α)) (name value other : α) :
    find? (assign table name value) other =
      if other = name then some value else find? table other := by
  split
  · next same => simp [find?, assign, same]
  · next different =>
    have passes (entry : α × α) : entry.1 ≠ name ∧ entry.1 = other ↔ entry.1 = other :=
      and_iff_right_of_imp (· ▸ different)
    simp [find?, assign, Ne.symm different, find?_filter, passes]

theorem find?_isSome_iff : (find? table name).isSome ↔ name ∈ names table := by
  simp [find?, names, find?_isSome]

theorem find?_eq_none_iff : find? table name = none ↔ name ∉ names table := by
  rw [← find?_isSome_iff]
  cases find? table name <;> simp

theorem rename_of_not_mem (absent : name ∉ names table) : rename table name = name := by
  simp [rename, find?_eq_none_iff.mpr absent]

theorem mem_names_assign :
    other ∈ names (assign table name value) ↔ other = name ∨ other ∈ names table := by
  rw [← find?_isSome_iff, find?_assign, ← find?_isSome_iff]
  by_cases same : other = name <;> simp [same]

theorem mem_assign (new : name ∉ names table) {entry : α × α} : entry ∈ assign table name value ↔
      entry = (name, value) ∨ entry ∈ table := by
  simp only [assign, mem_cons, mem_filter]
  refine or_congr_right ⟨And.left, fun member => ⟨member, ?_⟩⟩
  simpa using fun same : entry.1 = name => new (same ▸ mem_map_of_mem member)

theorem names_assign_nodup (unique : (names table).Nodup)
    (name value : α) : (names (assign table name value)).Nodup := by
  have kept : (names (table.filter fun entry => entry.1 ≠ name)).Nodup :=
    unique.sublist (filter_sublist.map Prod.fst)
  refine nodup_cons.mpr ⟨?_, kept⟩
  simp [mem_filter]

/-- Each name has one entry; new names are pairwise distinct and lie outside
the reserved names. -/
structure Separated (reserved : List α) (table : List (α × α)) : Prop where
  unique : (names table).Nodup
  distinct : ∀ {first second value : α},
    find? table first = some value → find? table second = some value → first = second
  outside : ∀ {name value : α}, find? table name = some value → value ∉ reserved

variable {reserved : List α}

theorem separated_nil (reserved : List α) : Separated reserved [] where
  unique := List.nodup_nil
  distinct := by simp
  outside := by simp

theorem Separated.assign (separated : Separated reserved table)
    (fresh : ∀ other, find? table other ≠ some value) (outside : value ∉ reserved) :
    Separated reserved (assign table name value) where
  unique := names_assign_nodup separated.unique name value
  distinct := by
    intro first second shared firstEntry secondEntry
    rw [find?_assign] at firstEntry secondEntry
    split at firstEntry <;> split at secondEntry
    · next firstNew secondNew => rw [firstNew, secondNew]
    · exact absurd (Option.some.inj firstEntry ▸ secondEntry) (fresh second)
    · exact absurd (Option.some.inj secondEntry ▸ firstEntry) (fresh first)
    · exact separated.distinct firstEntry secondEntry
  outside := by
    intro other shared entry
    rw [find?_assign] at entry
    split at entry
    · exact Option.some.inj entry ▸ outside
    · exact separated.outside entry

theorem find?_of_mem (unique : (names table).Nodup) (member : (name, value) ∈ table) :
    find? table name = some value :=
  congrArg (Option.map Prod.snd) (KeyedRows.row?_of_mem unique member)

theorem mem_of_find? (entry : find? table name = some value) : (name, value) ∈ table := by
  obtain ⟨⟨key, found⟩, isFound, rfl⟩ := map_eq_some_iff.mp entry
  have same : key = name := by simpa using find?_some isFound
  exact same ▸ mem_of_find?_eq_some isFound

theorem find?_source (unique : (names table).Nodup) (shown : α) :
    find? table (source table shown) = some shown ∨
      (source table shown = shown ∧ ∀ name, find? table name ≠ some shown) := by
  unfold source
  cases found : table.find? fun entry => entry.2 = shown with
  | none =>
    refine .inr ⟨rfl, fun name renamed => ?_⟩
    simpa using find?_eq_none.mp found _ (mem_of_find? renamed)
  | some entry =>
    have entryValue : entry.2 = shown := by simpa using find?_some found
    exact .inl (entryValue ▸ find?_of_mem unique (mem_of_find?_eq_some found))

theorem Separated.source_of_mem (separated : Separated reserved table) (nameMem : name ∈ reserved) :
    source table name = name := by
  rcases find?_source separated.unique name with found | ⟨same, _⟩
  · exact absurd nameMem (separated.outside found)
  · exact same

theorem Separated.source_rename (separated : Separated reserved table) (nameMem : name ∈ reserved) :
    source table (rename table name) = name := by
  unfold rename
  cases renamed : find? table name with
  | none => exact separated.source_of_mem nameMem
  | some value =>
    rcases find?_source separated.unique value with found | ⟨_, absent⟩
    · exact separated.distinct found renamed
    · exact absurd renamed (absent name)

theorem Separated.rename_injOn (separated : Separated reserved table) {first second : α}
    (firstMem : first ∈ reserved) (secondMem : second ∈ reserved)
    (same : rename table first = rename table second) : first = second := by
  rw [← separated.source_rename firstMem, same, separated.source_rename secondMem]

/-- A reference meets the new name of a reserved one exactly when it named it
before, or when it named nothing and is that new name letter for letter. -/
theorem Separated.rename_eq_rename_iff (separated : Separated reserved table)
    (changed : names table ⊆ reserved) {target : α} (targetMem : target ∈ reserved)
    (reference : α) :
    rename table reference = rename table target ↔
      reference = target ∨ (reference ∉ reserved ∧ reference = rename table target) := by
  constructor
  · intro same
    by_cases referenceMem : reference ∈ reserved
    · exact .inl (separated.rename_injOn referenceMem targetMem same)
    · have unchanged := rename_of_not_mem fun member => referenceMem (changed member)
      exact .inr ⟨referenceMem, unchanged ▸ same⟩
  · rintro (rfl | ⟨absent, same⟩)
    · rfl
    · rw [rename_of_not_mem fun member => absent (changed member)]
      exact same

/-- Setting another entry to another value leaves a backward reading alone. -/
theorem source_assign {shown : α} (newValue : value ≠ shown) (other : name ≠ source table shown) :
    source (assign table name value) shown = source table shown := by
  have skipped : source (assign table name value) shown =
      source (table.filter fun entry => entry.1 ≠ name) shown := by
    simp [source, assign, newValue]
  rw [skipped]
  clear skipped
  induction table with
  | nil => rfl
  | cons entry table ih =>
    by_cases leads : entry.2 = shown
    · have keyed : source (entry :: table) shown = entry.1 := by simp [source, leads]
      have kept : entry.1 ≠ name := fun same => other (keyed.symm ▸ same.symm)
      simp [source, kept, leads]
    · have tailSource : source (entry :: table) shown = source table shown := by
        simp [source, leads]
      rw [tailSource] at other ⊢
      rw [← ih other]
      by_cases removed : entry.1 = name
      · simp [removed]
      · simp [source, removed, leads]

end OpenExec.FiniteRenaming
