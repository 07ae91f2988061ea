import OpenExec.KeyedRows

/-!
# Inserting rows or comparing them

A list of items is imported into a keyed table.  An item whose row is there must
agree with it, and the row stays as it is; an item without a row adds one.
-/

namespace OpenExec.InsertOrCompare

open KeyedRows Option List

variable {ρ ι κ ε : Type*} [DecidableEq κ] {key : ρ → κ}

/-- How an item becomes a row.  `compare` and `refuses` say why it is refused. -/
structure Importer (key : ρ → κ) (ι ε : Type*) where
  name : ι → κ
  make : ι → ρ
  made : ∀ item, key (make item) = name item
  compare : ρ → ι → Option ε
  refuses : ι → Option ε

namespace Importer

variable (importer : Importer key ι ε)

def insert (table : Table key) (item : ι) : Except ε (Table key) :=
  match table.get? (importer.name item) with
  | some row =>
    match importer.compare row item with
    | some refusal => .error refusal
    | none => .ok table
  | none =>
    match importer.refuses item with
    | some refusal => .error refusal
    | none => .ok (table.put (importer.make item))

/-- The items one after the other; a refusal ends the import. -/
def insertAll : List ι → Table key → Except ε (Table key)
  | [], table => .ok table
  | item :: rest, table =>
    match importer.insert table item with
    | .error refusal => .error refusal
    | .ok next => insertAll rest next

variable {importer} {table next : Table key} {item : ι} {items : List ι} {name : κ}

theorem insert_cases (inserted : importer.insert table item = .ok next) :
    (∃ row, table.get? (importer.name item) = some row ∧ importer.compare row item = none ∧
      next = table) ∨
      table.get? (importer.name item) = none ∧ next = table.put (importer.make item) := by
  unfold insert at inserted
  split at inserted
  · next row found =>
    split at inserted
    · cases inserted
    · next agrees => exact .inl ⟨row, found, agrees, (Except.ok.inj inserted).symm⟩
  · next absent =>
    split at inserted
    · cases inserted
    · exact .inr ⟨absent, (Except.ok.inj inserted).symm⟩

theorem get?_insert (inserted : importer.insert table item = .ok next) : next.get? name =
      (table.get? name).or
        (if importer.name item = name then some (importer.make item) else none) := by
  rcases insert_cases inserted with ⟨row, found, _, rfl⟩ | ⟨absent, rfl⟩
  · by_cases named : importer.name item = name
    · rw [← named, found]
      rfl
    · rw [if_neg named, or_none]
  · rw [Table.get?_put, importer.made]
    by_cases named : importer.name item = name
    · rw [if_pos named, if_pos named, ← named, absent]
      rfl
    · rw [if_neg named, if_neg named, or_none]

section

variable (imported : importer.insertAll items table = .ok next)
include imported

theorem get?_insertAll : next.get? name =
      (table.get? name).or ((row? importer.name items name).map importer.make) := by
  induction items generalizing table with
  | nil =>
    cases imported
    exact (or_none).symm
  | cons item rest ih =>
    unfold insertAll at imported
    split at imported
    · cases imported
    next middle inserted =>
    rw [ih imported, get?_insert inserted, Option.or_assoc]
    congr 1
    by_cases named : importer.name item = name
    · simp [row?, named]
    · simp [row?, named]

theorem insertAll_keeps {row : ρ}
    (found : table.get? name = some row) : next.get? name = some row := by
  rw [get?_insertAll imported, found]
  rfl

/-- Every item has a row that agrees with it or was made of it. -/
theorem insertAll_listed (listed : item ∈ items) :
    ∃ row, next.get? (importer.name item) = some row ∧
      (importer.compare row item = none ∨ row = importer.make item) := by
  induction items generalizing table with
  | nil => cases listed
  | cons first rest ih =>
    unfold insertAll at imported
    split at imported
    · cases imported
    next middle inserted =>
    rcases mem_cons.mp listed with rfl | later
    · rcases insert_cases inserted with ⟨row, found, agrees, rfl⟩ | ⟨_, rfl⟩
      · exact ⟨row, insertAll_keeps imported found, .inl agrees⟩
      · refine ⟨importer.make item, insertAll_keeps imported ?_, .inr rfl⟩
        rw [Table.get?_put, importer.made, if_pos rfl]
    · exact ih imported later

end

/-- Items whose rows are there and agree change nothing. -/
theorem insertAll_again (agree : ∀ item ∈ items, ∃ row, table.get? (importer.name item) = some row ∧
      importer.compare row item = none) :
    importer.insertAll items table = .ok table := by
  induction items with
  | nil => rfl
  | cons item rest ih =>
    obtain ⟨row, found, agrees⟩ := agree item mem_cons_self
    have inserted : importer.insert table item = .ok table := by
      unfold insert
      simp only [found, agrees]
    unfold insertAll
    rw [inserted]
    exact ih fun later member => agree later (mem_cons_of_mem _ member)

end Importer

end OpenExec.InsertOrCompare
