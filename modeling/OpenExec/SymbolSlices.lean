import Mathlib.Data.List.Basic

/-!
# Pre-resolved symbols

The lines shown for the symbols that a task names are cut by stored line numbers from the files
as they are now.
-/

namespace OpenExec.PreResolver

open List

/-- A row of the symbols table; its line numbers are read into machine integers. -/
structure SymbolRow where
  name : String
  kind : String
  filePath : String
  startLine : Int64
  endLine : Int64

/-- The first index of the slice, computed with wrap-around. -/
def SymbolRow.start (row : SymbolRow) : Int64 :=
  if row.startLine - 1 < 0 then 0 else row.startLine - 1

variable (lines : List String) (row : SymbolRow)

/-- Slice bounds that are out of order panic. -/
def readFileSlice (sliceLines : Int64) : Option (List String) :=
  let stop := if 0 < row.endLine ∧ row.endLine < row.start + sliceLines + 1 then row.endLine
    else row.start + sliceLines
  let stop : Int := if lines.length < stop.toInt then lines.length else stop.toInt
  if row.start.toInt ≤ stop then some ((lines.take stop.toNat).drop row.start.toInt.toNat) else none

/-- How many lines stand before the first one of a symbol. -/
def SymbolRow.before (row : SymbolRow) : Nat :=
  (row.startLine.toInt - 1).toNat

/-- The lines that a file still has of a symbol. -/
def window (sliceLines : Int64) : List String :=
  ((lines.take row.endLine.toInt.toNat).drop row.before).take sliceLines.toInt.toNat

/-- The largest machine integer. -/
def maxInt : Int := 9223372036854775807

/-- The stored line numbers do not reach out of a file and name an end, and the index after the
slice is a machine integer.  If it is the largest one, the stored end is not looked at. -/
@[mk_iff within_iff] structure Within (sliceLines : Int64) : Prop where
  least : -maxInt ≤ row.startLine.toInt
  largest : row.before + sliceLines.toInt ≤ maxInt
  first : row.before ≤ lines.length
  last : if row.before + sliceLines.toInt = maxInt then
      row.before = lines.length ∨ lines.length ≤ row.endLine.toInt
    else if 0 < row.endLine.toInt then row.before ≤ row.endLine.toInt
    else row.before = lines.length

section

variable {lines row} {sliceLines : Int64}

theorem start_toInt : row.start.toInt =
    if -maxInt ≤ row.startLine.toInt then (row.before : Int) else maxInt := by
  have lower := row.startLine.le_toInt
  have upper := row.startLine.toInt_lt
  have stepped : (row.startLine - 1).toInt =
      if -maxInt ≤ row.startLine.toInt then row.startLine.toInt - 1 else maxInt := by
    rw [Int64.toInt_sub, Int64.toInt_one, maxInt, Int.bmod_def]
    split <;> split <;> omega
  unfold SymbolRow.start SymbolRow.before
  split
  · next negative =>
    rw [Int64.lt_iff_toInt_lt, stepped, Int64.toInt_zero] at negative
    rw [Int64.toInt_zero]
    unfold maxInt at negative ⊢
    split <;> omega
  · next natural =>
    rw [Int64.lt_iff_toInt_lt, stepped, Int64.toInt_zero] at natural
    rw [stepped]
    unfold maxInt at natural ⊢
    split <;> omega

/-- The index after the slice, in plain integers. -/
theorem stop_toInt (natural : 0 ≤ row.start.toInt) (positive : 0 < sliceLines.toInt) :
    (if 0 < row.endLine ∧ row.endLine < row.start + sliceLines + 1 then row.endLine
      else row.start + sliceLines).toInt =
    if row.start.toInt + sliceLines.toInt < maxInt then
      if 0 < row.endLine.toInt then min row.endLine.toInt (row.start.toInt + sliceLines.toInt)
      else row.start.toInt + sliceLines.toInt
    else if row.start.toInt + sliceLines.toInt = maxInt then maxInt
    else row.start.toInt + sliceLines.toInt - 18446744073709551616 := by
  have startUpper := row.start.toInt_lt
  have sliceUpper := sliceLines.toInt_lt
  have lastUpper := row.endLine.toInt_lt
  have sum : (row.start + sliceLines).toInt =
      if row.start.toInt + sliceLines.toInt ≤ maxInt then row.start.toInt + sliceLines.toInt
      else row.start.toInt + sliceLines.toInt - 18446744073709551616 := by
    rw [Int64.toInt_add, maxInt, Int.bmod_def]
    split <;> split <;> omega
  have beyond : (row.start + sliceLines + 1).toInt =
      if row.start.toInt + sliceLines.toInt < maxInt then row.start.toInt + sliceLines.toInt + 1
      else row.start.toInt + sliceLines.toInt + 1 - 18446744073709551616 := by
    rw [Int64.toInt_add, sum, Int64.toInt_one, maxInt, Int.bmod_def]
    split <;> split <;> split <;> omega
  simp only [Int64.lt_iff_toInt_lt, beyond, Int64.toInt_zero, apply_ite Int64.toInt, sum]
  unfold maxInt
  split <;> split <;> (try split) <;> omega

theorem readFileSlice_eq_window_iff (positive : 0 < sliceLines.toInt)
    (indexed : lines.length ≤ maxInt) :
    readFileSlice lines row sliceLines = some (window lines row sliceLines) ↔
      Within lines row sliceLines := by
  have natural : 0 ≤ row.start.toInt := by
    rw [start_toInt, maxInt]
    split <;> omega
  have upper := sliceLines.toInt_lt
  unfold readFileSlice window
  simp only [stop_toInt natural positive, Option.ite_none_right_eq_some, Option.some.injEq,
    start_toInt, within_iff]
  by_cases least : -maxInt ≤ row.startLine.toInt
  · simp only [least, if_true, true_and, drop_take, take_take, Int.toNat_natCast,
      take_eq_take_iff, length_drop]
    generalize row.before = before
    generalize row.endLine.toInt = last
    unfold maxInt at indexed ⊢
    split_ifs <;> omega
  · -- The first index is the largest integer, and the one after the slice has wrapped around.
    simp only [least, if_false, false_and, iff_false, not_and]
    unfold maxInt
    intro ordered
    split_ifs at ordered <;> omega

end

structure Block where
  row : SymbolRow
  slice : Except String (List String)

/-- What is around the resolver.  A missing table has no query, and a file is its lines, which
machine integers index. -/
structure Environment where
  extractCandidateNames : String → List String
  symbols : Option (String → List SymbolRow)
  readFile : String → Except String (List String)
  relPath : String → String
  langFromPath : String → String
  indexed : ∀ path lines, readFile path = .ok lines → lines.length ≤ maxInt

namespace Environment

variable (env : Environment) (sliceLines : Int64) (taskDescription : String)

def limit : Int64 :=
  if sliceLines ≤ 0 then 20 else sliceLines

def matched : List SymbolRow :=
  if taskDescription = "" then []
  else (env.extractCandidateNames taskDescription).flatMap (env.symbols.getD fun _ => [])

def slice : Option (Except String (List String)) :=
  match env.readFile row.filePath with
  | .error text => some (.error text)
  | .ok lines => (readFileSlice lines row (limit sliceLines)).map .ok

def blocks : List SymbolRow → Option (List Block)
  | [] => some []
  | row :: rest => do
    let slice ← env.slice row sliceLines
    let others ← blocks rest
    return ⟨row, slice⟩ :: others

def text (block : Block) : String :=
  let relPath := env.relPath block.row.filePath
  let slice := match block.slice with
    | .error text => "// error reading file: " ++ text
    | .ok lines => "\n".intercalate lines
  "\n### " ++ block.row.name ++ " (" ++ block.row.kind ++ ") at " ++ relPath ++ ":" ++
    toString block.row.startLine ++ "\n```" ++ env.langFromPath relPath ++ "\n" ++ slice ++
    (if slice.toList.getLast? = some '\n' then "" else "\n") ++ "```\n"

def render (blocks : List Block) : String :=
  if blocks.isEmpty then ""
  else "--- Pre-Resolved Symbols (" ++ toString blocks.length ++ " matches) ---\n" ++
    String.join (blocks.map env.text) ++ "---\n"

def resolve : Option String :=
  (env.blocks sliceLines (env.matched taskDescription)).map env.render

/-- The slice of a readable file is what the file still has of the symbol. -/
def Shows (block : Block) : Prop :=
  ∀ lines, env.readFile block.row.filePath = .ok lines →
    block.slice = .ok (window lines block.row (limit sliceLines))

variable {env row sliceLines}

theorem slice_shows_iff :
    (∃ slice, env.slice row sliceLines = some slice ∧ env.Shows sliceLines ⟨row, slice⟩) ↔
      ∀ lines, env.readFile row.filePath = .ok lines → Within lines row (limit sliceLines) := by
  have positive : 0 < (limit sliceLines).toInt := by
    unfold limit
    split
    · decide
    · next positive => simpa [Int64.le_iff_toInt_le] using positive
  unfold slice Shows
  cases read : env.readFile row.filePath with
  | error text => simp [read]
  | ok lines =>
    simp [read, ← readFileSlice_eq_window_iff positive (env.indexed _ _ read)]

theorem blocks_show_iff {rows : List SymbolRow} :
    (∃ blocks, env.blocks sliceLines rows = some blocks ∧
        ∀ block ∈ blocks, env.Shows sliceLines block) ↔
      ∀ row ∈ rows, ∀ lines, env.readFile row.filePath = .ok lines →
        Within lines row (limit sliceLines) := by
  induction rows with
  | nil => simp [blocks]
  | cons row rest ih =>
    rw [forall_mem_cons, ← slice_shows_iff, ← ih, blocks]
    constructor
    · rintro ⟨_, isShown, shown⟩
      obtain ⟨slice, isSlice, isShown⟩ := Option.bind_eq_some_iff.mp isShown
      obtain ⟨others, isOthers, ⟨⟩⟩ := Option.bind_eq_some_iff.mp isShown
      obtain ⟨first, later⟩ := forall_mem_cons.mp shown
      exact ⟨⟨slice, isSlice, first⟩, others, isOthers, later⟩
    · rintro ⟨⟨slice, isSlice, first⟩, others, isOthers, later⟩
      exact ⟨_, by rw [isSlice, isOthers]; rfl, forall_mem_cons.mpr ⟨first, later⟩⟩

end Environment

/-- Pre-resolution returns, with what the files still have of each symbol, exactly when the line
numbers of the matched symbols stay within the files that can be read. -/
theorem resolve_shows_iff (env : Environment) (sliceLines : Int64) (taskDescription : String) :
    (∃ blocks, env.blocks sliceLines (env.matched taskDescription) = some blocks ∧
      env.resolve sliceLines taskDescription = some (env.render blocks) ∧
      ∀ block ∈ blocks, env.Shows sliceLines block) ↔
      ∀ row ∈ env.matched taskDescription, ∀ lines,
        env.readFile row.filePath = .ok lines →
          Within lines row (Environment.limit sliceLines) := by
  rw [← Environment.blocks_show_iff]
  constructor
  · rintro ⟨blocks, isBlocks, _, shown⟩
    exact ⟨blocks, isBlocks, shown⟩
  · rintro ⟨blocks, isBlocks, shown⟩
    exact ⟨blocks, isBlocks, by rw [Environment.resolve, isBlocks]; rfl, shown⟩

/-- A symbol of a file that has lost its end. -/
def shrunkFile : Environment where
  extractCandidateNames := fun task => [task]
  symbols := some fun name => [⟨name, "func", "main.go", 40, 45⟩]
  readFile := fun _ => .ok ["package main", ""]
  relPath := id
  langFromPath := fun _ => "go"
  indexed := by
    rintro _ _ ⟨⟩
    decide

theorem shrunk_file_panics : shrunkFile.resolve 0 "Run" = none := by
  decide

end OpenExec.PreResolver
