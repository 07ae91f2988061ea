import OpenExec.GoStrings
import OpenExec.GraphGenerations
import OpenExec.OrderedQueries

/-!
# Identities of symbols

The symbols of a repository are shared by all of its generations.
-/

namespace OpenExec.Knowledge

open KeyedRows OrderedQueries GoStrings Table Option

structure ExtractedSymbol where
  name : String
  kind : String
  parent : String
  signature : String

/-- No extractor calls its language "legacy". -/
structure ExtractedFile where
  path : String
  language : String
  symbols : List ExtractedSymbol
  extracted : language ≠ "legacy" := by decide

def stem (path : List Char) : List Char :=
  match path.reverse.dropWhile fun c => c ≠ '/' ∧ c ≠ '.' with
  | '.' :: rest => rest.reverse
  | _ => path

def qualifySymbol (file : ExtractedFile) (symbol : ExtractedSymbol) : String :=
  String.ofList (stem file.path.toList) ++
    (if symbol.parent ≠ "" then "." ++ symbol.parent else "") ++
    "." ++ symbol.name

/-- The words of a text, one blank apart. -/
def joinFields (text : List Char) : String :=
  String.ofList ([' '].intercalate ((text.splitOnP isSpace).filter (· ≠ [])))

/-- A signature without the name it declares. -/
def normalizedSymbolStructure (name signature : String) : String :=
  let trimmed := trimSpace signature
  if trimmed = "" then ""
  else if name = "" then joinFields trimmed.toList
  else
    match cut trimmed name with
    | none => joinFields trimmed.toList
    | some (before, after) => joinFields (before ++ "$symbol" ++ after).toList

/-- New ids are random, and no two are the same. -/
inductive SymbolID
  | issued (number : Nat)
  | legacy (repositoryID kind name path : String)
  deriving DecidableEq

structure RepositorySymbol where
  id : SymbolID
  repositoryID : String
  language : String
  kind : String
  displayName : String
  qualifiedName : String
  retired : Bool

def SymbolID.IsLegacy : SymbolID → Prop
  | .issued _ => False
  | .legacy _ _ _ _ => True

structure SymbolTable where
  table : Table RepositorySymbol.id
  issued : Nat
  below : ∀ number, (table.get? (.issued number)).isSome → number < issued
  legacy : ∀ id symbol, table.get? id = some symbol → id.IsLegacy → symbol.language = "legacy"

namespace SymbolTable

variable (symbols : SymbolTable) {id : SymbolID}

def get? (id : SymbolID) : Option RepositorySymbol := symbols.table.get? id

variable (repositoryID : String)

def created (language kind name qualified : String) : RepositorySymbol :=
  ⟨.issued symbols.issued, repositoryID, language, kind, name, qualified, false⟩

theorem below_created {repositoryID language kind name qualified : String} {number : Nat}
    (found : ((symbols.table.put (symbols.created repositoryID language kind name qualified)).get?
      (.issued number)).isSome) : number < symbols.issued + 1 := by
  rw [get?_put] at found
  split at found
  · next isNew =>
    have same : symbols.issued = number := SymbolID.issued.inj isNew
    omega
  · exact Nat.lt_succ_of_lt (symbols.below number found)

def create (language kind name qualified : String) : SymbolTable where
  table := symbols.table.put (symbols.created repositoryID language kind name qualified)
  issued := symbols.issued + 1
  below := fun _ found => symbols.below_created found
  legacy := by
    intro id symbol found isLegacy
    rw [get?_put] at found
    split at found
    · next isNew =>
      rw [← isNew] at isLegacy
      exact isLegacy.elim
    · exact symbols.legacy id symbol found isLegacy

/-- Change the rows, each under its own id and language. -/
def update (change : RepositorySymbol → RepositorySymbol)
    (keeps : ∀ symbol, (change symbol).id = symbol.id ∧
      (change symbol).language = symbol.language) :
    SymbolTable where
  table := symbols.table.map change fun symbol => (keeps symbol).1
  issued := symbols.issued
  below := by
    intro number found
    rw [get?_map, isSome_map] at found
    exact symbols.below number found
  legacy := by
    intro id symbol found isLegacy
    rw [get?_map] at found
    obtain ⟨old, isOld, rfl⟩ := map_eq_some_iff.mp found
    exact (keeps old).2.trans (symbols.legacy id old isOld isLegacy)

/-- `UPDATE repository_symbols SET display_name = ?, qualified_name = ?, retired_at = NULL`. -/
def rename (id : SymbolID) (name qualified : String) : SymbolTable :=
  symbols.update
    (fun symbol =>
      if symbol.id = id then
        { symbol with displayName := name, qualifiedName := qualified, retired := false }
      else symbol)
    fun symbol => by split <;> exact ⟨rfl, rfl⟩

/-- A promotion retires the symbols of the repository that do not occur in the generation, and
brings those back that do. -/
def retire (occurs : SymbolID → Bool) : SymbolTable :=
  symbols.update
    (fun symbol =>
      if symbol.repositoryID = repositoryID then { symbol with retired := !occurs symbol.id }
      else symbol)
    fun symbol => by split <;> exact ⟨rfl, rfl⟩

/-- `INSERT OR IGNORE` of a symbol that is known from before there were generations. -/
def addLegacy (kind name path : String) : SymbolTable where
  table := symbols.table.insertOrIgnore
    ⟨.legacy repositoryID kind name path, repositoryID, "legacy", kind, name, name, false⟩
  issued := symbols.issued
  below := by
    intro number found
    rw [get?_insertOrIgnore, if_neg (by simp), or_none] at found
    exact symbols.below number found
  legacy := by
    intro id symbol found isLegacy
    rw [get?_insertOrIgnore] at found
    rcases or_eq_some_iff.mp found with old | ⟨_, new⟩
    · exact symbols.legacy id symbol old isLegacy
    · split at new
      · exact Option.some.inj new ▸ rfl
      · cases new

variable {symbols}

theorem get?_update {change : RepositorySymbol → RepositorySymbol}
    {keeps : ∀ symbol, (change symbol).id = symbol.id ∧
      (change symbol).language = symbol.language} :
    (symbols.update change keeps).get? id = (symbols.get? id).map change :=
  get?_map fun symbol => (keeps symbol).1

theorem get?_retire {repositoryID : String} {occurs : SymbolID → Bool} :
    (symbols.retire repositoryID occurs).get? id =
      (symbols.get? id).map fun symbol =>
        if symbol.repositoryID = repositoryID then { symbol with retired := !occurs symbol.id }
        else symbol :=
  get?_update

end SymbolTable

structure Occurrence where
  symbolID : SymbolID
  filePath : String
  signature : String

/-- What belongs to one generation.  The nodes and edges are rows of a type of their own. -/
structure GenerationRows (ρ : Type) where
  generationID : String
  occurrences : Table Occurrence.symbolID
  graph : List ρ

variable {ρ : Type}

/-- The foreign key of the occurrences. -/
def GenerationRows.Known (symbols : SymbolTable) (row : GenerationRows ρ) : Prop :=
  ∀ occurrence ∈ row.occurrences.rows, (symbols.get? occurrence.symbolID).isSome

instance (symbols : SymbolTable) (row : GenerationRows ρ) : Decidable (row.Known symbols) :=
  inferInstanceAs (Decidable (∀ occurrence ∈ row.occurrences.rows, _))

structure GraphStore (ρ : Type) where
  generations : Generations
  symbols : SymbolTable
  rows : Table (@GenerationRows.generationID ρ)
  known : ∀ row ∈ rows.rows, row.Known symbols

namespace GraphStore

variable (store : GraphStore ρ)

def occurrences (generationID : String) : List Occurrence :=
  (store.rows.get? generationID).elim [] fun rows => rows.occurrences.rows

/-- Write the rows of one generation together with the symbols. -/
def write? (symbols : SymbolTable) (row : GenerationRows ρ) : Option (GraphStore ρ) :=
  if known : ∀ other ∈ (store.rows.put row).rows, other.Known symbols then
    some { store with symbols, rows := store.rows.put row, known }
  else none

theorem write?_eq {store next : GraphStore ρ} {symbols : SymbolTable} {row : GenerationRows ρ}
    (written : store.write? symbols row = some next) : next.generations = store.generations ∧
    next.symbols = symbols ∧ next.rows = store.rows.put row := by
  unfold write? at written
  split at written
  · cases written
    exact ⟨rfl, rfl, rfl⟩
  · cases written

end GraphStore

structure HistoryRow where
  symbol : RepositorySymbol
  occurrence : Occurrence
  generation : Generation

structure SymbolKey where
  language : String
  kind : String
  qualifiedName : String
  filePath : String
  deriving DecidableEq

namespace HistoryRow

variable (row : HistoryRow)

def rank : Nat := if row.generation.status = .current then 0 else 1

def id : SymbolID := row.symbol.id

def key : SymbolKey :=
  ⟨row.symbol.language, row.symbol.kind, row.symbol.qualifiedName, row.occurrence.filePath⟩

def shape : String := normalizedSymbolStructure row.symbol.displayName row.occurrence.signature

/-- Rows of current generations come first, then those of newer ones. -/
abbrev Before : HistoryRow → HistoryRow → Prop :=
  Newest rank fun row => row.generation.createdAt

end HistoryRow

/-- The live symbols of a repository, joined with their occurrences in other generations. -/
def GraphStore.history (store : GraphStore ρ) (repositoryID generationID : String) :
    List HistoryRow :=
  (store.generations.rows.filter fun generation => generation.id ≠ generationID).flatMap
    fun generation => (store.occurrences generation.id).filterMap fun occurrence =>
      ((store.symbols.get? occurrence.symbolID).filter fun symbol =>
        symbol.repositoryID = repositoryID ∧ symbol.retired = false).map
          (⟨·, occurrence, generation⟩)

/-- An id is not listed again right after itself. -/
def appendChanged (ids : List SymbolID) (id : SymbolID) : List SymbolID :=
  if ids.getLast? = some id then ids else ids ++ [id]

variable (prior : List HistoryRow)

/-- The ids of the symbols that had the key. -/
def priorIDs (key : SymbolKey) : List SymbolID :=
  ((prior.filter fun row => row.key = key).map HistoryRow.id).foldl appendChanged []

structure FoundSymbol where
  key : SymbolKey
  name : String
  signature : String

def FoundSymbol.shape (found : FoundSymbol) : String :=
  normalizedSymbolStructure found.name found.signature

def ExtractedFile.found (file : ExtractedFile) : List FoundSymbol :=
  file.symbols.map fun symbol =>
    ⟨⟨file.language, symbol.kind, qualifySymbol file symbol, file.path⟩, symbol.name,
      symbol.signature⟩

/-- The history that a shape is looked for in: that of builds that did not fail.  It is read
before a symbol of the language and kind is renamed. -/
def structuralCandidates (found : FoundSymbol) : List HistoryRow :=
  prior.filter fun row =>
    row.generation.status ∈ [.current, .superseded, .incomplete] ∧
      row.symbol.language = found.key.language ∧ row.symbol.kind = found.key.kind ∧
      row.shape = found.shape

def unclaimedCandidates (found : FoundSymbol) (claimed : List SymbolID) : List SymbolID :=
  if found.shape = "" then []
  else (((structuralCandidates prior found).map HistoryRow.id).filter (· ∉ claimed)).dedup

/-- The shared symbols while a build stores its own, and the ids it has used. -/
structure Matching where
  symbols : SymbolTable
  claimed : List SymbolID

/-- The symbol keeps the id it had, takes that of the only candidate, or gets a new one. -/
def findOrCreateSymbol (repositoryID : String) (matching : Matching)
    (found : FoundSymbol) : Matching × SymbolID :=
  match (priorIDs prior found.key).find? (· ∉ matching.claimed) with
  | some id => ({ matching with claimed := id :: matching.claimed }, id)
  | none =>
    match unclaimedCandidates prior found matching.claimed with
    | [id] =>
      (⟨matching.symbols.rename id found.name found.key.qualifiedName, id :: matching.claimed⟩, id)
    | _ =>
      ({ matching with
          symbols := matching.symbols.create repositoryID found.key.language found.key.kind
            found.name found.key.qualifiedName },
        .issued matching.symbols.issued)

def matchSymbols (prior : List HistoryRow) (repositoryID : String) :
    List FoundSymbol → Matching → Matching × List SymbolID
  | [], matching => (matching, [])
  | found :: rest, matching =>
    let first := findOrCreateSymbol prior repositoryID matching found
    let later := matchSymbols prior repositoryID rest first.1
    (later.1, first.2 :: later.2)

end OpenExec.Knowledge
