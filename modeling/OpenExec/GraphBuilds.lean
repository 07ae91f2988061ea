import OpenExec.SymbolIdentity

/-!
# Builds of the repository graph

A scan extracts every file of a worktree, and a refresh those that changed.
-/

namespace OpenExec.Knowledge

open KeyedRows OrderedQueries GoStrings

variable {ρ : Type}

def Generation.rank (generation : Generation) : Nat :=
  match generation.status with
  | .current => 0
  | .incomplete => 1
  | _ => 2

/-- A current generation comes first, then one that left source out, then any other one. -/
abbrev Generation.Before : Generation → Generation → Prop :=
  Newest Generation.rank Generation.createdAt

structure QueryOrders where
  active : OrderBy Generation.Before
  history : OrderBy HistoryRow.Before

def QueryOrders.stable : QueryOrders :=
  ⟨.stable Generation.Before, .stable HistoryRow.Before⟩

def GraphStore.activeGeneration (orders : QueryOrders) (store : GraphStore ρ)
    (worktreeID : String) :
    Option Generation :=
  orders.active.first (store.generations.rows.filter fun generation =>
    generation.worktreeID = worktreeID)

/-- A manifest whose hash is a digest. -/
structure Manifest extends ScanManifest where
  hashed : hasPrefix manifestHash "sha256:" = true

inductive BuildStage
  | identity
  | migration
  | query
  | abandoning
  | beginning
  | metadata
  | storing
  | finishing
  | cleanup

structure LegacySymbol where
  kind : String
  name : String
  path : String
  signature : String

/-- What one build meets.  A manifest that cannot be read is absent, and so are files that
cannot be extracted.  The files come with whether source was left out, and `graph` has the
nodes and edges for the ids of their symbols. -/
structure BuildRun (ρ : Type) where
  generationID : String
  now : Nat
  legacyID : String
  legacySymbols : List LegacySymbol
  legacyGraph : List ρ
  manifest : Option Manifest
  extracted : Option (List ExtractedFile × Bool)
  graph : List SymbolID → List ρ
  after : Option Manifest
  fails : BuildStage → Bool

def BuildRun.files (run : BuildRun ρ) : List ExtractedFile :=
  run.extracted.elim [] Prod.fst

def BuildRun.incomplete (run : BuildRun ρ) : Bool :=
  run.extracted.any Prod.snd

def BuildRun.found (run : BuildRun ρ) : List FoundSymbol :=
  run.files.flatMap ExtractedFile.found

def legacyVersion : String := "legacy-pointer-v0"

def legacyHash : String := "legacy-unversioned"

def LegacySymbol.kindName (symbol : LegacySymbol) : String :=
  if symbol.kind = "" then "unknown" else symbol.kind

def legacyGeneration (run : BuildRun ρ) (identity : RepositoryIdentity) : Generation :=
  ⟨run.legacyID, identity.repositoryID, identity.checkoutID, identity.worktreeID, legacyHash,
    legacyHash, legacyVersion, legacyHash, .incomplete, run.now, none⟩

def legacyOccurrence (repositoryID : String) (symbol : LegacySymbol) : Occurrence :=
  ⟨.legacy repositoryID symbol.kindName symbol.name symbol.path, symbol.path, symbol.signature⟩

def addLegacySymbols (repositoryID : String) (legacy : List LegacySymbol) (symbols : SymbolTable) :
    SymbolTable :=
  legacy.foldl
    (fun symbols symbol => symbols.addLegacy repositoryID symbol.kindName symbol.name symbol.path)
    symbols

namespace GraphStore

variable (orders : QueryOrders) (store : GraphStore ρ) (run : BuildRun ρ)
  (identity : RepositoryIdentity)

def migrated : Option (GraphStore ρ) :=
  (store.generations.insert? (legacyGeneration run identity)).bind fun generations =>
    (Table.ofRows? (run.legacySymbols.map (legacyOccurrence identity.repositoryID))).bind
      fun occurrences => { store with generations }.write?
        (addLegacySymbols identity.repositoryID run.legacySymbols store.symbols)
        ⟨run.legacyID, occurrences, run.legacyGraph⟩

/-- The pointers are migrated once for each worktree. -/
def migrateLegacySymbols : GraphStore ρ :=
  if run.fails .migration ∨ run.legacySymbols = [] ∨ store.generations.rows.any (fun generation =>
      generation.worktreeID = identity.worktreeID ∧
        generation.extractorVersion = legacyVersion) then
    store
  else (store.migrated run identity).getD store

def abandonBuilds (worktreeID : String) : GraphStore ρ :=
  { store with generations := store.generations.abandonBuilds worktreeID }

variable (version : String)

def beginGeneration (manifest : Manifest) : Option (GraphStore ρ) :=
  if run.fails .beginning then none
  else
    (store.generations.beginGeneration identity manifest.toScanManifest run.generationID version
      run.now).bind fun generations =>
        { store with generations }.write? store.symbols ⟨run.generationID, Table.empty, []⟩

def prior : List HistoryRow :=
  orders.history.arrange (store.history identity.repositoryID run.generationID)

def matched : Matching × List SymbolID :=
  matchSymbols (store.prior orders run identity) identity.repositoryID run.found ⟨store.symbols, []⟩

def foundOccurrence (pair : FoundSymbol × SymbolID) : Occurrence :=
  ⟨pair.2, pair.1.key.filePath, pair.1.signature⟩

def storeExtractedGraph : Option (GraphStore ρ) :=
  if run.fails .storing then none
  else
    (Table.ofRows? ((run.found.zip (store.matched orders run identity).2).map foundOccurrence)).bind
      fun occurrences =>
        store.write? (store.matched orders run identity).1.symbols
          ⟨run.generationID, occurrences, run.graph (store.matched orders run identity).2⟩

def failBuild (status : GraphStatus) : GraphStore ρ :=
  if run.fails .cleanup then store
  else { store with generations := store.generations.endBuild run.generationID status }

/-- The generation becomes current, and only the symbols that occur in it stay live. -/
def promoteGeneration (id : String) (now : Nat) : Option (GraphStore ρ) :=
  match store.generations.get? id with
  | none => none
  | some generation =>
    (store.generations.promoteGeneration id now).map fun generations =>
      { store with
        generations
        symbols := store.symbols.retire generation.repositoryID fun symbolID =>
          (store.occurrences id).any fun occurrence => occurrence.symbolID = symbolID
        known := by
          intro row member occurrence listed
          rw [SymbolTable.get?_retire, Option.isSome_map]
          exact store.known row member occurrence listed }

/-- A build that left source out does not become current. -/
def finished (incomplete : Bool) : Option (GraphStore ρ) :=
  if run.fails .finishing then none
  else if incomplete then
    (store.generations.completePartialGeneration run.generationID).map fun generations =>
      { store with generations }
  else store.promoteGeneration run.generationID run.now

def finishBuild (incomplete : Bool) : GraphStore ρ × Bool :=
  match store.finished run incomplete with
  | none => (store.failBuild run .failed, false)
  | some next => (next, true)

def completeBuild (drifted : Manifest → Bool) (incomplete : Bool) : GraphStore ρ × Bool :=
  match store.storeExtractedGraph orders run identity with
  | none => (store.failBuild run .failed, false)
  | some stored =>
    match run.after with
    | none => (stored.failBuild run .inconsistent, false)
    | some after =>
      if drifted after then (stored.failBuild run .inconsistent, false)
      else stored.finishBuild run incomplete

/-- A whole build, from the row of its generation to the end.  The result says whether it
succeeded. -/
def buildGeneration (manifest : Manifest) (drifted : Manifest → Bool) : GraphStore ρ × Bool :=
  match store.beginGeneration run identity version manifest with
  | none => (store, false)
  | some begun =>
    match run.extracted with
    | none => (begun.failBuild run .failed, false)
    | some (_, incomplete) =>
      if run.fails .metadata then (begun.failBuild run .failed, false)
      else begun.completeBuild orders run identity drifted incomplete

def scanDrifted (manifest after : Manifest) : Bool :=
  manifest.manifestHash ≠ after.manifestHash ∨
    manifest.configurationDigest ≠ after.configurationDigest

def scanRepository : GraphStore ρ × Bool :=
  if run.fails .identity then (store, false)
  else
    match run.manifest with
    | none => (store.migrateLegacySymbols run identity, false)
    | some manifest =>
      if run.fails .abandoning then (store.migrateLegacySymbols run identity, false)
      else
        ((store.migrateLegacySymbols run identity).abandonBuilds
          identity.worktreeID).buildGeneration
          orders run identity version manifest (scanDrifted manifest)

/-- `PlanInvalidation` and the status of the generation, as far as they call for a full scan. -/
def planFullScan (previous : Generation) (current : Manifest) (version : String) : Bool :=
  previous.extractorVersion ≠ version ∨ previous.configurationDigest ≠ current.configurationDigest ∨
    previous.status ∉ [.current, .stale, .superseded]

def refreshDrifted (manifest after : Manifest) : Bool :=
  manifest.manifestHash ≠ after.manifestHash

/-- The files that changed are extracted, and the others carried over, before the build begins. -/
def refreshIncrementally (current : Manifest) : GraphStore ρ × Bool :=
  match run.extracted with
  | none => (store, false)
  | some _ => store.buildGeneration orders run identity version current (refreshDrifted current)

/-- What a refresh does with the store, and whether the graph changed unless it failed.  The
refresh reads a manifest of its own to plan. -/
def refreshRepository (current : Option Manifest) (version : String) : GraphStore ρ × Option Bool :=
  let built (result : GraphStore ρ × Bool) : GraphStore ρ × Option Bool :=
    (result.1, if result.2 then some true else none)
  if run.fails .identity ∨ run.fails .query then (store, none)
  else
    match store.activeGeneration orders identity.worktreeID, current with
    | none, _ => built (store.scanRepository orders run identity version)
    | some previous, current =>
      if previous.extractorVersion = legacyVersion then
        built (store.scanRepository orders run identity version)
      else
        match current with
        | none => (store, none)
        | some current =>
          if planFullScan previous current version then
            built (store.scanRepository orders run identity version)
          else if previous.manifestHash = current.manifestHash then (store, some false)
          else built (store.refreshIncrementally orders run identity version current)

end GraphStore

inductive BuildAction (ρ : Type)
  | scan (run : BuildRun ρ) (identity : RepositoryIdentity) (version : String)
  | refresh (run : BuildRun ρ) (identity : RepositoryIdentity) (planned : Option Manifest)
      (version : String)

namespace GraphStore

def empty : GraphStore ρ where
  generations := Table.empty
  symbols := ⟨Table.empty, 0, (fun _ found => by cases found), (fun _ _ found => by cases found)⟩
  rows := Table.empty
  known _ member := by cases member

def build (orders : QueryOrders) (store : GraphStore ρ) : BuildAction ρ → GraphStore ρ × Bool
  | .scan run identity version => store.scanRepository orders run identity version
  | .refresh run identity planned version =>
    let refreshed := store.refreshRepository orders run identity planned version
    (refreshed.1, refreshed.2 = some true)

end GraphStore

namespace GraphStore

variable {orders : QueryOrders} {store : GraphStore ρ} {run : BuildRun ρ}
  {identity : RepositoryIdentity}
  {version : String}

def IsFailure (status : GraphStatus) : Prop :=
  status = .failed ∨ status = .inconsistent

section

variable (orders : QueryOrders) (store : GraphStore ρ) (run : BuildRun ρ)
  (identity : RepositoryIdentity) (version : String) (manifest : Manifest)

inductive Builds : GraphStore ρ × Bool → Prop
  | refused : Builds (store, false)
  | failed {begun : GraphStore ρ} {status : GraphStatus}
      (isBegun : store.beginGeneration run identity version manifest = some begun)
      (failure : IsFailure status) :
      Builds (begun.failBuild run status, false)
  | discarded {begun stored : GraphStore ρ} {status : GraphStatus}
      (isBegun : store.beginGeneration run identity version manifest = some begun)
      (isStored : begun.storeExtractedGraph orders run identity = some stored)
      (failure : IsFailure status) :
      Builds (stored.failBuild run status, false)
  | completed {begun stored : GraphStore ρ} {generations : Generations}
      (isBegun : store.beginGeneration run identity version manifest = some begun)
      (isStored : begun.storeExtractedGraph orders run identity = some stored)
      (incomplete : run.incomplete = true)
      (isCompleted : stored.generations.completePartialGeneration run.generationID =
        some generations) :
      Builds ({ stored with generations }, true)
  | promoted {begun stored next : GraphStore ρ}
      (isBegun : store.beginGeneration run identity version manifest = some begun)
      (isStored : begun.storeExtractedGraph orders run identity = some stored)
      (complete : run.incomplete = false)
      (isPromoted : stored.promoteGeneration run.generationID run.now = some next) :
      Builds (next, true)

/-- A scan migrates the pointers and gives up on unfinished builds before it builds. -/
inductive Acts : GraphStore ρ × Bool → Prop
  | unchanged : Acts (store, false)
  | migrated : Acts (store.migrateLegacySymbols run identity, false)
  | scanned {manifest : Manifest} {result : GraphStore ρ × Bool}
      (builds : Builds orders ((store.migrateLegacySymbols run identity).abandonBuilds
        identity.worktreeID) run identity version manifest result) :
      Acts result
  | refreshed {manifest : Manifest} {result : GraphStore ρ × Bool}
      (builds : Builds orders store run identity version manifest result) :
      Acts result

end

theorem buildGeneration_builds {manifest : Manifest} {drifted : Manifest → Bool} :
    Builds orders store run identity version manifest
      (store.buildGeneration orders run identity version manifest drifted) := by
  unfold buildGeneration
  split
  · exact .refused
  next begun isBegun =>
  split
  · exact .failed isBegun (.inl rfl)
  next files incomplete isExtracted =>
  have same : run.incomplete = incomplete := by simp [BuildRun.incomplete, isExtracted]
  split
  · exact .failed isBegun (.inl rfl)
  unfold completeBuild
  split
  · exact .failed isBegun (.inl rfl)
  next stored isStored =>
  split
  · exact .discarded isBegun isStored (.inr rfl)
  split
  · exact .discarded isBegun isStored (.inr rfl)
  unfold finishBuild
  split
  · exact .discarded isBegun isStored (.inl rfl)
  next next isNext =>
  unfold finished at isNext
  split at isNext
  · cases isNext
  split at isNext
  · next left =>
    obtain ⟨generations, isCompleted, rfl⟩ := Option.map_eq_some_iff.mp isNext
    exact .completed isBegun isStored (same.trans left) isCompleted
  · next whole => exact .promoted isBegun isStored (same.trans (by simpa using whole)) isNext

theorem scanRepository_acts :
    Acts orders store run identity version (store.scanRepository orders run identity version) := by
  unfold scanRepository
  split
  · exact .unchanged
  split
  · exact .migrated
  split
  · exact .migrated
  · exact .scanned buildGeneration_builds

theorem refreshRepository_acts {planned : Option Manifest} : Acts orders store run identity version
      ((store.refreshRepository orders run identity planned version).1,
        (store.refreshRepository orders run identity planned version).2 = some true) := by
  have built {result : GraphStore ρ × Bool} (acts : Acts orders store run identity version result) :
      Acts orders store run identity version
        (result.1, (if result.2 then some true else none) = some true) := by
    obtain ⟨next, succeeded⟩ := result
    cases succeeded <;> exact acts
  unfold refreshRepository
  split
  · exact .unchanged
  split
  · exact built scanRepository_acts
  split
  · exact built scanRepository_acts
  split
  · exact .unchanged
  split
  · exact built scanRepository_acts
  split
  · exact .unchanged
  · refine built ?_
    unfold refreshIncrementally
    split
    · exact .unchanged
    · exact .refreshed buildGeneration_builds

end GraphStore

def smallIdentity : RepositoryIdentity := ⟨"R", "C", "W", "/repo"⟩

def smallManifest : Manifest := ⟨⟨"sha256:1", "sha256:2"⟩, by decide⟩

def smallRun (generationID : String) (files : List ExtractedFile) (incomplete : Bool) :
    BuildRun Unit where
  generationID
  now := 0
  legacyID := ""
  legacySymbols := []
  legacyGraph := []
  manifest := some smallManifest
  extracted := some (files, incomplete)
  graph _ := []
  after := some smallManifest
  fails _ := false

end OpenExec.Knowledge
