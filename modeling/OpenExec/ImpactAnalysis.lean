import OpenExec.GraphGenerations
import OpenExec.GraphRows
import OpenExec.LeastRows

/-!
# Impact of changed symbols

The analysis goes from each changed symbol against the edges of its callers, and from
the module of the symbol against the edges of its importers.
-/

namespace OpenExec.Knowledge

open KeyedRows GoStrings

structure GraphLimits where
  maxDepth : Int
  maxNodes : Int
  maxEdges : Int
  maxBytes : Int

def defaultGraphLimits : GraphLimits where
  maxDepth := 2
  maxNodes := 200
  maxEdges := 400
  maxBytes := 256 * 1024

structure ImpactPath where
  fromNodeID : String
  edgeID : String
  edgeType : EdgeType
  toNodeID : String
  reason : String
  deriving DecidableEq

structure ImpactNode where
  node : GraphNode
  path : List ImpactPath
  deriving DecidableEq

def ImpactNode.id (impact : ImpactNode) : String := impact.node.id

def ImpactNode.length (impact : ImpactNode) : Nat := impact.path.length

structure RelatedTest where
  filePath : String
  reason : String
  path : List ImpactPath
  deriving DecidableEq

def RelatedTest.length (test : RelatedTest) : Nat := test.path.length

inductive Note
  | limitation (text : String)
  | runtimeRegistration
  | symbolMissing (symbolID : String)
  | testBound (scope : String) (maxNodes : Int)
  | effectEdgeBound (nodeID : String) (maxEdges : Int)
  | effectBound (maxNodes : Int)
  | fixtureEdgeBound (nodeID : String) (maxEdges : Int)
  | callerEdgeBound (symbolID nodeID : String) (maxEdges : Int)
  | callerBound (symbolID : String) (maxNodes : Int)
  | importEdgeBound (symbolID nodeID : String) (maxEdges : Int)
  | dependantBound (symbolID : String) (maxNodes : Int)
  | testEdgeBound (symbolID nodeID : String) (maxEdges : Int)
  | byteBound (maxBytes : Int)
  | incompleteGraph
  deriving DecidableEq

/-- `appendUniqueString`. -/
def appendUnique (notes : List Note) (note : Note) : List Note :=
  if note ∈ notes then notes else notes ++ [note]

inductive Fault
  | nodeMissing (nodeID : String)

structure Reach where
  changed : List GraphSymbol
  directCallers : Table ImpactNode.id
  affectedCallers : Table ImpactNode.id
  dependants : Table ImpactNode.id
  effects : Table ImpactNode.id
  tests : Table RelatedTest.filePath
  methods : List ResolutionStatus
  unresolved : List Note
  truncated : Bool

namespace Reach

def cut (reach : Reach) (note : Note) : Reach :=
  { reach with truncated := true, unresolved := appendUnique reach.unresolved note }

def cutIf (reach : Reach) (reached : Bool) (note : Note) : Reach :=
  if reached then reach.cut note else reach

def keepBoundedTest (limits : GraphLimits) (reach : Reach) (candidate : RelatedTest)
    (scope : String) : Reach :=
  if reach.tests.get? candidate.filePath = none ∧ limits.maxNodes ≤ reach.tests.rows.length then
    reach.cut (.testBound scope limits.maxNodes)
  else { reach with tests := reach.tests.keepLeast RelatedTest.length candidate }

def keepTestOfEdge (limits : GraphLimits) (reach : Reach) (candidate : RelatedTest)
    (scope : String) (edge : GraphEdge) : Reach :=
  let kept := reach.keepBoundedTest limits candidate scope
  { kept with methods := kept.methods ++ [edge.resolution] }

end Reach

namespace Graph

variable (graph : Graph)

/-- At most `limit` edges, and whether there are more. -/
def loadTypedImpactEdges (endpoint : GraphEdge → String) (nodeID : String) (types : List EdgeType)
    (limit : Int) : List GraphEdge × Bool :=
  if limit ≤ 0 ∨ types = [] then ([], false)
  else
    let rows := (graph.typedEdges endpoint nodeID types).take (limit.toNat + 1)
    (rows.take limit.toNat, limit.toNat < rows.length)

variable (nodeID : String)

def loadIncomingImpactEdges (types : List EdgeType) (limit : Int) : List GraphEdge × Bool :=
  graph.loadTypedImpactEdges GraphEdge.toNodeID nodeID types limit

def loadOutgoingImpactEdges (types : List EdgeType) (limit : Int) : List GraphEdge × Bool :=
  graph.loadTypedImpactEdges GraphEdge.fromNodeID nodeID types limit

def loadGraphNode : Except Fault GraphNode :=
  match graph.nodes.get? nodeID with
  | none => .error (.nodeMissing nodeID)
  | some node => .ok node

def effectStep (originName : String) (node : GraphNode) (edge : GraphEdge) : ImpactPath where
  fromNodeID := edge.fromNodeID
  edgeID := edge.id
  edgeType := edge.type
  toNodeID := edge.toNodeID
  reason := originName ++ " can cause " ++ node.displayName

variable (limits : GraphLimits) (originName : String) (affectedPath : List ImpactPath)

def collectEffect (reach : Reach) (edge : GraphEdge) : Except Fault Reach :=
  if reach.effects.get? edge.toNodeID = none ∧ limits.maxNodes ≤ reach.effects.rows.length then
    .ok (reach.cut (.effectBound limits.maxNodes))
  else do
    let node ← graph.loadGraphNode edge.toNodeID
    pure { reach with
      effects := reach.effects.keepLeast ImpactNode.length
        ⟨node, affectedPath ++ [effectStep originName node edge]⟩
      methods := reach.methods ++ [edge.resolution] }

def collectEffects (originID originName : String)
    (affectedPath : List ImpactPath) (reach : Reach) : Except Fault Reach :=
  let loaded := graph.loadOutgoingImpactEdges originID [.hasOperationalEffect] limits.maxEdges
  loaded.1.foldlM (graph.collectEffect limits originName affectedPath)
    (reach.cutIf loaded.2 (.effectEdgeBound originID limits.maxEdges))

def fixtureStep (node : GraphNode) (edge : GraphEdge) : ImpactPath where
  fromNodeID := edge.fromNodeID
  edgeID := edge.id
  edgeType := edge.type
  toNodeID := edge.toNodeID
  reason := node.qualifiedName ++ " is registered evidence for affected consumer " ++ originName

def collectFixture (reach : Reach) (edge : GraphEdge) : Except Fault Reach := do
  let node ← graph.loadGraphNode edge.toNodeID
  pure (reach.keepTestOfEdge limits
    { filePath := node.qualifiedName
      reason := "registered browser or unit fixture for an affected consumer"
      path := affectedPath ++ [fixtureStep originName node edge] }
    "registered browser/unit evidence" edge)

/-- The fixtures of a module hang on the module itself, those of a symbol on what contains
it. -/
def collectBrowserTests (originID originName : String) (isModule : Bool)
    (affectedPath : List ImpactPath) (reach : Reach) : Except Fault Reach :=
  match if isModule then some originID else graph.container originID with
  | none => .ok reach
  | some moduleID =>
    let loaded := graph.loadOutgoingImpactEdges moduleID [.testedBy] limits.maxEdges
    loaded.1.foldlM (graph.collectFixture limits originName affectedPath)
      (reach.cutIf loaded.2 (.fixtureEdgeBound originID limits.maxEdges))

end Graph

/-- What tells the search for callers from the search for dependants. -/
structure Sweep where
  types : List EdgeType
  edgeNote : String → Note
  /-- The bound on nodes has no room for one more. -/
  exceeds : Reach → String → Bool
  reason : GraphNode → GraphEdge → GraphNode → String
  record : Nat → GraphEdge → ImpactNode → Reach → Except Fault Reach

structure Search where
  reach : Reach
  seen : List String
  next : List ImpactNode
  exhausted : Bool

namespace Sweep

variable (sweep : Sweep) (graph : Graph) (limits : GraphLimits)

def pathStep (node current : GraphNode) (edge : GraphEdge) : ImpactPath where
  fromNodeID := edge.fromNodeID
  edgeID := edge.id
  edgeType := edge.type
  toNodeID := edge.toNodeID
  reason := sweep.reason node edge current

def visit (depth : Nat) (current : ImpactNode) (search : Search) (edge : GraphEdge) :
    Except Fault Search :=
  if edge.fromNodeID ∈ search.seen then .ok search
  else if sweep.exceeds search.reach edge.fromNodeID then
    .ok { search with reach := { search.reach with truncated := true }, exhausted := true }
  else do
    let node ← graph.loadGraphNode edge.fromNodeID
    let impact : ImpactNode := ⟨node, sweep.pathStep node current.node edge :: current.path⟩
    let reach ← sweep.record depth edge impact search.reach
    pure { search with reach, seen := node.id :: search.seen, next := search.next ++ [impact] }

def expand (depth : Nat) (search : Search) (current : ImpactNode) : Except Fault Search :=
  let loaded := graph.loadIncomingImpactEdges current.id sweep.types limits.maxEdges
  loaded.1.foldlM (sweep.visit graph depth current)
    { search with reach := search.reach.cutIf loaded.2 (sweep.edgeNote current.id) }

def layers : Nat → Nat → List ImpactNode → Search → Except Fault Search
  | 0, _, _, search => .ok search
  | left + 1, depth, frontier, search =>
    if frontier = [] then .ok search
    else do
      let found ← frontier.foldlM (sweep.expand graph limits depth) { search with next := [] }
      layers left (depth + 1) found.next found

def run (maxDepth : Nat) (root : GraphNode) (reach : Reach) : Except Fault Search :=
  sweep.layers graph limits maxDepth 0 [⟨root, []⟩]
    { reach, seen := [root.id], next := [], exhausted := false }

end Sweep

def callerTypes : List EdgeType :=
  [.calls, .references, .implementsHTTPOperation, .usesHTTPOperation, .httpContractConsumer,
    .usesPersistedField, .exercisesSurface]

def dependantTypes : List EdgeType := [.imports, .generatedFrom]

namespace Reach

def keepCaller (reach : Reach) (depth : Nat) (impact : ImpactNode) : Reach :=
  if depth = 0 then
    { reach with
      directCallers := reach.directCallers.keepLeast ImpactNode.length impact
      affectedCallers := reach.affectedCallers.erase impact.id }
  else if reach.directCallers.get? impact.id = none then
    { reach with affectedCallers := reach.affectedCallers.keepLeast ImpactNode.length impact }
  else reach

end Reach

def callerSweep (graph : Graph) (limits : GraphLimits) (symbolID : String) : Sweep where
  types := callerTypes
  edgeNote nodeID := .callerEdgeBound symbolID nodeID limits.maxEdges
  exceeds reach nodeID :=
    reach.directCallers.get? nodeID = none ∧ reach.affectedCallers.get? nodeID = none ∧
      limits.maxNodes ≤ (reach.directCallers.rows.length + reach.affectedCallers.rows.length : Nat)
  reason node edge current :=
    node.qualifiedName ++ " " ++ edge.type.name ++ " affected symbol " ++ current.qualifiedName
  record depth edge impact reach := do
    let kept := reach.keepCaller depth impact
    let withEffects ← graph.collectEffects limits impact.id impact.node.qualifiedName impact.path
      { kept with methods := kept.methods ++ [edge.resolution] }
    let withFixtures ← graph.collectBrowserTests limits impact.id impact.node.qualifiedName
      (impact.node.nodeType = .sourceModule) impact.path withEffects
    pure (if isTestFile edge.sourceFilePath then
      withFixtures.keepBoundedTest limits
        { filePath := edge.sourceFilePath
          reason := "test references a changed or affected symbol"
          path := impact.path }
        "call/reference test evidence"
    else withFixtures)

def dependantSweep (limits : GraphLimits) (symbolID : String) : Sweep where
  types := dependantTypes
  edgeNote nodeID := .importEdgeBound symbolID nodeID limits.maxEdges
  exceeds reach nodeID :=
    reach.dependants.get? nodeID = none ∧ limits.maxNodes ≤ reach.dependants.rows.length
  reason node _ current := node.qualifiedName ++ " imports affected module " ++
    current.qualifiedName
  record _ edge impact reach :=
    let kept := { reach with
      dependants := reach.dependants.keepLeast ImpactNode.length impact
      methods := reach.methods ++ [edge.resolution] }
    .ok (if isTestFile impact.node.qualifiedName then
      kept.keepBoundedTest limits
        { filePath := impact.node.qualifiedName
          reason := "test module imports an affected module"
          path := impact.path }
        "module test evidence"
    else kept)

namespace Graph

variable (graph : Graph)

/-- The node of a symbol and the module that contains it.  A module that cannot be loaded
counts as an absent symbol. -/
def loadImpactRoot (symbolID : String) : Option (GraphSymbol × String × Option GraphNode) := do
  let occurrence ← graph.occurrences.get? symbolID
  let symbol ← graph.symbols.get? symbolID
  match graph.container occurrence.nodeID with
  | none => pure (symbol, occurrence.nodeID, none)
  | some moduleID =>
    let moduleNode ← graph.nodes.get? moduleID
    pure (symbol, occurrence.nodeID, some moduleNode)

def structuralStep (moduleNode node : GraphNode) (edge : GraphEdge) : ImpactPath where
  fromNodeID := edge.fromNodeID
  edgeID := edge.id
  edgeType := edge.type
  toNodeID := edge.toNodeID
  reason := node.qualifiedName ++ " is structurally related to changed module " ++
    moduleNode.qualifiedName

variable (limits : GraphLimits)

def collectStructuralTest (moduleNode : GraphNode) (reach : Reach)
    (edge : GraphEdge) : Except Fault Reach := do
  let node ← graph.loadGraphNode edge.toNodeID
  pure (reach.keepTestOfEdge limits
    { filePath := node.qualifiedName
      reason := "structural test relationship; not behavioral proof"
      path := [structuralStep moduleNode node edge] }
    "structural test evidence" edge)

def collectStructuralTests (symbolID : String) (moduleNode : GraphNode)
    (reach : Reach) : Except Fault Reach :=
  let loaded := graph.loadOutgoingImpactEdges moduleNode.id [.testedBy] limits.maxEdges
  loaded.1.foldlM (graph.collectStructuralTest limits moduleNode)
    (reach.cutIf loaded.2 (.testEdgeBound symbolID moduleNode.id limits.maxEdges))

def closeSearch (search : Search) (note : Note) : Reach :=
  if search.exhausted then
    { search.reach with unresolved := appendUnique search.reach.unresolved note }
  else search.reach

/-- The node that a search for callers starts from has only an id and a name. -/
def rootNode (symbol : GraphSymbol) (nodeID : String) : GraphNode where
  id := nodeID
  nodeType := .symbol
  language := ""
  displayName := ""
  qualifiedName := symbol.qualifiedName

variable (maxDepth : Nat)

def analyseModule (symbolID : String)
    (moduleNode : GraphNode) (reach : Reach) : Except Fault Reach := do
  let search ← (dependantSweep limits symbolID).run graph limits maxDepth moduleNode reach
  graph.collectStructuralTests limits symbolID moduleNode
    (closeSearch search (.dependantBound symbolID limits.maxNodes))

def analyseCallers (symbolID : String)
    (symbol : GraphSymbol) (nodeID : String) (reach : Reach) : Except Fault Reach := do
  let withEffects ← graph.collectEffects limits nodeID symbol.qualifiedName []
    { reach with changed := reach.changed ++ [symbol] }
  let withFixtures ← graph.collectBrowserTests limits nodeID symbol.qualifiedName false []
    withEffects
  let search ← (callerSweep graph limits symbolID).run graph limits maxDepth
    (rootNode symbol nodeID) withFixtures
  pure (closeSearch search (.callerBound symbolID limits.maxNodes))

def analyseRoot (reach : Reach) (symbolID : String) : Except Fault Reach :=
  match graph.loadImpactRoot symbolID with
  | none => .ok { reach with unresolved := reach.unresolved ++ [.symbolMissing symbolID] }
  | some (symbol, nodeID, none) => graph.analyseCallers limits maxDepth symbolID symbol nodeID reach
  | some (symbol, nodeID, some moduleNode) => do
      let withCallers ← graph.analyseCallers limits maxDepth symbolID symbol nodeID reach
      graph.analyseModule limits maxDepth symbolID moduleNode withCallers

end Graph

structure ValidationRecommendation where
  criterion : String
  scope : String
  testFiles : List String
  graphPaths : List ImpactPath
  limitations : List String
  deriving DecidableEq

structure ImpactResult where
  changed : List GraphSymbol
  directCallers : List ImpactNode
  affectedCallers : List ImpactNode
  moduleDependants : List ImpactNode
  operationalEffects : List ImpactNode
  relatedTests : List RelatedTest
  unresolved : List Note
  validationRecommendations : List ValidationRecommendation

inductive ResolutionKind
  | unavailable
  | bounded

/-- `depthLimitation` has the requested depth and the limit that it exceeds. -/
structure ImpactEnvelope where
  roots : List String
  generation : Generation
  result : ImpactResult
  resolution : ResolutionKind
  methods : List ResolutionStatus
  limitations : List String
  depthLimitation : Option (Int × Int)
  truncated : Bool

def sortByName (nodes : List ImpactNode) : List ImpactNode :=
  nodes.insertionSort fun first second => first.node.qualifiedName ≤ second.node.qualifiedName

def recommend (tests : List RelatedTest) : List ValidationRecommendation :=
  if tests = [] then []
  else
    [{ criterion := "Structurally related tests for changed symbols pass"
       scope := "related_tests"
       testFiles := tests.map RelatedTest.filePath
       graphPaths := tests.flatMap RelatedTest.path
       limitations := ["test relationship selects candidates but does not prove behavioral coverage"] }]

def Reach.result (reach : Reach) : ImpactResult :=
  let tests := reach.tests.rows.insertionSort fun first second => first.filePath ≤ second.filePath
  { changed := reach.changed.insertionSort fun first second =>
      first.qualifiedName ≤ second.qualifiedName
    directCallers := sortByName reach.directCallers.rows
    affectedCallers := sortByName reach.affectedCallers.rows
    moduleDependants := sortByName reach.dependants.rows
    operationalEffects := sortByName reach.effects.rows
    relatedTests := tests
    unresolved := reach.unresolved
    validationRecommendations := recommend tests }

/-- What is left out next of an answer that is too large. -/
def ImpactResult.shrink (result : ImpactResult) : Option ImpactResult :=
  if result.affectedCallers ≠ [] then
    some { result with affectedCallers := result.affectedCallers.dropLast }
  else if result.moduleDependants ≠ [] then
    some { result with moduleDependants := result.moduleDependants.dropLast }
  else if result.operationalEffects ≠ [] then
    some { result with operationalEffects := result.operationalEffects.dropLast }
  else if result.relatedTests ≠ [] then
    some { result with relatedTests := result.relatedTests.dropLast }
  else if result.directCallers ≠ [] then
    some { result with directCallers := result.directCallers.dropLast }
  else none

def ImpactResult.items (result : ImpactResult) : Nat :=
  result.affectedCallers.length + result.moduleDependants.length +
    result.operationalEffects.length + result.relatedTests.length + result.directCallers.length

theorem ImpactResult.items_shrink {result smaller : ImpactResult}
    (shrinks : result.shrink = some smaller) : smaller.items < result.items := by
  have dropped : ∀ {α : Type} (rows : List α), rows ≠ [] → rows.dropLast.length < rows.length := by
    intro α rows nonempty
    have := List.length_pos_of_ne_nil nonempty
    rw [List.length_dropLast]
    omega
  unfold ImpactResult.shrink at shrinks
  unfold ImpactResult.items
  iterate 5
    split at shrinks
    · next nonempty =>
      have shorter := dropped _ nonempty
      cases shrinks
      dsimp only
      omega
  · cases shrinks

/- The length of the encoded answer. -/
variable (size : ImpactEnvelope → Nat)

def shrinkTo (maxBytes : Int) (envelope : ImpactEnvelope) : ImpactEnvelope :=
  if size envelope ≤ maxBytes then envelope
  else
    match _shrinks : envelope.result.shrink with
    | none => envelope
    | some smaller => shrinkTo maxBytes { envelope with result := smaller }
termination_by envelope.result.items
decreasing_by exact ImpactResult.items_shrink _shrinks

def boundImpactEnvelopeBytes (maxBytes : Int) (envelope : ImpactEnvelope) : ImpactEnvelope :=
  if maxBytes ≤ 0 ∨ size envelope ≤ maxBytes then envelope
  else
    shrinkTo size maxBytes
      { envelope with
        truncated := true
        result := { envelope.result with
          unresolved := appendUnique envelope.result.unresolved (.byteBound maxBytes)
          validationRecommendations := [] } }

def normalizeImpactBounds (maxDepth : Int) (limits : GraphLimits) :
    Int × GraphLimits × Option (Int × Int) :=
  let bounds := if limits.maxDepth ≤ 0 then defaultGraphLimits else limits
  let depth := if maxDepth ≤ 0 then 2 else maxDepth
  if bounds.maxDepth < depth then (bounds.maxDepth, bounds, some (depth, bounds.maxDepth))
  else (depth, bounds, none)

def initialReach (generationLimitations : List String) : Reach where
  changed := []
  directCallers := Table.empty
  affectedCallers := Table.empty
  dependants := Table.empty
  effects := Table.empty
  tests := Table.empty
  methods := []
  unresolved := generationLimitations.map .limitation ++ [.runtimeRegistration]
  truncated := false

def unavailableEnvelope (generation : Generation) (symbolIDs : List String) : ImpactEnvelope where
  roots := symbolIDs
  generation := generation
  result :=
    { changed := [], directCallers := [], affectedCallers := [], moduleDependants := []
      operationalEffects := [], relatedTests := [], unresolved := [.incompleteGraph]
      validationRecommendations := [] }
  resolution := .unavailable
  methods := [.unresolved]
  limitations := ["use normal repository inspection"]
  depthLimitation := none
  truncated := false

def impactAnalysisForGeneration (graph : Graph) (generation : Generation)
    (generationLimitations : List String) (symbolIDs : List String) (maxDepth : Int)
    (limits : GraphLimits) (depthLimitation : Option (Int × Int)) : Except Fault ImpactEnvelope :=
  if generation.status ≠ .current then .ok (unavailableEnvelope generation symbolIDs)
  else do
    let reach ← symbolIDs.foldlM (graph.analyseRoot limits maxDepth.toNat)
      (initialReach generationLimitations)
    pure (boundImpactEnvelopeBytes size limits.maxBytes
      { roots := symbolIDs
        generation := generation
        result := reach.result
        resolution := .bounded
        methods := reach.methods.dedup
        limitations := generationLimitations
        depthLimitation := depthLimitation
        truncated := reach.truncated || depthLimitation.isSome })

def impactAnalysis (graph : Graph) (generation : Generation) (generationLimitations : List String)
    (symbolIDs : List String) (maxDepth : Int) (limits : GraphLimits) :
    Except Fault ImpactEnvelope :=
  let bounds := normalizeImpactBounds maxDepth limits
  impactAnalysisForGeneration size graph generation generationLimitations symbolIDs bounds.1
    bounds.2.1 bounds.2.2

end OpenExec.Knowledge
