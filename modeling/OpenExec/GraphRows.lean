import Mathlib.Data.List.Sort
import OpenExec.KeyedRows
import OpenExec.PathValidation

/-!
# The rows of a repository graph

A generation of the graph has nodes, edges between them, and an occurrence for each
symbol it found.
-/

namespace OpenExec.Knowledge

open KeyedRows GoStrings List

inductive ResolutionStatus
  | compilerExact
  | astExact
  | configurationDerived
  | staticLexical
  | heuristic
  | unresolved
  | ambiguous
  deriving DecidableEq

inductive NodeType
  | repository
  | package
  | sourceModule
  | symbol
  | externalPackage
  | operationalEffect
  deriving DecidableEq

/-- Relations that are read from manifests name their edges themselves. -/
inductive EdgeType
  | contains
  | exports
  | imports
  | testedBy
  | calls
  | references
  | implementsHTTPOperation
  | usesHTTPOperation
  | httpContractConsumer
  | usesPersistedField
  | exercisesSurface
  | generatedFrom
  | hasOperationalEffect
  | named (name : String)
  deriving DecidableEq

def EdgeType.name : EdgeType → String
  | .contains => "contains"
  | .exports => "exports"
  | .imports => "imports"
  | .testedBy => "tested_by"
  | .calls => "calls"
  | .references => "references"
  | .implementsHTTPOperation => "implements_http_operation"
  | .usesHTTPOperation => "uses_http_operation"
  | .httpContractConsumer => "http_contract_consumer"
  | .usesPersistedField => "uses_persisted_field"
  | .exercisesSurface => "exercises_surface"
  | .generatedFrom => "generated_from"
  | .hasOperationalEffect => "has_operational_effect"
  | .named name => name

def isTestFile (path : String) : Bool :=
  let base := PathValidation.base path.toList
  hasSuffix base "_test.go" || contains base ".test." || contains base ".spec." ||
    contains path.toList "/__tests__/" || hasPrefix path "tests/"

structure GraphNode where
  id : String
  nodeType : NodeType
  language : String
  displayName : String
  qualifiedName : String
  deriving DecidableEq

structure GraphEdge where
  id : String
  fromNodeID : String
  toNodeID : String
  type : EdgeType
  resolution : ResolutionStatus
  sourceFilePath : String
  sourceStartByte : Int
  sourceEndByte : Int

structure GraphSymbol where
  id : String
  language : String
  kind : String
  displayName : String
  qualifiedName : String
  deriving DecidableEq

structure SymbolOccurrence where
  symbolID : String
  nodeID : String
  filePath : String
  signature : String
  startByte : Int
  endByte : Int
  exported : Bool
  resolution : ResolutionStatus

/-- A generation, with the symbols it shares.  Edges join nodes of the generation, and every
occurrence is of a symbol. -/
structure Graph where
  symbols : Table GraphSymbol.id
  nodes : Table GraphNode.id
  edges : Table GraphEdge.id
  occurrences : Table SymbolOccurrence.symbolID
  edge_nodes : ∀ edge ∈ edges.rows,
    (nodes.get? edge.fromNodeID).isSome ∧ (nodes.get? edge.toNodeID).isSome
  occurrence_symbol : ∀ occurrence ∈ occurrences.rows, (symbols.get? occurrence.symbolID).isSome

namespace Graph

variable (graph : Graph)

def typedEdges (endpoint : GraphEdge → String) (nodeID : String) (types : List EdgeType) :
    List GraphEdge :=
  (graph.edges.rows.filter fun edge => endpoint edge = nodeID ∧ edge.type ∈ types).insertionSort
    fun first second => first.id ≤ second.id

def container (nodeID : String) : Option String :=
  (graph.edges.rows.find? fun edge => edge.toNodeID = nodeID ∧ edge.type = .contains).map
    GraphEdge.fromNodeID

end Graph

theorem Graph.mem_typedEdges {graph : Graph} {endpoint : GraphEdge → String} {nodeID : String}
    {types : List EdgeType} {edge : GraphEdge} : edge ∈ graph.typedEdges endpoint nodeID types ↔
      edge ∈ graph.edges.rows ∧ endpoint edge = nodeID ∧ edge.type ∈ types := by
  unfold Graph.typedEdges
  simp

theorem Graph.exists_container_node {graph : Graph} {nodeID containerID : String}
    (contained : graph.container nodeID = some containerID) :
    ∃ node, graph.nodes.get? containerID = some node := by
  obtain ⟨edge, isEdge, rfl⟩ := Option.map_eq_some_iff.mp contained
  exact Option.isSome_iff_exists.mp (graph.edge_nodes edge (mem_of_find?_eq_some isEdge)).1

end OpenExec.Knowledge
