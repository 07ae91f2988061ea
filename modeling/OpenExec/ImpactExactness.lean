import OpenExec.ImpactBounds
import OpenExec.LayeredSearch

/-!
# Exactness of impact analysis

As long as nothing is left out, each search of the analysis is a layered search against the
edges of the graph, and the shared tables keep a shortest path for every node that some
search found.
-/

namespace OpenExec.Knowledge

open KeyedRows LayeredSearch List Table GraphLimits

variable {nodeID symbolID : String} {edges : List GraphEdge} {impact : ImpactNode}

variable {edge : GraphEdge} {frontier : List ImpactNode} {trails : List (Trail String GraphEdge)}
  {note : Note} {candidate : RelatedTest} {scope originID originName : String}
  {affectedPath : List ImpactPath} {moduleNode : GraphNode} {reach : Reach}

variable (graph : Graph) (types : List EdgeType)

def Graph.Crosses (edge : GraphEdge) : Prop :=
  edge ∈ graph.edges.rows ∧ edge.type ∈ types

/-- The edges lead from one node to another. -/
abbrev Graph.Chain : String → List GraphEdge → String → Prop :=
  IsPath GraphEdge.fromNodeID GraphEdge.toNodeID (graph.Crosses types)

def Graph.incoming (nodeID : String) : List GraphEdge :=
  graph.typedEdges GraphEdge.toNodeID nodeID types

theorem Graph.mem_incoming {graph : Graph} {types : List EdgeType} (nodeID : String)
    (edge : GraphEdge) :
    edge ∈ graph.incoming types nodeID ↔ graph.Crosses types edge ∧ edge.toNodeID = nodeID := by
  unfold Graph.incoming
  rw [Graph.mem_typedEdges]
  unfold Graph.Crosses
  tauto

structure ImpactPath.Describes (step : ImpactPath) (edge : GraphEdge) : Prop where
  sameFrom : step.fromNodeID = edge.fromNodeID
  sameID : step.edgeID = edge.id
  sameType : step.edgeType = edge.type
  sameTo : step.toNodeID = edge.toNodeID

/-- The impact is what the search found, with the edges of its path described. -/
structure ImpactNode.Follows (impact : ImpactNode) (trail : Trail String GraphEdge) : Prop where
  node : impact.id = trail.node
  path : List.Forall₂ ImpactPath.Describes impact.path trail.path

def FollowsIn (found : Nat × ImpactNode) (trail : Nat × Trail String GraphEdge) : Prop :=
  found.1 = trail.1 ∧ found.2.Follows trail.2

/-- A search in progress and a layer in progress have seen and found the same, and what the
search recorded satisfies `keeps`. -/
structure Tracks (keeps : List (Nat × ImpactNode) → Reach → Prop)
    (earlier : List (Nat × ImpactNode))
    (depth : Nat) (search : Search) (layer : Layer String GraphEdge) : Prop where
  seen : search.seen = layer.seen
  found : List.Forall₂ ImpactNode.Follows search.next layer.found
  kept : keeps (earlier ++ search.next.map (depth, ·)) search.reach

def Sweep.Extends (sweep : Sweep) (keeps : List (Nat × ImpactNode) → Reach → Prop) : Prop :=
  ∀ done depth edge impact reach next, keeps done reach →
    sweep.record depth edge impact reach = .ok next → keeps (done ++ [(depth, impact)]) next

section

variable {sweep : GraphLimits → Sweep} {graph : Graph} {limits : GraphLimits}
  {keeps : List (Nat × ImpactNode) → Reach → Prop} {earlier : List (Nat × ImpactNode)} {depth : Nat}
  {search next : Search} {layer : Layer String GraphEdge} {current : ImpactNode}
  {trail : Trail String GraphEdge}

theorem loadGraphNode_id {node : GraphNode} (loaded : graph.loadGraphNode nodeID = .ok node) :
    node.id = nodeID := by
  unfold Graph.loadGraphNode at loaded
  split at loaded
  · cases loaded
  · next found =>
    cases loaded
    exact get?_key found

theorem visit_tracks (recordExtends : (sweep limits).Extends keeps)
    (tracks : Tracks keeps earlier depth search layer) (follows : current.Follows trail)
    (visited : (sweep limits).visit graph depth current search edge = .ok next)
    (unmarked : next.truncated = false) :
    Tracks keeps earlier depth next (Layer.discover GraphEdge.fromNodeID trail.path
      layer edge) := by
  unfold Sweep.visit at visited
  unfold Layer.discover
  rw [← tracks.seen]
  split at visited
  · next known =>
    rw [if_pos known]
    exact Except.ok.inj visited ▸ tracks
  next unknown =>
  rw [if_neg unknown]
  split at visited
  · cases visited
    cases unmarked
  obtain ⟨node, loaded, visited⟩ := bind_eq_ok.mp visited
  obtain ⟨reach, recorded, visited⟩ := bind_eq_ok.mp visited
  cases visited
  have isNode := loadGraphNode_id loaded
  constructor
  case seen =>
    rw [isNode, tracks.seen]
  case found =>
    refine rel_append tracks.found (.cons ⟨isNode, .cons ?_ follows.path⟩ .nil)
    exact ⟨rfl, rfl, rfl, rfl⟩
  case kept =>
    have kept := recordExtends _ depth edge _ search.reach reach tracks.kept recorded
    rw [map_append, ← append_assoc]
    exact kept

variable (steady : SteadySweep sweep)
include steady

variable (positive : 0 < limits.maxEdges)
include positive

variable (recordExtends : (sweep limits).Extends keeps) (unmarked : next.truncated = false)
include recordExtends unmarked

theorem visitAll_tracks (tracks : Tracks keeps earlier depth search layer)
    (follows : current.Follows trail)
    (visited : edges.foldlM ((sweep limits).visit graph depth current) search = .ok next) :
    Tracks keeps earlier depth next
      (edges.foldl (Layer.discover GraphEdge.fromNodeID trail.path) layer) := by
  induction edges generalizing search layer with
  | nil => exact Except.ok.inj visited ▸ tracks
  | cons edge edges ih =>
    obtain ⟨between, first, rest⟩ := bind_eq_ok.mp visited
    have betweenUnmarked := (Steady.foldlM (fun _ => steady.visit) limits limits between next
      (within_self positive) rest unmarked).1
    exact ih (visit_tracks recordExtends tracks follows first betweenUnmarked) rest

theorem expand_tracks (tracks : Tracks keeps earlier depth search layer)
    (follows : current.Follows trail)
    (expanded : (sweep limits).expand graph limits depth search current = .ok next) :
    Tracks keeps earlier depth next
      (Layer.expand GraphEdge.fromNodeID (graph.incoming (sweep limits).types) layer trail) := by
  unfold Sweep.expand at expanded
  dsimp only at expanded
  have startUnmarked := (Steady.foldlM (fun _ => steady.visit) limits limits _ next
    (within_self positive) expanded unmarked).1
  obtain ⟨complete, _, sameReach⟩ := Reach.cutIf_unmarked startUnmarked
  have isAll := (Graph.loadTypedImpactEdges_all positive (steady.someType limits) complete).1
  rw [sameReach] at expanded
  have visited := visitAll_tracks steady positive recordExtends unmarked tracks follows expanded
  unfold Layer.expand Graph.incoming
  rw [← follows.node, ← isAll]
  exact visited

section

variable (follows : List.Forall₂ ImpactNode.Follows frontier trails)
include follows

theorem expandAll_tracks (tracks : Tracks keeps earlier depth search layer)
    (expanded : frontier.foldlM ((sweep limits).expand graph limits depth) search = .ok next) :
    Tracks keeps earlier depth next (trails.foldl
      (Layer.expand GraphEdge.fromNodeID (graph.incoming (sweep limits).types)) layer) := by
  induction follows generalizing search layer with
  | nil => exact Except.ok.inj expanded ▸ tracks
  | @cons current trail frontier trails isCurrent _ ih =>
    obtain ⟨between, first, rest⟩ := bind_eq_ok.mp expanded
    have betweenUnmarked := (Steady.foldlM (fun _ => steady.expand) limits limits between next
      (within_self positive) rest unmarked).1
    exact ih (expand_tracks steady positive recordExtends betweenUnmarked tracks isCurrent first)
      rest

theorem layers_tracks {left : Nat} (kept : keeps earlier search.reach)
    (computed : (sweep limits).layers graph limits left depth frontier search = .ok next) :
    ∃ done, keeps (earlier ++ done) next.reach ∧
      List.Forall₂ FollowsIn done (LayeredSearch.search GraphEdge.fromNodeID
        (graph.incoming (sweep limits).types) left depth search.seen trails) := by
  induction left generalizing depth frontier trails search earlier with
  | zero =>
    cases computed
    exact ⟨[], by rwa [append_nil], .nil⟩
  | succ left ih =>
    unfold Sweep.layers at computed
    split at computed
    · next empty =>
      cases computed
      subst empty
      obtain rfl := forall₂_nil_left_iff.mp follows
      rw [search_nil]
      exact ⟨[], by rwa [append_nil], .nil⟩
    obtain ⟨found, isFound, computed⟩ := bind_eq_ok.mp computed
    have foundUnmarked := (steady.layers limits limits found next
      (within_self positive) computed unmarked).1
    have starts : Tracks keeps earlier depth { search with next := [] } ⟨search.seen, []⟩ :=
      ⟨rfl, .nil, by simpa using kept⟩
    have tracks :=
      expandAll_tracks steady positive recordExtends foundUnmarked follows starts isFound
    obtain ⟨done, keptDone, followsDone⟩ := ih tracks.found tracks.kept computed
    refine ⟨found.next.map (depth, ·) ++ done, by rwa [← append_assoc], ?_⟩
    refine rel_append ?_ ?_
    · rw [forall₂_map_left_iff, forall₂_map_right_iff]
      exact tracks.found.imp fun _ _ follows => ⟨rfl, follows⟩
    · rw [tracks.seen] at followsDone
      exact followsDone

end

theorem run_tracks {maxDepth : Nat} {root : GraphNode} (kept : keeps earlier reach)
    (ran : (sweep limits).run graph limits maxDepth root reach = .ok next) :
    ∃ done, keeps (earlier ++ done) next.reach ∧ List.Forall₂ FollowsIn done
      (searchFrom GraphEdge.fromNodeID (graph.incoming (sweep limits).types) maxDepth root.id) :=
  layers_tracks steady positive recordExtends unmarked (.cons ⟨rfl, .nil⟩ .nil) kept ran

end

structure Reach.SameNodes (reach next : Reach) : Prop where
  direct : next.directCallers = reach.directCallers
  affected : next.affectedCallers = reach.affectedCallers
  dependants : next.dependants = reach.dependants

namespace Reach.SameNodes

variable {graph : Graph} {limits : GraphLimits} {reach between next : Reach}

theorem refl : reach.SameNodes reach := ⟨rfl, rfl, rfl⟩

theorem trans (first : reach.SameNodes between) (second : between.SameNodes next) :
    reach.SameNodes next :=
  ⟨second.direct.trans first.direct, second.affected.trans first.affected,
    second.dependants.trans first.dependants⟩

theorem cutIf {reached : Bool} : reach.SameNodes (reach.cutIf reached note) := by
  unfold Reach.cutIf
  split <;> exact ⟨rfl, rfl, rfl⟩

theorem keepBoundedTest : reach.SameNodes (reach.keepBoundedTest limits candidate scope) := by
  unfold Reach.keepBoundedTest
  split <;> exact ⟨rfl, rfl, rfl⟩

theorem keepTestOfEdge : reach.SameNodes (reach.keepTestOfEdge limits candidate scope edge) :=
  keepBoundedTest.trans ⟨rfl, rfl, rfl⟩

theorem foldlM {compute : Reach → GraphEdge → Except Fault Reach} {start : Reach}
    (kept : ∀ {reach edge next}, compute reach edge = .ok next → reach.SameNodes next)
    (starts : reach.SameNodes start) (folds : edges.foldlM compute start = .ok next) :
    reach.SameNodes next :=
  foldlM_ok_invariant (fun same computed => same.trans (kept computed)) starts folds

theorem collectEffects
    (collected : graph.collectEffects limits originID originName affectedPath reach = .ok next) :
    reach.SameNodes next := by
  refine foldlM (fun {reach edge next} computed => ?_) cutIf collected
  unfold Graph.collectEffect at computed
  split at computed
  · exact Except.ok.inj computed ▸ ⟨rfl, rfl, rfl⟩
  · obtain ⟨node, _, computed⟩ := bind_eq_ok.mp computed
    exact Except.ok.inj computed ▸ ⟨rfl, rfl, rfl⟩

theorem collectBrowserTests {isModule : Bool}
    (collected : graph.collectBrowserTests limits originID originName isModule affectedPath reach =
      .ok next) : reach.SameNodes next := by
  unfold Graph.collectBrowserTests at collected
  split at collected
  · exact Except.ok.inj collected ▸ refl
  · refine foldlM (fun {reach edge next} computed => ?_) cutIf collected
    obtain ⟨node, _, computed⟩ := bind_eq_ok.mp computed
    exact Except.ok.inj computed ▸ keepTestOfEdge

theorem collectStructuralTests
    (collected : graph.collectStructuralTests limits symbolID moduleNode reach = .ok next) :
    reach.SameNodes next := by
  refine foldlM (fun {reach edge next} computed => ?_) cutIf collected
  obtain ⟨node, _, computed⟩ := bind_eq_ok.mp computed
  exact Except.ok.inj computed ▸ keepTestOfEdge

theorem closeSearch {search : Search} : search.reach.SameNodes (Graph.closeSearch search note) := by
  unfold Graph.closeSearch
  split <;> exact ⟨rfl, rfl, rfl⟩

end Reach.SameNodes

structure Keeps (callers dependants : List (Nat × ImpactNode)) (reach : Reach) : Prop where
  direct : reach.directCallers.IsLeast ImpactNode.length fun impact => (0, impact) ∈ callers
  affected : reach.affectedCallers.IsLeast ImpactNode.length fun impact =>
    (∃ depth, (depth, impact) ∈ callers) ∧ reach.directCallers.get? impact.id = none
  dependant : reach.dependants.IsLeast ImpactNode.length fun impact =>
    ∃ depth, (depth, impact) ∈ dependants

variable {callers dependants : List (Nat × ImpactNode)} {reach next : Reach} {limits : GraphLimits}

theorem Keeps.same (keeps : Keeps callers dependants reach) (same : reach.SameNodes next) :
    Keeps callers dependants next where
  direct := same.direct ▸ keeps.direct
  affected := by
    rw [same.direct, same.affected]
    exact keeps.affected
  dependant := same.dependants ▸ keeps.dependant

theorem Keeps.keepCaller {depth : Nat} (keeps : Keeps callers dependants reach) :
    Keeps (callers ++ [(depth, impact)]) dependants (reach.keepCaller depth impact) := by
  unfold Reach.keepCaller
  split
  · next isZero =>
    subst isZero
    refine ⟨?_, ?_, keeps.dependant⟩
    · refine keeps.direct.keepLeast.congr fun other => ?_
      simp
    · refine keeps.affected.erase.congr fun other => ?_
      by_cases same : impact.id = other.id
      · have known : ((reach.directCallers.keepLeast ImpactNode.length impact).get?
          other.id).isSome := by
          rw [← same]
          exact keeps.direct.keepLeast.complete impact (.inr rfl)
        have notNone : ¬ (reach.directCallers.keepLeast ImpactNode.length impact).get?
          other.id = none :=
          Option.isSome_iff_ne_none.mp known
        simp [same, notNone]
      · have different : other ≠ impact := fun equal => same (equal ▸ rfl)
        have notNamed : ¬ other.id = impact.id := fun equal => same equal.symm
        rw [get?_keepLeast_of_ne same]
        simp [different, notNamed]
  next notZero =>
  have sameDirect : ∀ other, (0, other) ∈ callers ++ [(depth, impact)] ↔ (0, other) ∈ callers := by
    intro other
    have different : ¬ 0 = depth := fun equal => notZero equal.symm
    simp [different]
  have direct := keeps.direct.congr fun other => (sameDirect other).symm
  split
  · next unknown =>
    refine ⟨direct, keeps.affected.keepLeast.congr fun other => ?_, keeps.dependant⟩
    constructor
    · rintro (⟨⟨layer, member⟩, isUnknown⟩ | rfl)
      · exact ⟨⟨layer, mem_append_left _ member⟩, isUnknown⟩
      · exact ⟨⟨depth, mem_append_right _ (mem_singleton_self _)⟩, unknown⟩
    · rintro ⟨⟨layer, member⟩, isUnknown⟩
      rcases mem_append.mp member with earlier | isNew
      · exact .inl ⟨⟨layer, earlier⟩, isUnknown⟩
      · exact .inr (Prod.mk.inj (mem_singleton.mp isNew)).2
  · next known =>
    refine ⟨direct, keeps.affected.congr fun other => ?_, keeps.dependant⟩
    constructor
    · rintro ⟨⟨layer, member⟩, isUnknown⟩
      exact ⟨⟨layer, mem_append_left _ member⟩, isUnknown⟩
    · rintro ⟨⟨layer, member⟩, isUnknown⟩
      rcases mem_append.mp member with earlier | isNew
      · exact ⟨⟨layer, earlier⟩, isUnknown⟩
      · obtain rfl := (Prod.mk.inj (mem_singleton.mp isNew)).2
        exact absurd isUnknown known

theorem callerSweep_extends {graph : Graph} :
    (callerSweep graph limits symbolID).Extends fun callers reach =>
      Keeps callers dependants reach := by
  intro done depth edge impact reach next keeps recorded
  obtain ⟨withEffects, effects, recorded⟩ := bind_eq_ok.mp recorded
  obtain ⟨withFixtures, fixtures, recorded⟩ := bind_eq_ok.mp recorded
  have kept : Keeps (done ++ [(depth, impact)]) dependants (reach.keepCaller depth impact) :=
    keeps.keepCaller
  have counted : (reach.keepCaller depth impact).SameNodes
      { reach.keepCaller depth impact with
        methods := (reach.keepCaller depth impact).methods ++ [edge.resolution] } := ⟨rfl, rfl, rfl⟩
  have collected := (counted.trans (.collectEffects effects)).trans (.collectBrowserTests fixtures)
  cases recorded
  split
  · exact kept.same (collected.trans .keepBoundedTest)
  · exact kept.same collected

theorem dependantSweep_extends :
    (dependantSweep limits symbolID).Extends fun dependants reach =>
      Keeps callers dependants reach := by
  intro done depth edge impact reach next keeps recorded
  have kept : Keeps callers (done ++ [(depth, impact)])
      { reach with
        dependants := reach.dependants.keepLeast ImpactNode.length impact
        methods := reach.methods ++ [edge.resolution] } := by
    refine { keeps with dependant := keeps.dependant.keepLeast.congr fun other => ?_ }
    simp [exists_or]
  cases recorded
  split
  · exact kept.same .keepBoundedTest
  · exact kept

def Graph.callerRoots (graph : Graph) (symbolIDs : List String) : List String :=
  symbolIDs.filterMap fun symbolID => (graph.occurrences.get? symbolID).map SymbolOccurrence.nodeID

def Graph.moduleRoots (graph : Graph) (symbolIDs : List String) : List String :=
  (graph.callerRoots symbolIDs).filterMap graph.container

structure Covered (graph : Graph) (types : List EdgeType) (maxDepth : Nat) (roots : List String)
    (done : List (Nat × ImpactNode)) : Prop where
  sound : ∀ found ∈ done, ∃ root ∈ roots,
    ∃ trail ∈ searchFrom GraphEdge.fromNodeID (graph.incoming types) maxDepth root,
      FollowsIn found trail
  complete : ∀ root ∈ roots,
    ∀ trail ∈ searchFrom GraphEdge.fromNodeID (graph.incoming types) maxDepth root,
      ∃ found ∈ done, FollowsIn found trail

section

variable {graph : Graph} {limits : GraphLimits} {maxDepth : Nat} {types : List EdgeType}
  {roots : List String} {done more : List (Nat × ImpactNode)} {root : String}

theorem exists_left {α β : Type*} {relation : α → β → Prop} {first : List α} {second : List β}
    (related : List.Forall₂ relation first second) {item : β} (member : item ∈ second) :
    ∃ other ∈ first, relation other item := by
  induction related with
  | nil => cases member
  | cons isRelated _ ih =>
    rcases mem_cons.mp member with rfl | later
    · exact ⟨_, mem_cons_self, isRelated⟩
    · obtain ⟨other, isOther, isRelated⟩ := ih later
      exact ⟨other, mem_cons_of_mem _ isOther, isRelated⟩

theorem Covered.append (covered : Covered graph types maxDepth roots done)
    (follows : List.Forall₂ FollowsIn more
      (searchFrom GraphEdge.fromNodeID (graph.incoming types) maxDepth root)) :
    Covered graph types maxDepth (roots ++ [root]) (done ++ more) where
  sound found member := by
    rcases mem_append.mp member with earlier | isMore
    · obtain ⟨other, isRoot, facts⟩ := covered.sound found earlier
      exact ⟨other, mem_append_left _ isRoot, facts⟩
    · obtain ⟨trail, isTrail, isFound⟩ := exists_left follows.flip isMore
      exact ⟨root, mem_append_right _ (mem_singleton_self _), trail, isTrail, isFound⟩
  complete other isRoot trail isTrail := by
    rcases mem_append.mp isRoot with earlier | isLast
    · obtain ⟨found, isFound, facts⟩ := covered.complete other earlier trail isTrail
      exact ⟨found, mem_append_left _ isFound, facts⟩
    · obtain rfl := mem_singleton.mp isLast
      obtain ⟨found, isFound, facts⟩ := exists_left follows isTrail
      exact ⟨found, mem_append_right _ isFound, facts⟩

theorem loadImpactRoot_spec {symbolID : String} :
    (graph.occurrences.get? symbolID = none ∧ graph.loadImpactRoot symbolID = none) ∨
      ∃ occurrence symbol moduleNode, graph.occurrences.get? symbolID = some occurrence ∧
        graph.loadImpactRoot symbolID = some (symbol, occurrence.nodeID, moduleNode) ∧
        graph.container occurrence.nodeID = moduleNode.map GraphNode.id := by
  cases isOccurrence : graph.occurrences.get? symbolID with
  | none => exact .inl ⟨rfl, by simp [Graph.loadImpactRoot, isOccurrence]⟩
  | some occurrence =>
    have stored : occurrence ∈ graph.occurrences.rows := get?_mem isOccurrence
    obtain ⟨symbol, isSymbol⟩ := Option.isSome_iff_exists.mp
      (graph.occurrence_symbol occurrence stored)
    rw [get?_key isOccurrence] at isSymbol
    refine .inr ⟨occurrence, symbol, ?_⟩
    cases contained : graph.container occurrence.nodeID with
    | none =>
      refine ⟨none, rfl, ?_, rfl⟩
      simp [Graph.loadImpactRoot, isOccurrence, isSymbol, contained]
    | some moduleID =>
      obtain ⟨moduleNode, isModule⟩ := Graph.exists_container_node contained
      refine ⟨some moduleNode, rfl, ?_, ?_⟩
      · simp [Graph.loadImpactRoot, isOccurrence, isSymbol, contained, isModule]
      · exact congrArg some (get?_key isModule).symm

def Analysed (graph : Graph) (maxDepth : Nat) (symbolIDs : List String) (reach : Reach) : Prop :=
  ∃ callers dependants, Keeps callers dependants reach ∧
    Covered graph callerTypes maxDepth (graph.callerRoots symbolIDs) callers ∧
    Covered graph dependantTypes maxDepth (graph.moduleRoots symbolIDs) dependants

section

variable (positive : 0 < limits.maxEdges)
include positive

variable {next : Reach}

theorem analyseCallers_keeps {symbol : GraphSymbol} (keeps : Keeps callers dependants reach)
    (analysed : graph.analyseCallers limits maxDepth symbolID symbol nodeID reach = .ok next)
    (unmarked : next.truncated = false) :
    ∃ more, Keeps (callers ++ more) dependants next ∧ List.Forall₂ FollowsIn more
      (searchFrom GraphEdge.fromNodeID (graph.incoming callerTypes) maxDepth nodeID) := by
  obtain ⟨withEffects, effects, analysed⟩ := bind_eq_ok.mp analysed
  obtain ⟨withFixtures, fixtures, analysed⟩ := bind_eq_ok.mp analysed
  obtain ⟨search, ran, analysed⟩ := bind_eq_ok.mp analysed
  have changed : reach.SameNodes { reach with changed := reach.changed ++ [symbol] } :=
    ⟨rfl, rfl, rfl⟩
  have kept := keeps.same ((changed.trans (.collectEffects effects)).trans
    (.collectBrowserTests fixtures))
  cases analysed
  rw [closeSearch_truncated] at unmarked
  obtain ⟨more, keptMore, follows⟩ :=
    run_tracks callerSweep_steady positive callerSweep_extends unmarked kept ran
  exact ⟨more, keptMore.same .closeSearch, follows⟩

theorem analyseModule_keeps (keeps : Keeps callers dependants reach)
    (analysed : graph.analyseModule limits maxDepth symbolID moduleNode reach = .ok next)
    (unmarked : next.truncated = false) :
    ∃ more, Keeps callers (dependants ++ more) next ∧ List.Forall₂ FollowsIn more
      (searchFrom GraphEdge.fromNodeID (graph.incoming dependantTypes) maxDepth moduleNode.id) := by
  obtain ⟨search, ran, collected⟩ := bind_eq_ok.mp analysed
  have closedUnmarked := (collectStructuralTests_steady limits limits _ next
    (within_self positive) collected unmarked).1
  rw [closeSearch_truncated] at closedUnmarked
  obtain ⟨more, keptMore, follows⟩ :=
    run_tracks dependantSweep_steady positive dependantSweep_extends closedUnmarked keeps ran
  exact ⟨more, keptMore.same (.trans .closeSearch (.collectStructuralTests collected)), follows⟩

theorem Analysed.step {symbolIDs : List String} {symbolID : String} {reach next : Reach}
    (analysed : Analysed graph maxDepth symbolIDs reach)
    (stepped : graph.analyseRoot limits maxDepth reach symbolID = .ok next)
    (unmarked : next.truncated = false) :
    Analysed graph maxDepth (symbolIDs ++ [symbolID]) next := by
  obtain ⟨callers, dependants, keeps, coveredCallers, coveredDependants⟩ := analysed
  unfold Graph.analyseRoot at stepped
  rcases @loadImpactRoot_spec graph symbolID with
    ⟨absent, loaded⟩ | ⟨occurrence, symbol, moduleNode, present, loaded, contained⟩
  · rw [loaded] at stepped
    cases stepped
    have sameRoots : graph.callerRoots (symbolIDs ++ [symbolID]) = graph.callerRoots symbolIDs := by
      simp [Graph.callerRoots, absent]
    have sameModules : graph.moduleRoots (symbolIDs ++ [symbolID]) =
      graph.moduleRoots symbolIDs := by
      rw [Graph.moduleRoots, sameRoots, Graph.moduleRoots]
    exact ⟨callers, dependants, keeps.same ⟨rfl, rfl, rfl⟩, sameRoots ▸ coveredCallers,
      sameModules ▸ coveredDependants⟩
  have moreRoots : graph.callerRoots (symbolIDs ++ [symbolID]) =
      graph.callerRoots symbolIDs ++ [occurrence.nodeID] := by
    simp [Graph.callerRoots, present]
  have moreModules : graph.moduleRoots (symbolIDs ++ [symbolID]) =
      graph.moduleRoots symbolIDs ++ (moduleNode.map GraphNode.id).toList := by
    rw [Graph.moduleRoots, moreRoots, filterMap_append, Graph.moduleRoots]
    cases moduleNode <;> simp [contained]
  rw [loaded] at stepped
  unfold Analysed
  rw [moreRoots, moreModules]
  cases moduleNode with
  | none =>
    obtain ⟨more, kept, follows⟩ := analyseCallers_keeps positive keeps stepped unmarked
    exact ⟨_, dependants, kept, coveredCallers.append follows, by simpa using coveredDependants⟩
  | some moduleNode =>
    obtain ⟨withCallers, analysedCallers, analysedModule⟩ := bind_eq_ok.mp stepped
    have callersUnmarked := (analyseModule_steady limits limits _ next
      (within_self positive) analysedModule unmarked).1
    obtain ⟨more, kept, follows⟩ := analyseCallers_keeps positive keeps analysedCallers
      callersUnmarked
    obtain ⟨others, keptBoth, followsModule⟩ :=
      analyseModule_keeps positive kept analysedModule unmarked
    exact ⟨_, _, keptBoth, coveredCallers.append follows, coveredDependants.append followsModule⟩

theorem Analysed.run {earlier symbolIDs : List String}
    (analysed : Analysed graph maxDepth earlier reach)
    (folds : symbolIDs.foldlM (graph.analyseRoot limits maxDepth) reach = .ok next)
    (unmarked : next.truncated = false) : Analysed graph maxDepth (earlier ++ symbolIDs) next := by
  induction symbolIDs generalizing earlier reach with
  | nil =>
    cases folds
    rwa [append_nil]
  | cons symbolID symbolIDs ih =>
    obtain ⟨between, first, rest⟩ := bind_eq_ok.mp folds
    have betweenUnmarked := (Steady.foldlM (fun _ => analyseRoot_steady) limits limits between next
      (within_self positive) rest unmarked).1
    have extended := ih (analysed.step positive first betweenUnmarked) rest
    rwa [append_assoc] at extended

end

theorem analysed_initial {generationLimitations : List String} :
    Analysed graph maxDepth [] (initialReach generationLimitations) := by
  have isEmpty : ∀ types, Covered graph types maxDepth [] [] := fun types =>
    ⟨fun _ absent => absurd absent not_mem_nil, fun _ absent => absurd absent not_mem_nil⟩
  refine ⟨[], [], ⟨?_, ?_, ?_⟩, isEmpty _, isEmpty _⟩
  all_goals exact isLeast_empty.congr fun _ => by simp

end

/-- Some other root is reached from the node by one to `maxDepth` edges. -/
def Graph.Reaches (graph : Graph) (types : List EdgeType) (roots : List String) (maxDepth : Nat)
    (nodeID : String) : Prop :=
  ∃ root ∈ roots, root ≠ nodeID ∧
    ∃ edges, graph.Chain types nodeID edges root ∧ 1 ≤ edges.length ∧ edges.length ≤ maxDepth

/-- The path describes a chain from the node to some other root, and no chain to such a root is
shorter. -/
def Graph.IsShortest (graph : Graph) (types : List EdgeType) (roots : List String)
    (impact : ImpactNode) : Prop :=
  (∃ root ∈ roots, root ≠ impact.id ∧ ∃ edges, List.Forall₂ ImpactPath.Describes impact.path edges ∧
        graph.Chain types impact.id edges root) ∧
    ∀ root ∈ roots, root ≠ impact.id →
      ∀ edges, graph.Chain types impact.id edges root → impact.path.length ≤ edges.length

section

variable {graph : Graph} {types : List EdgeType} {maxDepth layer : Nat} {roots : List String}
  {done : List (Nat × ImpactNode)}

variable (covered : Covered graph types maxDepth roots done)
include covered

theorem Covered.chain (found : (layer, impact) ∈ done) :
    ∃ root ∈ roots, root ≠ impact.id ∧
      ∃ edges, List.Forall₂ ImpactPath.Describes impact.path edges ∧
        graph.Chain types impact.id edges root ∧ edges.length = layer + 1 ∧ layer < maxDepth := by
  obtain ⟨root, isRoot, ⟨depth, trail⟩, isTrail, sameLayer, follows⟩ := covered.sound _ found
  obtain ⟨notRoot, isPath, isLength, bounded, _⟩ := searchFrom_path Graph.mem_incoming isTrail
  subst sameLayer
  refine ⟨root, isRoot, ?_, trail.path, follows.path, ?_, isLength, bounded⟩
  · exact follows.node ▸ notRoot.symm
  · exact follows.node ▸ isPath

theorem Covered.exists_found {root : String} (isRoot : root ∈ roots) (notRoot : root ≠ nodeID)
    (chain : graph.Chain types nodeID edges root) (short : edges.length ≤ maxDepth) :
    ∃ layer impact, (layer, impact) ∈ done ∧ impact.id = nodeID ∧ impact.length ≤ edges.length ∧
      impact.length = layer + 1 := by
  obtain ⟨layer, trail, isTrail, isNode⟩ :=
    exists_searchFrom Graph.mem_incoming chain notRoot.symm short
  obtain ⟨_, _, isLength, _, shortest⟩ := searchFrom_path Graph.mem_incoming isTrail
  obtain ⟨⟨depth, impact⟩, isFound, sameLayer, follows⟩ := covered.complete root isRoot _ isTrail
  have sameLength : impact.length = trail.path.length := follows.path.length_eq
  refine ⟨depth, impact, isFound, follows.node.trans isNode, ?_, ?_⟩
  · rw [sameLength]
    exact shortest edges (isNode ▸ chain)
  · rw [sameLength, isLength]
    exact congrArg (· + 1) sameLayer.symm

theorem Covered.reaches : (∃ layer impact, (layer, impact) ∈ done ∧ impact.id = nodeID) ↔
      graph.Reaches types roots maxDepth nodeID := by
  constructor
  · rintro ⟨layer, impact, found, rfl⟩
    obtain ⟨root, isRoot, notRoot, edges, _, chain, isLength, bounded⟩ := covered.chain found
    exact ⟨root, isRoot, notRoot, edges, chain, by omega, by omega⟩
  · rintro ⟨root, isRoot, notRoot, edges, chain, _, short⟩
    obtain ⟨layer, impact, found, isNode, _⟩ := covered.exists_found isRoot notRoot chain short
    exact ⟨layer, impact, found, isNode⟩

theorem Covered.isShortest (found : (layer, impact) ∈ done)
    (least : ∀ depth other, (depth, other) ∈ done → other.id = impact.id →
      impact.length ≤ other.length) : graph.IsShortest types roots impact := by
  obtain ⟨root, isRoot, notRoot, edges, describes, chain, isLength, bounded⟩ := covered.chain found
  refine ⟨⟨root, isRoot, notRoot, edges, describes, chain⟩, ?_⟩
  intro other isOther notOther path isPath
  by_cases short : path.length ≤ maxDepth
  · obtain ⟨depth, nearer, isFound, isNode, isShort, _⟩ :=
      covered.exists_found isOther notOther isPath short
    exact Nat.le_trans (least depth nearer isFound isNode) isShort
  · have sameLength := describes.length_eq
    omega

end

/-- A depth that is not positive stands for two layers. -/
def impactDepth (maxDepth : Int) : Nat :=
  (if maxDepth ≤ 0 then 2 else maxDepth).toNat

/-- The answer lists exactly the callers and the dependants of the symbols, with shortest
paths. -/
structure ImpactResult.IsExact (graph : Graph) (symbolIDs : List String) (maxDepth : Nat)
    (result : ImpactResult) : Prop where
  direct : ∀ nodeID, nodeID ∈ result.directCallers.map ImpactNode.id ↔
    ∃ root ∈ graph.callerRoots symbolIDs, root ≠ nodeID ∧
      ∃ edge ∈ graph.edges.rows, edge.type ∈ callerTypes ∧ edge.fromNodeID = nodeID ∧
        edge.toNodeID = root
  disjoint : ∀ nodeID ∈ result.directCallers.map ImpactNode.id,
    nodeID ∉ result.affectedCallers.map ImpactNode.id
  callers : ∀ nodeID, nodeID ∈ result.directCallers.map ImpactNode.id ∨
      nodeID ∈ result.affectedCallers.map ImpactNode.id ↔
    graph.Reaches callerTypes (graph.callerRoots symbolIDs) maxDepth nodeID
  dependants : ∀ nodeID, nodeID ∈ result.moduleDependants.map ImpactNode.id ↔
    graph.Reaches dependantTypes (graph.moduleRoots symbolIDs) maxDepth nodeID
  caller_paths : ∀ impact ∈ result.directCallers ++ result.affectedCallers,
    graph.IsShortest callerTypes (graph.callerRoots symbolIDs) impact
  dependant_paths : ∀ impact ∈ result.moduleDependants,
    graph.IsShortest dependantTypes (graph.moduleRoots symbolIDs) impact

theorem mem_sortByName {nodes : List ImpactNode} : impact ∈ sortByName nodes ↔ impact ∈ nodes :=
  mem_insertionSort _

theorem mem_ids_iff {table : Table ImpactNode.id} :
    nodeID ∈ (sortByName table.rows).map ImpactNode.id ↔ (table.get? nodeID).isSome := by
  rw [mem_map]
  constructor
  · rintro ⟨impact, member, rfl⟩
    exact Option.isSome_of_eq_some (get?_of_mem (mem_sortByName.mp member))
  · intro found
    obtain ⟨impact, isFound⟩ := Option.isSome_iff_exists.mp found
    exact ⟨impact, mem_sortByName.mpr (get?_mem isFound), get?_key isFound⟩

section

variable {graph : Graph} {symbolIDs : List String} {maxDepth : Nat}

theorem Covered.direct {types : List EdgeType} {roots : List String}
    {done : List (Nat × ImpactNode)} (covered : Covered graph types maxDepth roots done)
    (deep : 1 ≤ maxDepth) : (∃ impact, (0, impact) ∈ done ∧ impact.id = nodeID) ↔ ∃ root ∈ roots,
    root ≠ nodeID ∧ ∃ edge ∈ graph.edges.rows, edge.type ∈ types ∧ edge.fromNodeID = nodeID ∧
    edge.toNodeID = root := by
  constructor
  · rintro ⟨impact, found, rfl⟩
    obtain ⟨root, isRoot, notRoot, edges, _, chain, isLength, _⟩ := covered.chain found
    refine ⟨root, isRoot, notRoot, ?_⟩
    obtain ⟨edge, crosses, starts, ends⟩ := chain.single isLength
    exact ⟨edge, crosses.1, crosses.2, starts, ends⟩
  · rintro ⟨root, isRoot, notRoot, edge, isEdge, isType, rfl, rfl⟩
    have chain : graph.Chain types edge.fromNodeID [edge] edge.toNodeID :=
      .step ⟨isEdge, isType⟩ (.here _)
    obtain ⟨layer, impact, found, isNode, isShort, isLength⟩ :=
      covered.exists_found isRoot notRoot chain deep
    obtain rfl : layer = 0 := by
      rw [isLength] at isShort
      simpa using isShort
    exact ⟨impact, found, isNode⟩

theorem Analysed.isExact (analysed : Analysed graph maxDepth symbolIDs reach)
    (deep : 1 ≤ maxDepth) : reach.result.IsExact graph symbolIDs maxDepth := by
  obtain ⟨callers, dependants, keeps, coveredCallers, coveredDependants⟩ := analysed
  have isDirect : ∀ nodeID, (reach.directCallers.get? nodeID).isSome ↔
      ∃ impact, (0, impact) ∈ callers ∧ impact.id = nodeID :=
    fun nodeID => keeps.direct.isSome_iff
  constructor
  case direct =>
    intro nodeID
    rw [Reach.result, mem_ids_iff, isDirect, coveredCallers.direct deep]
  case disjoint =>
    intro nodeID isDirectCaller
    rw [Reach.result, mem_ids_iff] at isDirectCaller ⊢
    rw [keeps.affected.isSome_iff]
    rintro ⟨impact, ⟨_, unknown⟩, rfl⟩
    rw [unknown] at isDirectCaller
    cases isDirectCaller
  case callers =>
    intro nodeID
    rw [Reach.result, mem_ids_iff, mem_ids_iff, isDirect, keeps.affected.isSome_iff,
      ← coveredCallers.reaches]
    constructor
    · rintro (⟨impact, found, isNode⟩ | ⟨impact, ⟨⟨layer, found⟩, _⟩, isNode⟩)
      · exact ⟨0, impact, found, isNode⟩
      · exact ⟨layer, impact, found, isNode⟩
    · rintro ⟨layer, impact, found, isNode⟩
      rw [← isDirect]
      cases known : reach.directCallers.get? nodeID with
      | some _ => exact .inl rfl
      | none => exact .inr ⟨impact, ⟨⟨layer, found⟩, isNode ▸ known⟩, isNode⟩
  case dependants =>
    intro nodeID
    rw [Reach.result, mem_ids_iff, keeps.dependant.isSome_iff, ← coveredDependants.reaches]
    constructor
    · rintro ⟨impact, ⟨layer, found⟩, isNode⟩
      exact ⟨layer, impact, found, isNode⟩
    · rintro ⟨layer, impact, found, isNode⟩
      exact ⟨impact, ⟨layer, found⟩, isNode⟩
  case caller_paths =>
    intro impact member
    rcases mem_append.mp member with isDirectCaller | isAffected
    · have stored := get?_of_mem (mem_sortByName.mp isDirectCaller)
      obtain ⟨found, _⟩ := keeps.direct.least _ impact stored
      refine coveredCallers.isShortest found fun depth other isOther _ => ?_
      obtain ⟨_, _, _, edges, describes, _, isLength, _⟩ := coveredCallers.chain found
      obtain ⟨_, _, _, others, othersDescribe, _, othersLength, _⟩ := coveredCallers.chain isOther
      have sameLength : impact.length = edges.length := describes.length_eq
      have sameOthers : other.length = others.length := othersDescribe.length_eq
      omega
    · have stored := get?_of_mem (mem_sortByName.mp isAffected)
      obtain ⟨⟨⟨layer, found⟩, unknown⟩, least⟩ := keeps.affected.least _ impact stored
      refine coveredCallers.isShortest found fun depth other isOther sameNode => ?_
      exact least other ⟨⟨depth, isOther⟩, sameNode ▸ unknown⟩ sameNode
  case dependant_paths =>
    intro impact member
    have stored := get?_of_mem (mem_sortByName.mp member)
    obtain ⟨⟨layer, found⟩, least⟩ := keeps.dependant.least _ impact stored
    exact coveredDependants.isShortest found fun depth other isOther sameNode =>
      least other ⟨depth, isOther⟩ sameNode

variable {size : ImpactEnvelope → Nat} {generation : Generation}
  {generationLimitations : List String} {limits larger : GraphLimits} {depth : Int}
  {envelope : ImpactEnvelope}

theorem boundImpactEnvelopeBytes_of_truncated {maxBytes : Int} (truncated : envelope.truncated) :
    (boundImpactEnvelopeBytes size maxBytes envelope).truncated := by
  unfold boundImpactEnvelopeBytes
  split
  · exact truncated
  · rw [shrinkTo_truncated]

theorem normalizeImpactBounds_unmarked (positive : 0 < limits.maxDepth)
    (current : generation.status = .current)
    (analysed : impactAnalysis size graph generation generationLimitations symbolIDs depth limits =
      .ok envelope)
    (unmarked : envelope.truncated = false) :
    (if depth ≤ 0 then 2 else depth) ≤ limits.maxDepth := by
  by_contra cut
  have bounds : normalizeImpactBounds depth limits =
      (limits.maxDepth, limits, some (if depth ≤ 0 then 2 else depth, limits.maxDepth)) := by
    unfold normalizeImpactBounds
    simp only [if_neg (Int.not_le.mpr positive)]
    rw [if_pos (Int.not_le.mp cut)]
  unfold impactAnalysis at analysed
  rw [bounds] at analysed
  unfold impactAnalysisForGeneration at analysed
  rw [if_neg (not_not.mpr current)] at analysed
  obtain ⟨reach, _, isEnvelope⟩ := bind_eq_ok.mp analysed
  cases isEnvelope
  rw [boundImpactEnvelopeBytes_of_truncated (by simp)] at unmarked
  cases unmarked

theorem impactAnalysis_eq (positive : 0 < limits.maxDepth)
    (deep : (if depth ≤ 0 then 2 else depth) ≤ limits.maxDepth) :
    impactAnalysis size graph generation generationLimitations symbolIDs depth limits =
      impactAnalysisForGeneration size graph generation generationLimitations symbolIDs
        (if depth ≤ 0 then 2 else depth) limits none := by
  have bounds : normalizeImpactBounds depth limits =
    (if depth ≤ 0 then 2 else depth, limits, none) := by
    unfold normalizeImpactBounds
    simp only [if_neg (Int.not_le.mpr positive)]
    rw [if_neg (Int.not_lt.mpr deep)]
  unfold impactAnalysis
  rw [bounds]

/-- An answer from a current generation that is not truncated is exact, and no larger limits
would change it. -/
theorem impact_is_exact
    (positive : 0 < limits.maxDepth ∧ 0 < limits.maxNodes ∧ 0 < limits.maxEdges ∧
      0 < limits.maxBytes) (current : generation.status = .current)
    (analysed : impactAnalysis size graph generation generationLimitations symbolIDs depth limits =
      .ok envelope) (unmarked : envelope.truncated = false) :
    envelope.result.IsExact graph symbolIDs (impactDepth depth) ∧
      ∀ larger : GraphLimits,
        limits.maxDepth ≤ larger.maxDepth → limits.maxNodes ≤ larger.maxNodes →
        limits.maxEdges ≤ larger.maxEdges → limits.maxBytes ≤ larger.maxBytes →
        impactAnalysis size graph generation generationLimitations symbolIDs depth larger =
          .ok envelope := by
  obtain ⟨positiveDepth, _, positiveEdges, positiveBytes⟩ := positive
  have deep := normalizeImpactBounds_unmarked positiveDepth current analysed unmarked
  rw [impactAnalysis_eq positiveDepth deep] at analysed
  constructor
  · have bounded := analysed
    unfold impactAnalysisForGeneration at bounded
    rw [if_neg (not_not.mpr current)] at bounded
    obtain ⟨reach, isReach, isEnvelope⟩ := bind_eq_ok.mp bounded
    cases isEnvelope
    obtain ⟨isWhole, _⟩ := boundImpactEnvelopeBytes_unmarked positiveBytes unmarked
    rw [isWhole] at unmarked ⊢
    have reachUnmarked : reach.truncated = false := by simpa using unmarked
    have done := analysed_initial.run positiveEdges isReach reachUnmarked
    have deepEnough : 1 ≤ impactDepth depth := by
      unfold impactDepth
      split <;> omega
    exact done.isExact deepEnough
  · intro larger moreDepth moreNodes moreEdges moreBytes
    rw [impactAnalysis_eq (by omega) (by omega)]
    exact impactAnalysisForGeneration_larger ⟨positiveEdges, moreNodes, moreEdges, moreBytes⟩
      positiveBytes analysed unmarked

end

def calledNode (name : String) (nodeType : NodeType) : GraphNode :=
  ⟨name, nodeType, "go", name, name⟩

def calledEdge (name source target : String) (type : EdgeType) : GraphEdge :=
  ⟨name, source, target, type, .astExact, "cli.go", 0, 0⟩

def calledGraph : Graph where
  symbols := ⟨[⟨"symbol", "go", "function", "run", "run"⟩], by decide⟩
  nodes :=
    ⟨[calledNode "app" .sourceModule, calledNode "cli" .sourceModule, calledNode "main" .symbol,
      calledNode "run" .symbol], by decide⟩
  edges :=
    ⟨[calledEdge "contains" "app" "run" .contains, calledEdge "calls" "main" "run" .calls,
      calledEdge "imports" "cli" "app" .imports], by decide⟩
  occurrences := ⟨[⟨"symbol", "run", "app.go", "func run()", 0, 10, false, .astExact⟩], by decide⟩
  edge_nodes := by decide
  occurrence_symbol := by decide

def calledGeneration : Generation :=
  ⟨"generation", "repository", "checkout", "worktree", "state", "configuration",
    "extractor", "state",
    .current, 0, none⟩

theorem impact_is_exact_called :
    ∃ envelope,
      impactAnalysis (fun _ => 0) calledGraph calledGeneration [] ["symbol"] 0 defaultGraphLimits =
        .ok envelope ∧ envelope.result.directCallers.map ImpactNode.id = ["main"] ∧
      envelope.result.moduleDependants.map ImpactNode.id = ["cli"] ∧
      envelope.result.IsExact calledGraph ["symbol"] 2 := by
  have positive : 0 < defaultGraphLimits.maxDepth ∧ 0 < defaultGraphLimits.maxNodes ∧
      0 < defaultGraphLimits.maxEdges ∧ 0 < defaultGraphLimits.maxBytes := by decide
  have analysed : impactAnalysis (fun _ => 0) calledGraph calledGeneration [] ["symbol"] 0
      defaultGraphLimits = .ok _ := rfl
  exact ⟨_, analysed, rfl, rfl, (impact_is_exact positive rfl analysed rfl).1⟩

end OpenExec.Knowledge
