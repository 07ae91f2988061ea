import OpenExec.ImpactAnalysis

/-!
# The bounds on an impact analysis

Larger bounds change nothing of an answer that is not truncated: every place where a bound
leaves something out marks the answer.
-/

namespace OpenExec.Knowledge

open List

variable {α : Type} {graph : Graph} {endpoint : GraphEdge → String}
  {nodeID originName symbolID : String} {types : List EdgeType} {affectedPath : List ImpactPath}
  {edge : GraphEdge} {depth maxDepth : Nat} {current : ImpactNode} {limits : GraphLimits}
  {search next : Search} {envelope : ImpactEnvelope}

variable {limit maxBytes : Int} {scope originID : String} {moduleNode : GraphNode} {left : Nat}
  {frontier : List ImpactNode} {items : List α}

structure GraphLimits.Within (limits larger : GraphLimits) : Prop where
  positive : 0 < limits.maxEdges
  nodes : limits.maxNodes ≤ larger.maxNodes
  edges : limits.maxEdges ≤ larger.maxEdges
  bytes : limits.maxBytes ≤ larger.maxBytes

section

variable {σ τ υ : Type} {before : σ → Bool} {between : τ → Bool} {after : υ → Bool}

/-- A computation that does not mark its result would have the same result with more room. -/
def Steady (before : σ → Bool) (after : τ → Bool) (compute : GraphLimits → σ → Except Fault τ) :
    Prop :=
  ∀ limits larger state result, limits.Within larger → compute limits state = .ok result →
    after result = false → before state = false ∧ compute larger state = .ok result

theorem bind_eq_ok {β : Type} {first : Except Fault α} {next : α → Except Fault β} {result : β} :
    first >>= next = .ok result ↔ ∃ value, first = .ok value ∧ next value = .ok result := by
  cases first with
  | error fault | ok value => simp [bind, Except.bind]

theorem Steady.bind {first : GraphLimits → σ → Except Fault τ}
    {next : GraphLimits → τ → Except Fault υ} (firstSteady : Steady before between first)
    (nextSteady : Steady between after next) :
    Steady before after fun limits state => first limits state >>= next limits := by
  intro limits larger state result within computed unmarked
  obtain ⟨value, isValue, isResult⟩ := bind_eq_ok.mp computed
  obtain ⟨valueUnmarked, sameResult⟩ := nextSteady limits larger value result within
    isResult unmarked
  obtain ⟨stateUnmarked, sameValue⟩ := firstSteady limits larger state value within isValue
    valueUnmarked
  exact ⟨stateUnmarked, bind_eq_ok.mpr ⟨value, sameValue, sameResult⟩⟩

theorem Steady.foldlM {compute : GraphLimits → σ → α → Except Fault σ}
    (steady : ∀ item, Steady before before fun limits state => compute limits state item) :
    Steady before before fun limits state => items.foldlM (compute limits) state := by
  induction items with
  | nil =>
    intro limits larger state result _ computed unmarked
    cases computed
    exact ⟨unmarked, rfl⟩
  | cons item items ih =>
    exact (steady item).bind ih

end

abbrev SteadyReach (compute : GraphLimits → Reach → Except Fault Reach) : Prop :=
  Steady Reach.truncated Reach.truncated compute

theorem Graph.loadTypedImpactEdges_all (positive : 0 < limit) (someType : types ≠ [])
    (complete : (graph.loadTypedImpactEdges endpoint nodeID types limit).2 = false) :
    (graph.loadTypedImpactEdges endpoint nodeID types limit).1 =
        graph.typedEdges endpoint nodeID types ∧
      (graph.typedEdges endpoint nodeID types).length ≤ limit.toNat := by
  unfold Graph.loadTypedImpactEdges at complete ⊢
  have proper : ¬ (limit ≤ 0 ∨ types = []) := not_or.mpr ⟨Int.not_le.mpr positive, someType⟩
  rw [if_neg proper] at complete ⊢
  have few : ((graph.typedEdges endpoint nodeID types).take (limit.toNat + 1)).length ≤
    limit.toNat :=
    Nat.not_lt.mp (of_decide_eq_false complete)
  rw [length_take] at few
  have short : (graph.typedEdges endpoint nodeID types).length ≤ limit.toNat := by omega
  refine ⟨?_, short⟩
  dsimp only
  rw [take_take, take_of_length_le]
  omega

theorem Graph.loadTypedImpactEdges_larger {larger : Int} (positive : 0 < limit)
    (someType : types ≠ []) (within : limit ≤ larger)
    (complete : (graph.loadTypedImpactEdges endpoint nodeID types limit).2 = false) :
    graph.loadTypedImpactEdges endpoint nodeID types larger =
      graph.loadTypedImpactEdges endpoint nodeID types limit := by
  obtain ⟨isAll, short⟩ := Graph.loadTypedImpactEdges_all positive someType complete
  have largerComplete : (graph.loadTypedImpactEdges endpoint nodeID types larger).2 = false := by
    unfold Graph.loadTypedImpactEdges
    have proper : ¬ (larger ≤ 0 ∨ types = []) := not_or.mpr ⟨by omega, someType⟩
    rw [if_neg proper]
    refine decide_eq_false (Nat.not_lt.mpr ?_)
    rw [length_take]
    omega
  obtain ⟨isLargerAll, _⟩ := Graph.loadTypedImpactEdges_all (by omega) someType largerComplete
  exact Prod.ext (isLargerAll.trans isAll.symm) (largerComplete.trans complete.symm)

theorem Reach.cutIf_unmarked {reach : Reach} {reached : Bool} {note : Note}
    (unmarked : (reach.cutIf reached note).truncated = false) :
    reached = false ∧ reach.truncated = false ∧ reach.cutIf reached note = reach := by
  cases reached with
  | true => simp [Reach.cutIf, Reach.cut] at unmarked
  | false => exact ⟨rfl, unmarked, rfl⟩

theorem SteadyReach.overEdges {note : GraphLimits → Note}
    {compute : GraphLimits → Reach → GraphEdge → Except Fault Reach} (someType : types ≠ [])
    (steady : ∀ edge, SteadyReach fun limits reach => compute limits reach edge) :
    SteadyReach fun limits reach =>
      (graph.loadTypedImpactEdges endpoint nodeID types limits.maxEdges).1.foldlM (compute limits)
        (reach.cutIf (graph.loadTypedImpactEdges endpoint nodeID types limits.maxEdges).2
          (note limits)) := by
  intro limits larger reach result within computed unmarked
  have folds := Steady.foldlM steady limits larger _ _ within computed unmarked
  obtain ⟨complete, reachUnmarked, sameReach⟩ := Reach.cutIf_unmarked folds.1
  have sameEdges := Graph.loadTypedImpactEdges_larger within.positive someType within.edges complete
  refine ⟨reachUnmarked, ?_⟩
  dsimp only
  rw [sameEdges, complete]
  rw [sameReach] at folds
  exact folds.2

theorem SteadyReach.pure {change : Reach → Reach}
    (kept : ∀ reach, (change reach).truncated = reach.truncated) :
    SteadyReach fun _ reach => .ok (change reach) := by
  intro limits larger reach result _ computed unmarked
  cases computed
  exact ⟨(kept reach).symm.trans unmarked, rfl⟩

theorem keepBoundedTest_steady {candidate : RelatedTest} :
    SteadyReach fun limits reach => .ok (reach.keepBoundedTest limits candidate scope) := by
  intro limits larger reach result within computed unmarked
  beta_reduce at computed ⊢
  cases computed
  unfold Reach.keepBoundedTest at unmarked ⊢
  split at unmarked
  · simp [Reach.cut] at unmarked
  next room =>
  have more : ¬ (reach.tests.get? candidate.filePath = none ∧
      larger.maxNodes ≤ reach.tests.rows.length) :=
    fun full => room ⟨full.1, Int.le_trans within.nodes full.2⟩
  rw [if_neg room, if_neg more]
  exact ⟨unmarked, rfl⟩

theorem collectEffect_steady :
    SteadyReach fun limits reach => graph.collectEffect limits originName affectedPath
      reach edge := by
  intro limits larger reach result within computed unmarked
  beta_reduce at computed ⊢
  unfold Graph.collectEffect at computed ⊢
  split at computed
  · cases computed
    simp [Reach.cut] at unmarked
  next room =>
  have more : ¬ (reach.effects.get? edge.toNodeID = none ∧
      larger.maxNodes ≤ reach.effects.rows.length) :=
    fun full => room ⟨full.1, Int.le_trans within.nodes full.2⟩
  rw [if_neg more]
  refine ⟨?_, computed⟩
  obtain ⟨node, _, isResult⟩ := bind_eq_ok.mp computed
  cases isResult
  exact unmarked

theorem collectEffects_steady :
    SteadyReach fun limits reach =>
      graph.collectEffects limits originID originName affectedPath reach :=
  SteadyReach.overEdges (by simp) fun _ => collectEffect_steady

theorem keepTestOfEdge_steady {candidate : GraphNode → RelatedTest} :
    SteadyReach fun limits reach => graph.loadGraphNode nodeID >>= fun node =>
      pure (reach.keepTestOfEdge limits (candidate node) scope edge) := by
  intro limits larger reach result within computed unmarked
  beta_reduce at computed ⊢
  obtain ⟨node, isNode, isResult⟩ := bind_eq_ok.mp computed
  cases isResult
  obtain ⟨reachUnmarked, same⟩ :=
    keepBoundedTest_steady limits larger reach _ within rfl unmarked
  refine ⟨reachUnmarked, bind_eq_ok.mpr ⟨node, isNode, ?_⟩⟩
  unfold Reach.keepTestOfEdge
  rw [Except.ok.inj same]
  rfl

theorem collectBrowserTests_steady {isModule : Bool} :
    SteadyReach fun limits reach =>
      graph.collectBrowserTests limits originID originName isModule affectedPath reach := by
  unfold Graph.collectBrowserTests
  split
  · exact SteadyReach.pure fun _ => rfl
  · exact SteadyReach.overEdges (by simp) fun _ => keepTestOfEdge_steady

theorem collectStructuralTests_steady :
    SteadyReach fun limits reach => graph.collectStructuralTests limits symbolID moduleNode reach :=
  SteadyReach.overEdges (by simp) fun _ => keepTestOfEdge_steady

/-- The bounds of a search only mark what it leaves out. -/
structure SteadySweep (sweep : GraphLimits → Sweep) : Prop where
  types : ∀ limits larger, (sweep larger).types = (sweep limits).types
  someType : ∀ limits, (sweep limits).types ≠ []
  reason : ∀ limits larger, (sweep larger).reason = (sweep limits).reason
  exceeds : ∀ limits larger reach nodeID, limits.Within larger →
    (sweep limits).exceeds reach nodeID = false → (sweep larger).exceeds reach nodeID = false
  record : ∀ depth edge impact, SteadyReach fun limits reach =>
    (sweep limits).record depth edge impact reach

def Search.truncated (search : Search) : Bool := search.reach.truncated

variable {sweep : GraphLimits → Sweep}

section

variable (steady : SteadySweep sweep)
include steady

theorem SteadySweep.visit :
    Steady Search.truncated Search.truncated fun limits search =>
      (sweep limits).visit graph depth current search edge := by
  intro limits larger search result within computed unmarked
  beta_reduce at computed ⊢
  unfold Sweep.visit at computed ⊢
  split at computed
  · next known =>
    cases computed
    rw [if_pos known]
    exact ⟨unmarked, rfl⟩
  next unknown =>
  split at computed
  · cases computed
    simp [Search.truncated] at unmarked
  next room =>
  have more := steady.exceeds limits larger search.reach edge.fromNodeID within
    (Bool.eq_false_iff.mpr room)
  rw [if_neg unknown, if_neg (Bool.eq_false_iff.mp more)]
  obtain ⟨node, isNode, computed⟩ := bind_eq_ok.mp computed
  obtain ⟨reach, isReach, isResult⟩ := bind_eq_ok.mp computed
  cases isResult
  obtain ⟨searchUnmarked, sameReach⟩ :=
    steady.record depth edge _ limits larger search.reach reach within isReach unmarked
  refine ⟨searchUnmarked, bind_eq_ok.mpr ⟨node, isNode, bind_eq_ok.mpr ⟨reach, ?_, ?_⟩⟩⟩
  · simpa only [Sweep.pathStep, steady.reason limits larger] using sameReach
  · simp only [Sweep.pathStep, steady.reason limits larger]
    rfl

theorem SteadySweep.expand :
    Steady Search.truncated Search.truncated fun limits search =>
      (sweep limits).expand graph limits depth search current := by
  intro limits larger search result within computed unmarked
  have folds := Steady.foldlM (fun _ => steady.visit) limits larger _ _ within computed unmarked
  obtain ⟨complete, searchUnmarked, sameReach⟩ := Reach.cutIf_unmarked folds.1
  have sameEdges : graph.loadIncomingImpactEdges current.id (sweep larger).types larger.maxEdges =
      graph.loadIncomingImpactEdges current.id (sweep limits).types limits.maxEdges := by
    rw [steady.types limits larger]
    exact Graph.loadTypedImpactEdges_larger within.positive (steady.someType limits) within.edges
      complete
  refine ⟨searchUnmarked, ?_⟩
  beta_reduce
  unfold Sweep.expand
  dsimp only
  rw [sameEdges, complete]
  rw [sameReach] at folds
  exact folds.2

theorem SteadySweep.layers :
    Steady Search.truncated Search.truncated fun limits search =>
      (sweep limits).layers graph limits left depth frontier search := by
  induction left generalizing depth frontier with
  | zero =>
    intro limits larger search result _ computed unmarked
    cases computed
    exact ⟨unmarked, rfl⟩
  | succ left ih =>
    intro limits larger search result within computed unmarked
    beta_reduce at computed ⊢
    unfold Sweep.layers at computed ⊢
    split at computed
    · next empty =>
      cases computed
      rw [if_pos empty]
      exact ⟨unmarked, rfl⟩
    next nonempty =>
    rw [if_neg nonempty]
    obtain ⟨found, isFound, isResult⟩ := bind_eq_ok.mp computed
    obtain ⟨foundUnmarked, sameResult⟩ := ih limits larger found result within isResult unmarked
    obtain ⟨searchUnmarked, sameFound⟩ :=
      Steady.foldlM (fun _ => steady.expand) limits larger _ found within isFound foundUnmarked
    exact ⟨searchUnmarked, bind_eq_ok.mpr ⟨found, sameFound, sameResult⟩⟩

theorem SteadySweep.run {root : GraphNode} :
    Steady Reach.truncated Search.truncated fun limits reach =>
      (sweep limits).run graph limits maxDepth root reach :=
  fun limits larger _ result within computed unmarked =>
    steady.layers limits larger _ result within computed unmarked

end

def Search.Honest (search : Search) : Prop := search.exhausted = true → search.truncated = true

theorem foldlM_ok_invariant {σ : Type} {step : σ → α → Except Fault σ} {property : σ → Prop}
    (kept : ∀ {state item next}, property state → step state item = .ok next → property next)
    {state result : σ} (holds : property state)
    (folds : items.foldlM step state = .ok result) : property result := by
  induction items generalizing state with
  | nil => exact Except.ok.inj folds ▸ holds
  | cons item items ih =>
    obtain ⟨next, stepped, folds⟩ := bind_eq_ok.mp folds
    exact ih (kept holds stepped) folds

theorem GraphLimits.within_self (positive : 0 < limits.maxEdges) : limits.Within limits :=
  ⟨positive, Int.le_refl _, Int.le_refl _, Int.le_refl _⟩

theorem closeSearch_truncated {search : Search} {note : Note} :
    (Graph.closeSearch search note).truncated = search.truncated := by
  unfold Graph.closeSearch
  split <;> rfl

section

variable (steady : SteadySweep sweep)
include steady

theorem SteadySweep.visit_honest (positive : 0 < limits.maxEdges) (honest : search.Honest)
    (visited : (sweep limits).visit graph depth current search edge = .ok next) : next.Honest := by
  intro exhausted
  by_contra unmarked
  have searchUnmarked := (steady.visit limits limits search next
    (GraphLimits.within_self positive) visited (Bool.eq_false_iff.mpr unmarked)).1
  unfold Sweep.visit at visited
  split at visited
  · cases visited
    exact unmarked (honest exhausted)
  split at visited
  · cases visited
    exact unmarked rfl
  obtain ⟨node, _, visited⟩ := bind_eq_ok.mp visited
  obtain ⟨reach, _, visited⟩ := bind_eq_ok.mp visited
  cases visited
  rw [honest exhausted] at searchUnmarked
  cases searchUnmarked

theorem SteadySweep.expand_honest (positive : 0 < limits.maxEdges) (honest : search.Honest)
    (expanded : (sweep limits).expand graph limits depth search current = .ok next) :
    next.Honest := by
  refine foldlM_ok_invariant (steady.visit_honest positive) ?_ expanded
  intro exhausted
  have marked : search.reach.truncated := honest exhausted
  unfold Search.truncated Reach.cutIf
  split
  · rfl
  · exact marked

theorem SteadySweep.layers_honest (positive : 0 < limits.maxEdges) (honest : search.Honest)
    (computed : (sweep limits).layers graph limits left depth frontier search = .ok next) :
    next.Honest := by
  induction left generalizing depth frontier search with
  | zero => exact Except.ok.inj computed ▸ honest
  | succ left ih =>
    unfold Sweep.layers at computed
    split at computed
    · exact Except.ok.inj computed ▸ honest
    obtain ⟨found, isFound, computed⟩ := bind_eq_ok.mp computed
    have starts : Search.Honest { search with next := [] } := honest
    have foundHonest : found.Honest :=
      foldlM_ok_invariant (steady.expand_honest positive) starts isFound
    exact ih foundHonest computed

theorem SteadySweep.closed {graph : Graph} {maxDepth : Nat}
    {root : GraphNode} {note : GraphLimits → Note} :
    SteadyReach fun limits reach => (sweep limits).run graph limits maxDepth root reach >>=
      fun search =>
      pure (Graph.closeSearch search (note limits)) := by
  intro limits larger reach result within computed unmarked
  beta_reduce at computed ⊢
  obtain ⟨search, ran, isResult⟩ := bind_eq_ok.mp computed
  cases isResult
  have honest : search.Honest :=
    steady.layers_honest within.positive (fun exhausted => Bool.noConfusion exhausted) ran
  rw [closeSearch_truncated] at unmarked
  have unexhausted : search.exhausted = false := by
    refine Bool.eq_false_iff.mpr fun exhausted => ?_
    rw [honest exhausted] at unmarked
    cases unmarked
  obtain ⟨reachUnmarked, sameSearch⟩ := steady.run limits larger reach search within ran unmarked
  refine ⟨reachUnmarked, bind_eq_ok.mpr ⟨search, sameSearch, ?_⟩⟩
  unfold Graph.closeSearch
  rw [unexhausted]
  rfl

end

theorem callerSweep_steady :
    SteadySweep fun limits => callerSweep graph limits symbolID where
  types _ _ := rfl
  someType _ := by simp [callerSweep, callerTypes]
  reason _ _ := rfl
  exceeds := by
    intro limits larger reach nodeID within room
    have roomy := of_decide_eq_false room
    exact decide_eq_false fun full =>
      roomy ⟨full.1, full.2.1, Int.le_trans within.nodes full.2.2⟩
  record := by
    intro depth edge impact
    have keeps : SteadyReach fun _ reach =>
        .ok { reach.keepCaller depth impact with
          methods := (reach.keepCaller depth impact).methods ++ [edge.resolution] } := by
      refine SteadyReach.pure fun reach => ?_
      unfold Reach.keepCaller
      split
      · rfl
      · split <;> rfl
    refine (keeps.bind (collectEffects_steady.bind (collectBrowserTests_steady.bind ?_)))
    split
    · exact keepBoundedTest_steady
    · exact SteadyReach.pure fun _ => rfl

theorem dependantSweep_steady :
    SteadySweep fun limits => dependantSweep limits symbolID where
  types _ _ := rfl
  someType _ := by simp [dependantSweep, dependantTypes]
  reason _ _ := rfl
  exceeds := by
    intro limits larger reach nodeID within room
    have roomy := of_decide_eq_false room
    exact decide_eq_false fun full => roomy ⟨full.1, Int.le_trans within.nodes full.2⟩
  record := by
    intro depth edge impact
    have keeps : SteadyReach fun _ reach =>
        .ok { reach with
          dependants := reach.dependants.keepLeast ImpactNode.length impact
          methods := reach.methods ++ [edge.resolution] } := SteadyReach.pure fun _ => rfl
    unfold dependantSweep
    dsimp only
    split
    · exact keeps.bind keepBoundedTest_steady
    · exact keeps

theorem analyseCallers_steady {symbol : GraphSymbol} :
    SteadyReach fun limits reach =>
      graph.analyseCallers limits maxDepth symbolID symbol nodeID reach := by
  have changes : SteadyReach fun _ reach =>
    .ok { reach with changed := reach.changed ++ [symbol] } :=
    SteadyReach.pure fun _ => rfl
  exact changes.bind (collectEffects_steady.bind (collectBrowserTests_steady.bind
    callerSweep_steady.closed))

theorem analyseModule_steady :
    SteadyReach fun limits reach => graph.analyseModule limits maxDepth symbolID
      moduleNode reach := by
  intro limits larger reach result within computed unmarked
  have closes : SteadyReach fun limits reach =>
      (dependantSweep limits symbolID).run graph limits maxDepth moduleNode reach >>= fun search =>
        pure (Graph.closeSearch search (.dependantBound symbolID limits.maxNodes)) :=
    dependantSweep_steady.closed
  obtain ⟨search, ran, collected⟩ := bind_eq_ok.mp computed
  obtain ⟨closedUnmarked, sameTests⟩ :=
    collectStructuralTests_steady limits larger _ result within collected unmarked
  obtain ⟨reachUnmarked, sameSearch⟩ := closes limits larger reach _ within
    (bind_eq_ok.mpr ⟨search, ran, rfl⟩) closedUnmarked
  obtain ⟨largerSearch, largerRan, sameClosed⟩ := bind_eq_ok.mp sameSearch
  refine ⟨reachUnmarked, bind_eq_ok.mpr ⟨largerSearch, largerRan, ?_⟩⟩
  rw [Except.ok.inj sameClosed]
  exact sameTests

theorem analyseRoot_steady :
    SteadyReach fun limits reach => graph.analyseRoot limits maxDepth reach symbolID := by
  unfold Graph.analyseRoot
  split
  · exact SteadyReach.pure fun _ => rfl
  · exact analyseCallers_steady
  · exact analyseCallers_steady.bind analyseModule_steady

variable {size : ImpactEnvelope → Nat}

theorem shrinkTo_truncated : (shrinkTo size maxBytes envelope).truncated = envelope.truncated := by
  fun_induction shrinkTo size maxBytes envelope with
  | case1 => rfl
  | case2 => rfl
  | case3 _ _ _ _ ih => exact ih

theorem boundImpactEnvelopeBytes_unmarked (positive : 0 < maxBytes)
    (unmarked : (boundImpactEnvelopeBytes size maxBytes envelope).truncated = false) :
    boundImpactEnvelopeBytes size maxBytes envelope = envelope ∧ size envelope ≤ maxBytes := by
  unfold boundImpactEnvelopeBytes at unmarked ⊢
  split at unmarked
  · next small =>
    rw [if_pos small]
    exact ⟨rfl, small.resolve_left (Int.not_le.mpr positive)⟩
  · rw [shrinkTo_truncated] at unmarked
    cases unmarked

theorem impactAnalysisForGeneration_larger {generation : Generation}
    {generationLimitations symbolIDs : List String} {maxDepth : Int} {larger : GraphLimits}
    (within : limits.Within larger) (positive : 0 < limits.maxBytes)
    (analysed : impactAnalysisForGeneration size graph generation generationLimitations symbolIDs
      maxDepth limits none = .ok envelope) (unmarked : envelope.truncated = false) :
    impactAnalysisForGeneration size graph generation generationLimitations symbolIDs
      maxDepth larger none = .ok envelope := by
  unfold impactAnalysisForGeneration at analysed ⊢
  split at analysed
  · next notCurrent =>
    rw [if_pos notCurrent]
    exact analysed
  next current =>
  rw [if_neg current]
  obtain ⟨reach, isReach, isEnvelope⟩ := bind_eq_ok.mp analysed
  cases isEnvelope
  obtain ⟨isWhole, small⟩ := boundImpactEnvelopeBytes_unmarked positive unmarked
  have reachUnmarked : reach.truncated = false := by
    rw [isWhole] at unmarked
    simpa using unmarked
  have sameReach := (Steady.foldlM (fun _ => analyseRoot_steady) limits larger _ reach
    within isReach
    reachUnmarked).2
  refine bind_eq_ok.mpr ⟨reach, sameReach, ?_⟩
  rw [isWhole]
  unfold boundImpactEnvelopeBytes
  rw [if_pos (.inr (Int.le_trans small within.bytes))]
  rfl

end OpenExec.Knowledge
