import OpenExec.BatchAccounting
import Mathlib.Logic.Relation

/-!
# Tasks are dispatched after their dependencies are done

The second pass of `checkReady` looks at the finished flag of a dependency, not at its
status.
-/

namespace OpenExec.Scheduler

open Release GuardedRuns PrefixFold Finset
open scoped List

variable (batch : Batch)

def dependsOn (task dep : String) : Bool :=
  (batch.node? task).any fun node => dep ∈ node.deps

variable (board : Board)

def Board.isWaiting (id : String) : Prop :=
  id ∉ board.dispatched ∧ id ∉ board.finished

instance (board : Board) (id : String) : Decidable (board.isWaiting id) := by
  unfold Board.isWaiting
  infer_instance

def WritesAccepted : BatchAction → Prop
  | .begin _ _ accepted | .check _ _ accepted => ∀ id ∈ batch.ids, accepted id = true
  | .settle _ _ accepted => accepted = true
  | _ => True

instance (batch : Batch) (action : BatchAction) : Decidable (WritesAccepted batch action) := by
  unfold WritesAccepted
  split <;> infer_instance

/-- No waiting task is visited before a waiting task it depends on. -/
def InOrder (order : List String) : Prop :=
  order.Pairwise fun earlier later =>
    board.isWaiting earlier → board.isWaiting later → dependsOn batch earlier later = false

instance (batch : Batch) (board : Board) (order : List String) :
    Decidable (InOrder batch board order) := by
  unfold InOrder
  infer_instance

def CascadesInOrder (state : BatchState) (action : BatchAction) : Prop :=
  WritesAccepted batch action ∧
    match action with
    | .begin order _ _ | .check order _ _ => InOrder batch state.toBoard order
    | _ => True

instance (batch : Batch) (state : BatchState) (action : BatchAction) :
    Decidable (CascadesInOrder batch state action) := by
  unfold CascadesInOrder
  split <;> infer_instance

def Satisfied (dep : String) : Prop :=
  (dep ∈ batch.ids → dep ∈ board.finished) ∧ completed (board.status dep) = true

structure Keeps (batch : Batch) (board next : Board) : Prop where
  finished : board.finished ⊆ next.finished
  status : ∀ id, id ∈ board.finished ∨ id ∉ batch.ids → next.status id = board.status id

section

variable {batch : Batch} {accepted : String → Bool} {board next swept : Board} {id dep : String}

theorem Satisfied.keeps (satisfied : Satisfied batch board dep) (keeps : Keeps batch board next) :
    Satisfied batch next dep := by
  refine ⟨fun listed => keeps.finished (satisfied.1 listed), ?_⟩
  have side : dep ∈ board.finished ∨ dep ∉ batch.ids := by
    by_cases listed : dep ∈ batch.ids
    · exact .inl (satisfied.1 listed)
    · exact .inr listed
  rw [keeps.status dep side]
  exact satisfied.2

theorem Cascaded.keeps (cascaded : Cascaded batch board swept) : Keeps batch board swept where
  finished := cascaded.grows
  status := by
    rintro id (early | unlisted)
    · exact cascaded.untouched id (.inr early)
    · by_cases early : id ∈ board.finished
      · exact cascaded.untouched id (.inr early)
      · exact cascaded.untouched id
          (.inl fun late => unlisted (cascaded.fresh id late early).1)

theorem Cascaded.isWaiting (cascaded : Cascaded batch board swept) (waiting : swept.isWaiting id) :
    board.isWaiting id :=
  ⟨cascaded.dispatched ▸ waiting.1, fun early => waiting.2 (cascaded.grows early)⟩

theorem dependsOn_eq_true : dependsOn batch id dep = true ↔
    ∃ node, batch.node? id = some node ∧ dep ∈ node.deps := by
  simp [dependsOn, Option.any_eq_true]

theorem cascadeNode_waiting (waiting : (cascadeNode batch accepted board id).isWaiting id)
    (depends : dependsOn batch id dep) (listed : dep ∈ batch.ids)
    (finished : dep ∈ board.finished) : board.status dep ≠ some .error := by
  intro failed
  obtain ⟨node, found, isDep⟩ := dependsOn_eq_true.mp depends
  have dependency : dependencyFailed batch board node := by
    refine List.any_eq_true.mpr ⟨dep, isDep, ?_⟩
    simp [listed, finished, failed]
  have before := (cascadeNode_cascaded batch accepted board id).isWaiting waiting
  have shape : (cascadeNode batch accepted board id).finished = insert id board.finished := by
    have notSeen : ¬ (id ∈ board.dispatched ∨ id ∈ board.finished) :=
      not_or.mpr ⟨before.1, before.2⟩
    simp only [cascadeNode, found, if_neg notSeen, dependency, if_true, Board.setStatus]
  exact waiting.2 (shape ▸ mem_insert_self id board.finished)

structure Cleared (batch : Batch) (board : Board) (visited : List String) : Prop where
  known : ∀ id ∈ board.finished, id ∈ batch.ids
  clear : ∀ id ∈ visited, board.isWaiting id → ∀ dep, dependsOn batch id dep = true →
    dep ∈ board.finished → board.status dep ≠ some .error

theorem cascadeNode_cleared {start : Board} {visited : List String}
    (apart : ∀ earlier ∈ visited, start.isWaiting earlier → start.isWaiting id →
      dependsOn batch earlier id = false)
    (cascaded : Cascaded batch start board) (cleared : Cleared batch board visited) :
    Cleared batch (cascadeNode batch accepted board id) (visited ++ [id]) := by
  have step := cascadeNode_cascaded batch accepted board id
  refine ⟨?_, ?_⟩
  · intro other member
    by_cases early : other ∈ board.finished
    · exact cleared.known other early
    · exact (step.fresh other member early).1
  · intro other member waiting dep depends finished
    rcases cascadeNode_cases batch accepted board id with
      same | ⟨node, found, undispatched, unfinished, _, shape⟩
    · rcases List.mem_append.mp member with earlier | last
      · rw [same] at waiting finished ⊢
        exact cleared.clear other earlier waiting dep depends finished
      · obtain rfl := List.mem_singleton.mp last
        have early : dep ∈ board.finished := same ▸ finished
        rw [same]
        exact cascadeNode_waiting waiting depends (cleared.known dep early) early
    · -- The visited node is finished now, so it is not among those still waiting.
      have isFinished : id ∈ (cascadeNode batch accepted board id).finished := by
        rw [shape]
        exact mem_insert_self id board.finished
      rcases List.mem_append.mp member with earlier | last
      · have otherWaiting := step.isWaiting waiting
        have ownWaiting : board.isWaiting id := ⟨undispatched, unfinished⟩
        have independent := apart other earlier (cascaded.isWaiting otherWaiting)
          (cascaded.isWaiting ownWaiting)
        have different : dep ≠ id := by
          rintro rfl
          exact absurd (depends.symm.trans independent) (by simp)
        have early : dep ∈ board.finished := by
          rw [shape] at finished
          exact mem_of_mem_insert_of_ne finished different
        rw [step.untouched dep (.inr early)]
        exact cleared.clear other earlier otherWaiting dep depends early
      · obtain rfl := List.mem_singleton.mp last
        exact absurd isFinished waiting.2

theorem cascade_cleared {order : List String} (known : ∀ id ∈ board.finished, id ∈ batch.ids)
    (inOrder : InOrder batch board order) :
    Cleared batch (cascade batch accepted order board) order := by
  have both : Cascaded batch board (cascade batch accepted order board) ∧
      Cleared batch (cascade batch accepted order board) order := by
    refine foldl_prefix (fun visited swept => Cascaded batch board swept ∧
      Cleared batch swept visited) ⟨Cascaded.refl batch board, known, by simp⟩ ?_
    rintro visited rest id swept split ⟨cascaded, cleared⟩
    refine ⟨cascaded.trans (cascadeNode_cascaded batch accepted swept id), ?_⟩
    refine cascadeNode_cleared ?_ cascaded cleared
    intro earlier member
    rw [InOrder, split] at inOrder
    exact (List.pairwise_append.mp inOrder).2.2 earlier member id List.mem_cons_self
  exact both.2

theorem cascade_error {order : List String} (acceptedAll : ∀ id ∈ batch.ids, accepted id)
    (late : id ∈ (cascade batch accepted order board).finished) (absent : id ∉ board.finished) :
    (cascade batch accepted order board).status id = some .error := by
  induction order generalizing board with
  | nil => exact absurd late absent
  | cons first order ih =>
    change (cascade batch accepted order (cascadeNode batch accepted board first)).status id = _
    by_cases visited : id ∈ (cascadeNode batch accepted board first).finished
    · rw [(cascade_cascaded batch accepted order _).untouched id (.inr visited)]
      rcases cascadeNode_cases batch accepted board first with
        same | ⟨node, found, _, _, _, shape⟩
      · exact absurd (same ▸ visited) absent
      · rw [shape] at visited ⊢
        rcases mem_insert.mp visited with rfl | early
        · rw [acceptedAll id (node?_mem found)]
          exact setStatus_self _ _ _
        · exact absurd early absent
    · exact ih late visited

end

structure DependencySafe (batch : Batch) (state : BatchState) : Prop where
  ended : ∀ id, id ∈ state.settled ∨ id ∈ state.finished →
    state.status id = some .done ∨ state.status id = some .error
  skipped : ∀ id ∈ state.finished, id ∉ state.dispatched → state.status id = some .error
  satisfied : ∀ id ∈ state.dispatched, ∀ dep, dependsOn batch id dep = true →
    Satisfied batch state.toBoard dep
  collected : ∀ sweep, state.sweep = some sweep → ∀ id ∈ sweep.ready, ∀ dep,
    dependsOn batch id dep = true → Satisfied batch state.toBoard dep
  clear : ∀ sweep, state.sweep = some sweep → ∀ id ∈ batch.ids, state.isWaiting id → ∀ dep,
    dependsOn batch id dep = true → dep ∈ state.finished → state.status dep ≠ some .error

section

variable {batch : Batch} {state next : BatchState} {action : BatchAction} {id : String}
  {status : String → Option TaskStatus} {workers : Nat}

theorem Accounted.keeps_setStatus (accounted : Accounted batch state)
    (runs : id ∈ state.running) (written : TaskStatus) (accepted : Bool) :
    Keeps batch state.toBoard (state.toBoard.setStatus id written accepted) where
  finished := Finset.Subset.refl _
  status := by
    intro other side
    obtain ⟨dispatched, _, unfinished⟩ := accounted.runs id runs
    refine setStatus_other ?_ written accepted
    rintro rfl
    rcases side with finished | unlisted
    · exact unfinished finished
    · exact unlisted (accounted.dispatchedKnown other dispatched)

theorem DependencySafe.enterCheck (accounted : Accounted batch state)
    (safe : DependencySafe batch state) (free : state.sweep = none) (worker : Bool)
    {order visits : List String} {accepted : String → Bool}
    (acceptedAll : ∀ id ∈ batch.ids, accepted id) (orderAll : order.Perm batch.ids)
    (inOrder : InOrder batch state.toBoard order) :
    DependencySafe batch (enterCheck batch worker order visits accepted state) := by
  obtain ⟨swept, isSwept, cascaded, shapes⟩ :=
    enterCheck_cases batch worker order visits accepted state
  have cleared := @cascade_cleared batch accepted _ order accounted.finishedKnown inOrder
  rw [← isSwept] at cleared
  have error {other : String} (late : other ∈ swept.finished) (absent : other ∉ state.finished) :
      swept.status other = some .error := by
    rw [isSwept] at late ⊢
    exact cascade_error acceptedAll late absent
  have same : swept.dispatched = state.dispatched := cascaded.dispatched
  have ended : ∀ other, other ∈ state.settled ∨ other ∈ swept.finished →
      swept.status other = some .done ∨ swept.status other = some .error := by
    intro other side
    by_cases early : other ∈ state.finished
    · rw [cascaded.untouched other (.inr early)]
      exact safe.ended other (.inr early)
    · by_cases late : other ∈ swept.finished
      · exact .inr (error late early)
      · rw [cascaded.untouched other (.inl late)]
        exact safe.ended other (side.imp_right fun member => absurd member late)
  have skipped : ∀ other ∈ swept.finished, other ∉ swept.dispatched →
      swept.status other = some .error := by
    intro other late undispatched
    by_cases early : other ∈ state.finished
    · rw [cascaded.untouched other (.inr early)]
      exact safe.skipped other early (same ▸ undispatched)
    · exact error late early
  have satisfied : ∀ other ∈ swept.dispatched, ∀ dep, dependsOn batch other dep →
      Satisfied batch swept dep := fun other member dep depends =>
    (safe.satisfied other (same ▸ member) dep depends).keeps cascaded.keeps
  rcases shapes with ⟨_, shape⟩ | ⟨_, shape⟩
  · rw [shape]
    exact ⟨ended, skipped, satisfied,
      fun sweep isSweep => absurd (free.symm.trans isSweep) (by simp),
      fun sweep isSweep => absurd (free.symm.trans isSweep) (by simp)⟩
  · rw [shape]
    refine ⟨ended, skipped, satisfied, ?_, ?_⟩
    · intro sweep isSweep
      cases isSweep
      simp
    · intro _ _ other listed waiting dep depends finished
      exact cleared.clear other (orderAll.mem_iff.mpr listed) waiting dep depends finished

theorem DependencySafe.collects (safe : DependencySafe batch state) {sweep : Sweep}
    (isSweep : state.sweep = some sweep) (isCollected : Scheduler.collected batch state.toBoard id)
    {dep : String} (depends : dependsOn batch id dep) : Satisfied batch state.toBoard dep := by
  obtain ⟨node, found, undispatched, unfinished, ready⟩ := collected_eq_true isCollected
  obtain ⟨other, foundAgain, isDep⟩ := dependsOn_eq_true.mp depends
  obtain rfl := Option.mem_unique found foundAgain
  simp only [isReady, Bool.and_eq_true, List.all_eq_true] at ready
  have own := ready.1 dep isDep
  by_cases listed : dep ∈ batch.ids
  · have finished : dep ∈ state.finished := by simpa [listed] using own
    have noError := safe.clear sweep isSweep id (node?_mem found) ⟨undispatched, unfinished⟩ dep
      depends finished
    have done := (safe.ended dep (.inr finished)).resolve_right noError
    exact ⟨fun _ => finished, by rw [done]; rfl⟩
  · exact ⟨fun isListed => absurd isListed listed, by simpa [listed] using own⟩

theorem DependencySafe.moves (accounted : Accounted batch state)
    (safe : DependencySafe batch state) (meets : CascadesInOrder batch state action)
    (step : Moves batch state action next) : DependencySafe batch next := by
  cases step with
  | begins _ free orderAll _ =>
    have begun : DependencySafe batch { state with starting := false } :=
      { safe with }
    exact begun.enterCheck accounted.begun free false meets.1 orderAll meets.2
  | takes _ | closes _ =>
    exact { safe with }
  | @settles id failed accepted runs =>
    have isAccepted : accepted := meets.1
    have keeps := accounted.keeps_setStatus runs (if failed then .error else .done) accepted
    obtain ⟨dispatched, notSettled, unfinished⟩ := accounted.runs id runs
    refine ⟨?_, ?_, ?_, ?_, ?_⟩
    · intro other side
      by_cases same : other = id
      · subst same
        simp only [isAccepted, setStatus_self]
        cases failed <;> simp
      · simp only [setStatus_other same]
        exact safe.ended other (side.imp_left fun member =>
          mem_of_mem_insert_of_ne member same)
    · intro other finished undispatched
      exact (keeps.status other (.inl finished)).trans
        (safe.skipped other finished undispatched)
    · exact fun other member dep depends => (safe.satisfied other member dep depends).keeps keeps
    · exact fun sweep isSweep other member dep depends =>
        (safe.collected sweep isSweep other member dep depends).keeps keeps
    · intro sweep isSweep other listed waiting dep depends finished
      simp only [keeps.status dep (.inl finished)]
      exact safe.clear sweep isSweep other listed waiting dep depends finished
  | @records id free settled =>
    obtain ⟨dispatched, unfinished⟩ := accounted.settles id settled
    have keeps : Keeps batch state.toBoard (recordTask batch state id).toBoard := by
      refine ⟨?_, ?_⟩
      · rw [recordTask_finished]
        exact subset_insert id state.finished
      · intro other _
        rw [recordTask_status]
    refine ⟨?_, ?_, ?_, by simp [free], by simp [free]⟩
    · intro other side
      rw [recordTask_status]
      rw [recordTask_settled, recordTask_finished] at side
      refine safe.ended other ?_
      rcases side with stays | counted
      · exact .inl (mem_of_mem_erase stays)
      · rcases mem_insert.mp counted with rfl | earlier
        · exact .inl settled
        · exact .inr earlier
    · intro other counted undispatched
      rw [recordTask_dispatched] at undispatched
      rw [recordTask_finished] at counted
      rw [recordTask_status]
      rcases mem_insert.mp counted with rfl | earlier
      · exact absurd dispatched undispatched
      · exact safe.skipped other earlier undispatched
    · intro other member dep depends
      rw [recordTask_dispatched] at member
      exact (safe.satisfied other member dep depends).keeps keeps
  | checks _ free orderAll _ =>
    have charged : DependencySafe batch { state with followUps := state.followUps - 1 } :=
      { safe with }
    exact charged.enterCheck accounted.charged free true meets.1 orderAll meets.2
  | @visits worker id waiting ready isSweep =>
    refine { safe with collected := ?_, clear := ?_ }
    · intro sweep isNext other member dep depends
      cases isNext
      by_cases isCollected : Scheduler.collected batch state.toBoard id = true
      · simp only [isCollected, if_true] at member
        rcases List.mem_append.mp member with earlier | last
        · exact safe.collected _ isSweep other earlier dep depends
        · obtain rfl := List.mem_singleton.mp last
          exact safe.collects isSweep isCollected depends
      · simp only [isCollected, if_false, Bool.false_eq_true] at member
        exact safe.collected _ isSweep other member dep depends
    · exact fun _ _ => safe.clear _ isSweep
  | @dispatches worker ready isSweep =>
    refine ⟨safe.ended, ?_, ?_, by simp [BatchState.resumeCaller],
      by simp [BatchState.resumeCaller]⟩
    · intro other finished undispatched
      exact safe.skipped other finished fun member =>
        undispatched (mem_union_left _ member)
    · intro other member dep depends
      rcases mem_union.mp member with earlier | isReady
      · exact safe.satisfied other earlier dep depends
      · exact safe.collected _ isSweep other (List.mem_toFinset.mp isReady) dep depends

theorem reachable_dependencySafe
    (reachable : Reachable (stepBatch batch) (CascadesInOrder batch) (startBatch status workers)
      state) : DependencySafe batch state := by
  refine batch_invariant (DependencySafe batch) ?_
    (fun accounted safe meets step => safe.moves accounted meets step) reachable
  exact ⟨by simp [startBatch], by simp [startBatch], by simp [startBatch], by simp [startBatch],
    by simp [startBatch]⟩

/-- Everything a dispatched task transitively depends on is satisfied: what it
depends on directly did not end in error, so it was itself dispatched. -/
theorem DependencySafe.transitively (safe : DependencySafe batch state)
    (dispatched : id ∈ state.dispatched) {other : String}
    (above : Relation.TransGen (fun task dep => dependsOn batch task dep) id other) :
    Satisfied batch state.toBoard other := by
  induction above with
  | single depends => exact safe.satisfied id dispatched _ depends
  | @tail middle last _ depends ih =>
    obtain ⟨node, found, _⟩ := dependsOn_eq_true.mp depends
    have finished := ih.1 (node?_mem found)
    have wasDispatched : middle ∈ state.dispatched := by
      by_contra undispatched
      have done := ih.2
      rw [safe.skipped middle finished undispatched] at done
      simp [completed] at done
    exact safe.satisfied middle wasDispatched _ depends

end

/-- Along runs on which every status write is accepted and every first pass
visits the waiting tasks in dependency order, all that a dispatched task
transitively depends on is done or approved. -/
theorem dispatched_after_dependencies (batch : Batch) (status : String → Option TaskStatus)
    (workers : Nat) {state : BatchState}
    (reachable : Reachable (stepBatch batch) (CascadesInOrder batch) (startBatch status workers)
      state) :
    ∀ id ∈ state.dispatched, ∀ other,
      Relation.TransGen (fun task dep => dependsOn batch task dep = true) id other →
      completed (state.status other) = true :=
  fun _ dispatched _ above => ((reachable_dependencySafe reachable).transitively dispatched above).2

def chain : Batch where
  pending := [{ id := "A" }, { id := "B", deps := ["A"] }, { id := "C", deps := ["B"] }]
  unique := by decide
  storyTasks := fun _ => []

def headRuns (failed : Bool) : List BatchAction :=
  [.begin ["A", "B", "C"] ["A", "B", "C"] (fun _ => true), .visit, .visit, .visit, .dispatch,
    .take, .settle "A" failed true, .record "A"]

theorem dispatched_after_dependencies_chain :
    ∃ state, Reachable (stepBatch chain) (CascadesInOrder chain) (startBatch allPending 1) state ∧
      "B" ∈ state.dispatched ∧ completed (state.status "A") = true := by
  refine exists_reached (fun state => "B" ∈ state.dispatched)
    (headRuns false ++ [.check ["A", "B", "C"] ["A", "B", "C"] (fun _ => true), .visit, .visit,
      .visit, .dispatch]) (by decide +kernel) ?_
  intro state reachable member
  exact ⟨member,
    dispatched_after_dependencies chain allPending 1 reachable "B" member "A" (.single rfl)⟩

/-- The head of the chain fails and the next first pass visits the tail before
the middle: the tail is dispatched although the middle ends in error. -/
theorem dispatched_after_failed_dependency :
    ∃ state, Reachable (stepBatch chain) anyStep (startBatch allPending 1) state ∧
      "C" ∈ state.dispatched ∧ dependsOn chain "C" "B" = true ∧ dependsOn chain "B" "A" = true ∧
      state.status "A" = some .error ∧ state.status "B" = some .error := by
  refine exists_reached (fun state => "C" ∈ state.dispatched ∧ state.status "A" = some .error ∧
      state.status "B" = some .error)
    (headRuns true ++ [.check ["C", "B", "A"] ["A", "B", "C"] (fun _ => true), .visit, .visit,
      .visit, .dispatch]) (by decide +kernel) ?_
  intro state _ holds
  exact ⟨holds.1, rfl, rfl, holds.2⟩

end OpenExec.Scheduler
