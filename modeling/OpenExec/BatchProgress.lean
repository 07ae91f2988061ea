import OpenExec.CircularWaits
import OpenExec.DependencySafety
import OpenExec.ReadyChannel

/-!
# When the pool runs out of steps

Readiness needs every task of a story dependency to be done, and failure is passed on
along task dependencies only.
-/

namespace OpenExec.Scheduler

open Release GuardedRuns CircularWaits Option List

variable (batch : Batch)

/-- Nothing is queued and neither a worker nor the starting goroutine can go on. -/
def Exhausted (state : BatchState) : Prop :=
  state.readyTasks = [] ∧ ∀ action, stepBatch batch state action = none

/-- Every task is finished and the channel is closed. -/
def Finished (state : BatchState) : Prop :=
  (∀ id ∈ batch.ids, id ∈ state.finished) ∧ 0 < state.closes

/-- No dispatched task is running, and the channel is empty and open. -/
def Quiet (state : BatchState) : Prop :=
  state.readyTasks = [] ∧ state.running = ∅ ∧ state.closes = 0

instance : DecidablePred Quiet :=
  fun _ => inferInstanceAs (Decidable (_ ∧ _ ∧ _))

/-- The task needs the other one, directly or through a story dependency. -/
def waitsFor (task other : String) : Bool :=
  (batch.node? task).any fun node =>
    other ∈ node.deps || node.storyDeps.any fun storyID => other ∈ batch.storyTasks storyID

def Batch.waiting (board : Board) : Finset String :=
  batch.ids.toFinset.filter board.isWaiting

/-- A story the task waits for has a task that finished without being done. -/
def storyFailed (board : Board) (task : String) : Bool :=
  (batch.node? task).any fun node =>
    node.storyDeps.any fun storyID =>
      (batch.storyTasks storyID).any fun other =>
        other ∈ board.finished && !completed (board.status other)

/-- Dependencies name tasks of the batch or tasks that are done. -/
structure Resolved (batch : Batch) (status : String → Option TaskStatus) : Prop where
  deps : ∀ node ∈ batch.pending, ∀ dep ∈ node.deps,
    dep ∈ batch.ids ∨ completed (status dep) = true
  stories : ∀ node ∈ batch.pending, ∀ storyID ∈ node.storyDeps,
    ∀ id ∈ batch.storyTasks storyID, id ∈ batch.ids ∨ completed (status id) = true

/-- Somebody is still going to look at the task. -/
def Attended (state : BatchState) (id : String) : Prop :=
  state.starting = true ∨ 0 < state.followUps ∨ state.settled.Nonempty ∨
    ∃ sweep, state.sweep = some sweep ∧ id ∈ sweep.waiting ++ sweep.ready

structure Attentive (batch : Batch) (status : String → Option TaskStatus) (state : BatchState) :
    Prop where
  attended : ∀ id node, batch.node? id = some node → state.isWaiting id →
    isReady batch state.toBoard node = true → Attended state id
  closing : state.finishedCount = batch.totalToRun →
    state.starting = true ∨ 0 < state.closes + state.closers
  outside : ∀ id, id ∉ batch.ids → state.status id = status id

section

variable {batch : Batch} {state next : BatchState} {action : BatchAction} {id : String}
  {status : String → Option TaskStatus} {workers : Nat}

theorem mem_waiting : id ∈ batch.waiting state.toBoard ↔ id ∈ batch.ids ∧ state.isWaiting id := by
  simp [Batch.waiting]

theorem Accounted.not_waiting_of_full (accounted : Accounted batch state)
    (full : state.finishedCount = batch.totalToRun) : ∀ id ∈ batch.ids, ¬ state.isWaiting id :=
  fun id listed waiting => waiting.2 (accounted.all_finished_iff.mp full id listed)

theorem enterCheck_attentive (accounted : Accounted batch state)
    (unchanged : ∀ id, id ∉ batch.ids → state.status id = status id) (free : state.sweep = none)
    (worker : Bool) {order visits : List String} (visitsAll : visits.Perm batch.ids)
    (accepted : String → Bool) :
    Attentive batch status (enterCheck batch worker order visits accepted state) := by
  obtain ⟨swept, _, cascaded, shapes⟩ := enterCheck_cases batch worker order visits accepted state
  have outside : ∀ other, other ∉ batch.ids → swept.status other = status other := by
    intro other unlisted
    rw [cascaded.keeps.status other (.inr unlisted)]
    exact unchanged other unlisted
  rcases shapes with ⟨full, shape⟩ | ⟨notFull, shape⟩
  · have finished := (accounted.cascaded free cascaded).not_waiting_of_full full
    rw [shape]
    refine ⟨?_, fun _ => .inr ?_, outside⟩
    · exact fun other node found waiting _ => absurd waiting (finished other (node?_mem found))
    · simp only [BatchState.resumeCaller]
      omega
  · rw [shape]
    refine ⟨?_, fun full => absurd full notFull, outside⟩
    intro other node found _ _
    refine .inr (.inr (.inr ⟨_, rfl, ?_⟩))
    exact mem_append_left _ (visitsAll.mem_iff.mpr (node?_mem found))

theorem Attentive.visit {worker : Bool} {waiting ready : List String}
    (attentive : Attentive batch status state)
    (isSweep : state.sweep = some { worker, waiting := id :: waiting, ready }) :
    Attentive batch status
      { state with
        sweep := some
          { worker, waiting
            ready := if collected batch state.toBoard id then ready ++ [id] else ready } } := by
  refine ⟨?_, attentive.closing, attentive.outside⟩
  intro other node found isWaiting isReady
  refine (attentive.attended other node found isWaiting isReady).imp_right (.imp_right
    (.imp_right ?_))
  rintro ⟨sweep, same, member⟩
  obtain rfl := mem_unique isSweep same
  refine ⟨_, rfl, ?_⟩
  rcases mem_append.mp member with pending | early
  · rcases mem_cons.mp pending with rfl | later
    · -- The visited task is ready now, so it is collected.
      have isCollected : collected batch state.toBoard other := by
        simp only [collected, found, isReady, Bool.and_true, Bool.and_eq_true, decide_eq_true_eq]
        exact isWaiting
      simp [isCollected]
    · exact mem_append_left _ later
  · refine mem_append_right _ ?_
    split
    · exact mem_append_left _ early
    · exact early

theorem Attentive.moves (accounted : Accounted batch state)
    (attentive : Attentive batch status state) (step : Moves batch state action next) :
    Attentive batch status next := by
  have afterStep := accounted.moves step
  cases step with
  | begins _ free _ visitsAll =>
    exact enterCheck_attentive accounted.begun attentive.outside free false visitsAll _
  | takes _ =>
    exact { attentive with }
  | @settles id failed accepted runs =>
    refine ⟨?_, attentive.closing, ?_⟩
    · intro other node _ _ _
      exact .inr (.inr (.inl ⟨id, Finset.mem_insert_self _ _⟩))
    · intro other unlisted
      have keeps := accounted.keeps_setStatus runs (if failed then .error else .done) accepted
      exact (keeps.status other (.inr unlisted)).trans (attentive.outside other unlisted)
  | @records id free settled =>
    refine ⟨?_, ?_, ?_⟩
    · intro other node found waiting _
      have notFull : (recordTask batch state id).finishedCount ≠ batch.totalToRun := fun full =>
        afterStep.not_waiting_of_full full other (node?_mem found) waiting
      rw [recordTask_finishedCount] at notFull
      refine .inr (.inl ?_)
      rw [recordTask, if_neg notFull]
      exact Nat.succ_pos _
    · unfold recordTask
      simp only
      split
      · intro _
        exact .inr (by simp only; omega)
      · next notFull => exact fun full => absurd full notFull
    · intro other unlisted
      rw [recordTask_status]
      exact attentive.outside other unlisted
  | closes owed =>
    refine ⟨attentive.attended, fun _ => .inr (by simp only; omega), attentive.outside⟩
  | checks _ free _ visitsAll =>
    exact enterCheck_attentive accounted.charged attentive.outside free true visitsAll _
  | visits isSweep => exact attentive.visit isSweep
  | @dispatches worker ready isSweep =>
    refine ⟨?_, attentive.closing, attentive.outside⟩
    intro other node found waiting isReady
    have before : state.isWaiting other :=
      ⟨fun early => waiting.1 (Finset.mem_union_left _ early), waiting.2⟩
    refine (attentive.attended other node found before isReady).imp_right (.imp_right
      (.imp_right ?_))
    rintro ⟨sweep, same, member⟩
    obtain rfl := mem_unique isSweep same
    have isSent : other ∈ ready := by simpa using member
    exact absurd (Finset.mem_union_right _ (mem_toFinset.mpr isSent)) waiting.1

theorem reachable_attentive {guard : BatchState → BatchAction → Prop}
    (reachable : Reachable (stepBatch batch) guard (startBatch status workers) state) :
    Attentive batch status state := by
  refine batch_invariant (Attentive batch status) ?_
    (fun accounted attentive _ step => attentive.moves accounted step) reachable
  exact ⟨fun _ _ _ _ _ => .inl rfl, fun _ => .inl rfl, fun _ _ => rfl⟩

theorem exhausted_iff : Exhausted batch state ↔
    state.readyTasks = [] ∧ state.starting = false ∧ state.sweep = none ∧ state.running = ∅ ∧
      state.settled = ∅ ∧ state.followUps = 0 ∧ state.closers = 0 := by
  constructor
  · rintro ⟨empty, stuck⟩
    have noSweep : state.sweep = none := by
      rcases isSweep : state.sweep with _ | ⟨worker, waiting, ready⟩
      · rfl
      · cases waiting with
        | nil =>
          have dispatches := stuck .dispatch
          simp [stepBatch, dispatchReady, isSweep] at dispatches
        | cons id waiting =>
          have visits := stuck .visit
          simp [stepBatch, visitNode, isSweep] at visits
    refine ⟨empty, ?_, noSweep, ?_, ?_, ?_, ?_⟩
    · have begins := stuck (.begin batch.ids batch.ids fun _ => true)
      simpa [stepBatch, noSweep] using begins
    · refine Finset.eq_empty_of_forall_notMem fun id runs => ?_
      have settles := stuck (.settle id false true)
      simp [stepBatch, runs] at settles
    · refine Finset.eq_empty_of_forall_notMem fun id settled => ?_
      have records := stuck (.record id)
      simp [stepBatch, noSweep, settled] at records
    · have checks := stuck (.check batch.ids batch.ids fun _ => true)
      simpa [stepBatch, noSweep] using checks
    · have closes := stuck .close
      simpa [stepBatch] using closes
  · rintro ⟨empty, begun, noSweep, noneRuns, noneSettled, noneOwed, noneCloses⟩
    refine ⟨empty, ?_⟩
    intro action
    cases action <;>
      simp [stepBatch, visitNode, dispatchReady, empty, begun, noSweep, noneRuns, noneSettled,
        noneOwed, noneCloses]

instance : DecidablePred (Exhausted batch) :=
  fun _ => decidable_of_iff _ exhausted_iff.symm

theorem Accounted.finished_of_not_waiting (accounted : Accounted batch state)
    (exhausted : Exhausted batch state) (notWaiting : ¬ state.isWaiting id) :
    id ∈ state.finished := by
  obtain ⟨empty, _, _, noneRuns, noneSettled, _, _⟩ := exhausted_iff.mp exhausted
  by_contra unfinished
  have dispatched : id ∈ state.dispatched := by
    by_contra undispatched
    exact notWaiting ⟨undispatched, unfinished⟩
  rcases accounted.placed id dispatched with queued | runs | settled | finished
  · simp [empty] at queued
  · simp [noneRuns] at runs
  · simp [noneSettled] at settled
  · exact unfinished finished

theorem Attentive.isReady_of_free (accounted : Accounted batch state)
    (attentive : Attentive batch status state) (resolved : Resolved batch status)
    (exhausted : Exhausted batch state) {node : BatchTask} (found : batch.node? id = some node)
    (succeeded : storyFailed batch state.toBoard id = false)
    (free : ∀ other ∈ batch.waiting state.toBoard, ¬ waitsFor batch id other) :
    isReady batch state.toBoard node := by
  have isPending : node ∈ batch.pending := KeyedRows.row?_mem found
  have finished {other : String} (waits : waitsFor batch id other)
      (listed : other ∈ batch.ids) : other ∈ state.finished :=
    accounted.finished_of_not_waiting exhausted fun waiting =>
      free other (mem_waiting.mpr ⟨listed, waiting⟩) waits
  have outside {other : String} (unlisted : other ∉ batch.ids)
      (done : other ∈ batch.ids ∨ completed (status other)) :
      completed (state.status other) := by
    rw [attentive.outside other unlisted]
    exact done.resolve_left unlisted
  simp only [isReady, isStoryFinished, Bool.and_eq_true, List.all_eq_true]
  refine ⟨?_, ?_⟩
  · intro dep isDep
    have waits : waitsFor batch id dep := by simp [waitsFor, found, isDep]
    by_cases listed : dep ∈ batch.ids
    · simpa [listed] using finished waits listed
    · simpa [listed] using outside listed (resolved.deps node isPending dep isDep)
  · intro storyID isStory other isTask
    have waits : waitsFor batch id other := by
      simp only [waitsFor, found, any_some, Bool.or_eq_true, List.any_eq_true,
        decide_eq_true_eq]
      exact .inr ⟨storyID, isStory, isTask⟩
    by_cases listed : other ∈ batch.ids
    · by_contra notDone
      rw [Bool.not_eq_true] at notDone
      have failed : storyFailed batch state.toBoard id := by
        simp only [storyFailed, found, any_some, List.any_eq_true, Bool.and_eq_true,
          decide_eq_true_eq]
        exact ⟨storyID, isStory, other, isTask, finished waits listed, by simp [notDone]⟩
      exact absurd (succeeded.symm.trans failed) (by simp)
    · exact outside listed (resolved.stories node isPending storyID isStory other isTask)

/-- A pool without a step left has finished the batch and closed the channel, unless a story of a
waiting task failed or the waiting tasks wait for each other in a circle. -/
theorem exhausted_finished (resolved : Resolved batch status)
    (accounted : Accounted batch state) (attentive : Attentive batch status state)
    (exhausted : Exhausted batch state)
    (succeeded : ∀ id ∈ batch.waiting state.toBoard, storyFailed batch state.toBoard id = false)
    (straight : ¬ Circular (fun task other => waitsFor batch task other = true)
      (batch.waiting state.toBoard)) : Finished batch state := by
  obtain ⟨_, begun, noSweep, _, noneSettled, noneOwed, noneCloses⟩ := exhausted_iff.mp exhausted
  have none : ¬ (batch.waiting state.toBoard).Nonempty := by
    intro nonempty
    obtain ⟨id, member, free⟩ := exists_free nonempty straight
    obtain ⟨listed, waiting⟩ := mem_waiting.mp member
    obtain ⟨node, found⟩ := exists_node? listed
    have ready := attentive.isReady_of_free accounted resolved exhausted found
      (succeeded id member) free
    rcases attentive.attended id node found waiting ready with
      starting | owed | settled | ⟨sweep, isSweep, _⟩
    · exact absurd (begun.symm.trans starting) (by simp)
    · omega
    · simp [noneSettled] at settled
    · exact absurd (noSweep.symm.trans isSweep) (by simp)
  have all : ∀ id ∈ batch.ids, id ∈ state.finished := fun id listed =>
    accounted.finished_of_not_waiting exhausted fun waiting =>
      none ⟨id, mem_waiting.mpr ⟨listed, waiting⟩⟩
  refine ⟨all, ?_⟩
  rcases attentive.closing (accounted.all_finished_iff.mpr all) with starting | closed
  · exact absurd (begun.symm.trans starting) (by simp)
  · omega

end

/-- Waiting tasks that a failure still reaches over task dependencies. -/
inductive Doomed (state : BatchState) : String → Prop
  | failed {id dep : String} {node : BatchTask} (found : batch.node? id = some node)
      (waiting : state.isWaiting id) (needs : dep ∈ node.deps) (hasRun : HasRun dep state)
      (isError : state.status dep = some .error) : Doomed state id
  | through {id dep : String} {node : BatchTask} (found : batch.node? id = some node)
      (waiting : state.isWaiting id) (needs : dep ∈ node.deps) (doomed : Doomed state dep) :
      Doomed state id

/-- No waiting task has, in a story it waits for, a task that was run or counted without being
done or that a failure still reaches, and the waiting tasks do not wait for each other in a
circle. -/
structure Unblocked (state : BatchState) : Prop where
  stories : ∀ id ∈ batch.waiting state.toBoard, ∀ node, batch.node? id = some node →
    ∀ storyID ∈ node.storyDeps, ∀ other ∈ batch.storyTasks storyID,
      (HasRun other state → completed (state.status other)) ∧ ¬ Doomed batch state other
  straight : ¬ Circular (fun task other => waitsFor batch task other = true)
    (batch.waiting state.toBoard)

/-- What first passes make of the board of an earlier state. -/
structure Swept (earlier : BatchState) (board : Board) : Prop where
  dispatched : board.dispatched = earlier.dispatched
  grows : earlier.finished ⊆ board.finished
  finished : ∀ id ∈ board.finished, HasRun id earlier ∨ Doomed batch earlier id
  status : ∀ id, HasRun id earlier → board.status id = earlier.status id

/-- A state reached from an earlier one without a dispatch in between. -/
structure Undispatched (earlier state : BatchState) : Prop where
  board : Swept batch earlier state.toBoard
  queue : state.readyTasks = []
  running : state.running = ∅
  settled : state.settled ⊆ earlier.settled

section

variable {batch : Batch} {earlier state next : BatchState} {action : BatchAction} {id : String}
  {accepted : String → Bool}

theorem Swept.cascadeNode {board : Board}
    (accounted : Accounted batch earlier) (swept : Swept batch earlier board) (id : String) :
    Swept batch earlier (cascadeNode batch accepted board id) := by
  rcases cascadeNode_cases batch accepted board id with
    same | ⟨node, found, undispatched, unfinished, failed, shape⟩
  · rw [same]
    exact swept
  rw [shape]
  have waiting : earlier.isWaiting id :=
    ⟨swept.dispatched ▸ undispatched, fun early => unfinished (swept.grows early)⟩
  refine ⟨swept.dispatched, swept.grows.trans (Finset.subset_insert _ _), ?_, ?_⟩
  · intro other member
    rcases Finset.mem_insert.mp member with rfl | old
    · simp only [dependencyFailed, List.any_eq_true, Bool.and_eq_true, decide_eq_true_eq] at failed
      obtain ⟨dep, needs, ⟨_, finished⟩, isError⟩ := failed
      rcases swept.finished dep finished with hasRun | doomed
      · exact .inr (.failed found waiting needs hasRun (swept.status dep hasRun ▸ isError))
      · exact .inr (.through found waiting needs doomed)
    · exact swept.finished other old
  · intro other hasRun
    have different : other ≠ id := by
      rintro rfl
      rcases hasRun with settled | finished
      · exact waiting.1 (accounted.settles other settled).1
      · exact waiting.2 finished
    rw [setStatus_other different]
    exact swept.status other hasRun

theorem Swept.cascade {board : Board}
    (accounted : Accounted batch earlier) (swept : Swept batch earlier board)
    (order : List String) : Swept batch earlier (cascade batch accepted order board) := by
  induction order generalizing board with
  | nil => exact swept
  | cons id order ih => exact ih (swept.cascadeNode accounted id)

theorem Undispatched.enterCheck {worker : Bool} {order visits : List String}
    (accounted : Accounted batch earlier)
    (undispatched : Undispatched batch earlier state) :
    Undispatched batch earlier (enterCheck batch worker order visits accepted state) := by
  obtain ⟨swept, isSwept, _, ⟨_, shape⟩ | ⟨_, shape⟩⟩ :=
    enterCheck_cases batch worker order visits accepted state
  all_goals
    rw [shape]
    refine { undispatched with board := ?_ }
    rw [isSwept]
    exact undispatched.board.cascade accounted order

/-- A step dispatches a task, or it changes nothing that an earlier state did not bring about. -/
theorem Undispatched.moves (earlierAccounted : Accounted batch earlier)
    (accounted : Accounted batch state) (undispatched : Undispatched batch earlier state)
    (step : Moves batch state action next) :
    Undispatched batch earlier next ∨ ∃ id ∈ next.dispatched, id ∉ earlier.dispatched := by
  cases step with
  | begins | checks =>
    exact .inl (Undispatched.enterCheck earlierAccounted { undispatched with })
  | takes queue => exact absurd (undispatched.queue.symm.trans queue) (by simp)
  | settles runs =>
    rw [undispatched.running] at runs
    exact absurd runs (Finset.notMem_empty _)
  | @records id free settled =>
    obtain ⟨⟨dispatched, grows, finished, status⟩, queue, running, earlierSettled⟩ := undispatched
    refine .inl ⟨⟨?_, ?_, ?_, ?_⟩, ?_, ?_, ?_⟩
    · rw [recordTask_dispatched]
      exact dispatched
    · rw [recordTask_finished]
      exact grows.trans (Finset.subset_insert _ _)
    · intro other member
      rw [recordTask_finished] at member
      rcases Finset.mem_insert.mp member with rfl | old
      · exact .inl (.inl (earlierSettled settled))
      · exact finished other old
    · rw [recordTask_status]
      exact status
    · rw [← queue, recordTask]
      split <;> rfl
    · rw [← running, recordTask]
      split <;> rfl
    · rw [recordTask_settled]
      exact (Finset.erase_subset _ _).trans earlierSettled
  | closes => exact .inl { undispatched with }
  | visits => exact .inl { undispatched with }
  | @dispatches worker ready isSweep =>
    cases ready with
    | nil =>
      refine .inl { undispatched with board := { undispatched.board with dispatched := ?_ }
                                      queue := ?_ }
      · simpa [BatchState.resumeCaller] using undispatched.board.dispatched
      · simpa [BatchState.resumeCaller] using undispatched.queue
    | cons id rest =>
      refine .inr ⟨id, ?_, ?_⟩
      · simp [BatchState.resumeCaller]
      · rw [← undispatched.board.dispatched]
        exact ((accounted.sweeping _ isSweep).collected id mem_cons_self).1

theorem dispatched_subset (step : Moves batch state action next) :
    state.dispatched ⊆ next.dispatched := by
  cases step with
  | @begins order visits accepted | @checks order visits accepted =>
    obtain ⟨_, _, cascaded, ⟨_, shape⟩ | ⟨_, shape⟩⟩ :=
      enterCheck_cases batch _ order visits accepted _
    all_goals
      rw [shape]
      exact cascaded.dispatched.ge
  | records => exact (recordTask_dispatched ..).ge
  | dispatches => exact Finset.subset_union_left
  | takes | settles | closes | visits => exact Finset.Subset.refl _

theorem Quiet.undispatched (quiet : Quiet state) : Undispatched batch state state where
  board := ⟨rfl, Finset.Subset.refl _, fun _ finished => .inl (.inr finished), fun _ _ => rfl⟩
  queue := quiet.1
  running := quiet.2.1
  settled := Finset.Subset.refl _

/-- From a quiet state on, a task is dispatched or the board is only swept. -/
theorem Quiet.onwards (quiet : Quiet earlier) (accounted : Accounted batch earlier)
    (onwards : Reachable (stepBatch batch) anyStep earlier state) : Accounted batch state ∧
    (Undispatched batch earlier state ∨ ∃ id ∈ state.dispatched, id ∉ earlier.dispatched) := by
  induction onwards with
  | initial => exact ⟨accounted, .inl quiet.undispatched⟩
  | after _ _ taken ih =>
    have step := stepBatch_moves taken
    refine ⟨ih.1.moves step, ?_⟩
    rcases ih.2 with undispatched | ⟨id, dispatched, new⟩
    · exact undispatched.moves accounted ih.1 step
    · exact .inr ⟨id, dispatched_subset step dispatched, new⟩

theorem Undispatched.waiting_subset (undispatched : Undispatched batch earlier state) :
    batch.waiting state.toBoard ⊆ batch.waiting earlier.toBoard := by
  intro id member
  obtain ⟨listed, waiting⟩ := mem_waiting.mp member
  exact mem_waiting.mpr ⟨listed, undispatched.board.dispatched ▸ waiting.1,
    fun early => waiting.2 (undispatched.board.grows early)⟩

/-- A story that is not blocked does not fail without a dispatch. -/
theorem Unblocked.storyFailed_eq_false (unblocked : Unblocked batch earlier)
    (undispatched : Undispatched batch earlier state) (member : id ∈ batch.waiting state.toBoard) :
    storyFailed batch state.toBoard id = false := by
  rw [← Bool.not_eq_true]
  intro failed
  simp only [storyFailed, Option.any_eq_true, List.any_eq_true, Bool.and_eq_true,
    decide_eq_true_eq] at failed
  obtain ⟨node, found, storyID, isStory, other, isTask, finished, notDone⟩ := failed
  obtain ⟨done, notDoomed⟩ := unblocked.stories id (undispatched.waiting_subset member) node found
    storyID isStory other isTask
  rcases undispatched.board.finished other finished with hasRun | doomed
  · rw [undispatched.board.status other hasRun, done hasRun] at notDone
    cases notDone
  · exact notDoomed doomed

end

/-- How many steps the pool may still take: every task on its way to being finished, every sweep
still owed and what is left of the one under way. -/
def work (state : BatchState) : Nat :=
  (batch.totalToRun + 7) * (batch.waiting state.toBoard).card +
    (batch.totalToRun + 6) * state.readyTasks.length +
    (batch.totalToRun + 5) * state.running.card + (batch.totalToRun + 4) * state.settled.card +
    (batch.totalToRun + 3) * (state.followUps + state.starting.toNat) + state.closers +
    state.sweep.elim 0 fun sweep => sweep.waiting.length + 1

section

variable {batch : Batch} {state next later : BatchState} {action : BatchAction} {id : String}

theorem Cascaded.waiting_subset {board swept : Board} (cascaded : Cascaded batch board swept) :
    batch.waiting swept ⊆ batch.waiting board := by
  intro id member
  simp only [Batch.waiting, Finset.mem_filter, Board.isWaiting] at member ⊢
  exact ⟨member.1, cascaded.dispatched ▸ member.2.1, fun early => member.2.2 (cascaded.grows early)⟩

theorem work_enterCheck {worker : Bool} {order visits : List String} {accepted : String → Bool}
    (free : state.sweep = none) (visitsAll : visits.Perm batch.ids) :
    work batch (enterCheck batch worker order visits accepted state) ≤
      work batch state + batch.totalToRun + 1 := by
  have visited : visits.length = batch.totalToRun := by
    rw [visitsAll.length_eq, Batch.ids, length_map]
    rfl
  obtain ⟨swept, _, cascaded, ⟨_, shape⟩ | ⟨_, shape⟩⟩ :=
    enterCheck_cases batch worker order visits accepted state
  all_goals
    have fewer := Nat.mul_le_mul_left (batch.totalToRun + 7)
      (Finset.card_le_card cascaded.waiting_subset)
    rw [shape]
    simp only [work, BatchState.resumeCaller, free, Option.elim, visited]
    omega

theorem waiting_record (batch : Batch) (state : BatchState) (id : String) :
    batch.waiting { state.toBoard with
      finished := insert id state.finished
      finishedCount := state.finishedCount + 1 } ⊆ batch.waiting state.toBoard := by
  intro other member
  simp only [Batch.waiting, Finset.mem_filter, Board.isWaiting] at member ⊢
  exact ⟨member.1, member.2.1, fun early => member.2.2 (Finset.mem_insert_of_mem early)⟩

/-- A dispatched task waits no longer. -/
theorem Accounted.waiting_dispatch {worker : Bool} {ready : List String}
    (accounted : Accounted batch state)
    (isSweep : state.sweep = some { worker, waiting := [], ready }) :
    (batch.waiting { state.toBoard with
      dispatched := state.dispatched ∪ ready.toFinset }).card + ready.length ≤
      (batch.waiting state.toBoard).card := by
  have sweeping := accounted.sweeping _ isSweep
  have once : ready.Nodup := by simpa using sweeping.once
  rw [← List.toFinset_card_of_nodup once, ← Finset.card_union_of_disjoint]
  · refine Finset.card_le_card (Finset.union_subset ?_ ?_)
    · intro other member
      simp only [Batch.waiting, Finset.mem_filter, Board.isWaiting, Finset.mem_union,
        not_or] at member ⊢
      exact ⟨member.1, member.2.1.1, member.2.2⟩
    · intro other isReady
      have inReady := mem_toFinset.mp isReady
      exact mem_waiting.mpr ⟨sweeping.known other (by simpa using inReady),
        sweeping.collected other inReady⟩
  · refine Finset.disjoint_left.mpr fun other member isReady => ?_
    simp only [Batch.waiting, Finset.mem_filter, Board.isWaiting, Finset.mem_union] at member
    exact member.2.1 (.inr isReady)

theorem Accounted.work_lt (accounted : Accounted batch state)
    (step : Moves batch state action next) : work batch next < work batch state := by
  cases step with
  | @begins order visits accepted isStarting free _ visitsAll =>
    have entered := @work_enterCheck batch { state with starting := false } false order visits
      accepted free visitsAll
    simp only [work, isStarting, Bool.toNat_false, Bool.toNat_true, Nat.mul_add] at entered ⊢
    omega
  | @takes id rest idle queue =>
    have one := Nat.mul_le_mul_left (batch.totalToRun + 5) (Finset.card_insert_le id state.running)
    simp only [work, queue, length_cons, Nat.mul_add] at one ⊢
    omega
  | @settles id _ _ runs =>
    have one := Nat.mul_le_mul_left (batch.totalToRun + 4) (Finset.card_insert_le id state.settled)
    have fewer := congrArg ((batch.totalToRun + 5) * ·) (Finset.card_erase_add_one runs)
    have same (status : TaskStatus) (accepted : Bool) :
        batch.waiting (state.toBoard.setStatus id status accepted) = batch.waiting state.toBoard :=
      rfl
    simp only [work, same, Nat.mul_add] at one fewer ⊢
    omega
  | @records id free settled =>
    have fewer := congrArg ((batch.totalToRun + 4) * ·) (Finset.card_erase_add_one settled)
    have waiting := Nat.mul_le_mul_left (batch.totalToRun + 7)
      (Finset.card_le_card (waiting_record batch state id))
    unfold recordTask
    simp only
    split
    all_goals
      simp only [work, Nat.mul_add] at fewer waiting ⊢
      omega
  | closes owed =>
    simp only [work]
    omega
  | @checks order visits accepted owed free _ visitsAll =>
    have entered := @work_enterCheck batch { state with followUps := state.followUps - 1 } true
      order visits accepted free visitsAll
    obtain ⟨owes, isOwed⟩ := Nat.exists_eq_add_one.mpr owed
    simp only [work, isOwed, Nat.add_sub_cancel, Nat.mul_add] at entered ⊢
    omega
  | visits isSweep =>
    simp only [work, isSweep, Option.elim, length_cons]
    omega
  | @dispatches worker ready isSweep =>
    have moved := Nat.mul_le_mul_left (batch.totalToRun + 7) (accounted.waiting_dispatch isSweep)
    simp only [work, isSweep, BatchState.resumeCaller, Option.elim, length_append, length_nil,
      length_insertionSort, Nat.mul_add, Nat.add_mul] at moved ⊢
    omega

end

/-- From every state in which no task runs and the channel is empty and open, the pool stops after
boundedly many steps, and unless a story failed or the waiting tasks wait in a circle it has then
dispatched a further task or finished the batch.  In a state without a step left the condition is
exact. -/
theorem quiet_pool_goes_on (batch : Batch) (status : String → Option TaskStatus)
    (workers : Nat) (resolved : Resolved batch status) {state : BatchState}
    (reachable : Reachable (stepBatch batch) anyStep (startBatch status workers) state)
    (quiet : Quiet state) :
    (∀ actions final, run (stepBatch batch) anyStep state actions = some final →
      actions.length ≤ work batch state) ∧
    (Unblocked batch state → ∀ final, Reachable (stepBatch batch) anyStep state final →
      (∀ action, stepBatch batch final action = none) →
      (∃ id ∈ final.dispatched, id ∉ state.dispatched) ∨ Finished batch final) ∧
    ((∀ action, stepBatch batch state action = none) →
      (Finished batch state ↔ Unblocked batch state)) := by
  have accounted := reachable_accounted reachable
  have goesOn (unblocked : Unblocked batch state) {final : BatchState}
      (onwards : Reachable (stepBatch batch) anyStep state final)
      (stuck : ∀ action, stepBatch batch final action = none) :
      (∃ id ∈ final.dispatched, id ∉ state.dispatched) ∨ Finished batch final := by
    obtain ⟨finalAccounted, undispatched | new⟩ := quiet.onwards accounted onwards
    · exact .inr (exhausted_finished resolved finalAccounted
        (reachable_attentive (reachable.trans onwards)) ⟨undispatched.queue, stuck⟩
        (fun _ => unblocked.storyFailed_eq_false undispatched)
        fun circular => unblocked.straight (circular.mono undispatched.waiting_subset))
    · exact .inl new
  refine ⟨fun actions final runs => ?_, fun unblocked _ => goesOn unblocked, fun stuck => ?_⟩
  · have bound := length_le_of_run (work batch) (fun onwards _ taken =>
      (quiet.onwards accounted onwards).1.work_lt (stepBatch_moves taken)) runs
    omega
  · refine ⟨fun finished => ?_, fun unblocked => ?_⟩
    · have empty : batch.waiting state.toBoard = ∅ := by
        refine Finset.eq_empty_of_forall_notMem fun id member => ?_
        obtain ⟨listed, waiting⟩ := mem_waiting.mp member
        exact waiting.2 (finished.1 id listed)
      refine ⟨?_, ?_⟩
      · rw [empty]
        exact fun id member => absurd member (Finset.notMem_empty _)
      · rw [empty]
        rintro ⟨member, circle⟩
        obtain ⟨_, within, _⟩ := Relation.TransGen.head'_iff.mp circle
        exact absurd within.1 (Finset.notMem_empty _)
    · rcases goesOn unblocked .initial stuck with ⟨id, dispatched, new⟩ | finished
      · exact absurd dispatched new
      · exact finished

def storyChain : Batch where
  pending := [{ id := "A" }, { id := "B", storyDeps := ["S1"] }]
  unique := by decide
  storyTasks := fun storyID => if storyID = "S1" then ["A"] else []

def firstStory (failed : Bool) : List BatchAction :=
  [.begin ["A", "B"] ["A", "B"] (fun _ => true), .visit, .visit, .dispatch, .take,
    .settle "A" failed true, .record "A", .check ["A", "B"] ["A", "B"] (fun _ => true), .visit,
    .visit, .dispatch]

theorem storyChain_resolved : Resolved storyChain allPending where
  deps := by decide
  stories := by decide

theorem storyChain_waits {first second : String}
    (waits : waitsFor storyChain first second) : first = "B" ∧ second = "A" := by
  obtain ⟨node, found, needs⟩ := (any_eq_true _ _).mp waits
  have listed := KeyedRows.row?_mem found
  have named := node?_id found
  simp only [storyChain, mem_cons, not_mem_nil, or_false] at listed
  rcases listed with rfl | rfl
  · simp at needs
  · exact ⟨named.symm, by simpa [storyChain] using needs⟩

theorem storyChain_straight :
    ¬ Circular (fun task other => waitsFor storyChain task other) storyChain.ids.toFinset := by
  rintro ⟨member, circle⟩
  obtain ⟨_, first, _⟩ := Relation.TransGen.head'_iff.mp circle
  obtain ⟨_, _, last⟩ := Relation.TransGen.tail'_iff.mp circle
  have fromB := (storyChain_waits first.2.2).1
  have toA := (storyChain_waits last.2.2).2
  exact absurd (fromB.symm.trans toA) (by decide)

/-- The first task is recorded as done and the check after it is still to come. -/
theorem quiet_pool_goes_on_storyChain :
    ∃ state, Reachable (stepBatch storyChain) anyStep (startBatch allPending 1) state ∧
      "B" ∉ state.dispatched ∧ ∀ final, Reachable (stepBatch storyChain) anyStep state final →
        (∀ action, stepBatch storyChain final action = none) →
        (∃ id ∈ final.dispatched, id ∉ state.dispatched) ∨ Finished storyChain final := by
  refine exists_reached (fun state => Quiet state ∧ "B" ∉ state.dispatched ∧
    "A" ∈ state.dispatched ∧ completed (state.status "A")) ((firstStory false).take 7)
    (by decide +kernel) ?_
  rintro state reachable ⟨quiet, waits, dispatched, done⟩
  refine ⟨waits, (quiet_pool_goes_on storyChain allPending 1 storyChain_resolved reachable
    quiet).2.1 ⟨?_, fun circular => storyChain_straight (circular.mono (Finset.filter_subset _ _))⟩⟩
  intro id _ node found storyID isStory other isTask
  have isFirst : other = "A" := by
    have waits : waitsFor storyChain id other := by
      simp only [waitsFor, found, any_some, Bool.or_eq_true, List.any_eq_true, decide_eq_true_eq]
      exact .inr ⟨storyID, isStory, isTask⟩
    exact (storyChain_waits waits).2
  subst isFirst
  refine ⟨fun _ => done, fun doomed => ?_⟩
  cases doomed with
  | failed _ waiting | through _ waiting => exact waiting.1 dispatched

/-- The first story's task fails: the second task is neither skipped nor
dispatched, the pool has no step left and the channel stays open. -/
theorem exhausted_unfinished_storyChain :
    Resolved storyChain allPending ∧
      ¬ Circular (fun task other => waitsFor storyChain task other = true) storyChain.ids.toFinset ∧
      ∃ state,
        Reachable (stepBatch storyChain) anyStep (startBatch allPending 1) state ∧ Quiet state ∧
        (∀ action, stepBatch storyChain state action = none) ∧ ¬ Finished storyChain state := by
  refine ⟨storyChain_resolved, storyChain_straight, ?_⟩
  refine exists_reached (fun state => Quiet state ∧ Exhausted storyChain state)
    (firstStory true) (by decide +kernel) ?_
  rintro state _ ⟨quiet, exhausted⟩
  exact ⟨quiet, exhausted.2, fun finished => absurd quiet.2.2 finished.2.ne'⟩

end OpenExec.Scheduler
