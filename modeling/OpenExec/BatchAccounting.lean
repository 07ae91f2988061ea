import OpenExec.BatchScheduler
import OpenExec.PrefixFold

/-!
# Every dispatched task is at one place

What a step does to the pool, and the accounting that holds on every run: a
dispatched task is in the channel, with a worker, or finished, and the count is
the number of finished tasks.
-/

namespace OpenExec.Scheduler

open Release KeyedRows GuardedRuns Finset List Option
open scoped List

section

variable {batch : Batch} {id : String} {node : BatchTask}

theorem node?_id (found : batch.node? id = some node) : node.id = id :=
  row?_key found

theorem node?_mem (found : batch.node? id = some node) : id ∈ batch.ids :=
  node?_id found ▸ mem_map_of_mem (row?_mem found)

theorem exists_node? (listed : id ∈ batch.ids) : ∃ node, batch.node? id = some node :=
  isSome_iff_exists.mp (row?_isSome_iff.mpr listed)

end

/-- A first pass only finishes waiting tasks and sets their status. -/
structure Cascaded (batch : Batch) (board swept : Board) : Prop where
  dispatched : swept.dispatched = board.dispatched
  grows : board.finished ⊆ swept.finished
  fresh : ∀ id ∈ swept.finished, id ∉ board.finished → id ∈ batch.ids ∧ id ∉ board.dispatched
  counted : swept.finishedCount + board.finished.card = board.finishedCount + swept.finished.card
  untouched : ∀ id, id ∉ swept.finished ∨ id ∈ board.finished → swept.status id = board.status id

section

variable {batch : Batch} {accepted : String → Bool} {board swept final : Board} {id : String}

theorem Cascaded.refl (batch : Batch) (board : Board) : Cascaded batch board board where
  dispatched := rfl
  grows := Finset.Subset.refl _
  fresh := fun _ member absent => absurd member absent
  counted := rfl
  untouched := fun _ _ => rfl

theorem Cascaded.trans (first : Cascaded batch board swept) (second : Cascaded batch swept final) :
    Cascaded batch board final where
  dispatched := second.dispatched.trans first.dispatched
  grows := first.grows.trans second.grows
  fresh := by
    intro id member absent
    by_cases between : id ∈ swept.finished
    · exact first.fresh id between absent
    · exact first.dispatched ▸ second.fresh id member between
  counted := by
    have early := first.counted
    have late := second.counted
    omega
  untouched := by
    rintro id (absent | early)
    · have between : id ∉ swept.finished := fun member => absent (second.grows member)
      rw [second.untouched id (.inl absent), first.untouched id (.inl between)]
    · rw [second.untouched id (.inr (first.grows early)), first.untouched id (.inr early)]

variable (batch : Batch) (accepted : String → Bool)

theorem cascadeNode_cases (board : Board) (id : String) :
    cascadeNode batch accepted board id = board ∨
      ∃ node, batch.node? id = some node ∧ id ∉ board.dispatched ∧ id ∉ board.finished ∧
        dependencyFailed batch board node ∧
        cascadeNode batch accepted board id =
          { board with
            finished := insert id board.finished
            finishedCount := board.finishedCount + 1 }.setStatus id .error (accepted id) := by
  unfold cascadeNode
  split
  · exact .inl rfl
  next node found =>
  split
  · exact .inl rfl
  next waiting =>
  split
  · next failed =>
    exact .inr ⟨node, found, fun dispatched => waiting (.inl dispatched),
      fun finished => waiting (.inr finished), failed, rfl⟩
  · exact .inl rfl

theorem setStatus_other {other : String} (different : other ≠ id) (status : TaskStatus)
    (accepted : Bool) : (board.setStatus id status accepted).status other = board.status other := by
  cases accepted with
  | false => rfl
  | true => exact Function.update_of_ne different _ _

theorem setStatus_self (board : Board) (id : String) (status : TaskStatus) :
    (board.setStatus id status true).status id = some status :=
  Function.update_self _ _ _

theorem cascadeNode_cascaded (board : Board)
    (id : String) : Cascaded batch board (cascadeNode batch accepted board id) := by
  rcases cascadeNode_cases batch accepted board id with
    same | ⟨node, found, undispatched, unfinished, _, shape⟩
  · rw [same]
    exact Cascaded.refl batch board
  · rw [shape]
    refine ⟨rfl, subset_insert id board.finished, ?_, ?_, ?_⟩
    · intro other member absent
      rcases mem_insert.mp member with rfl | earlier
      · exact ⟨node?_mem found, undispatched⟩
      · exact absurd earlier absent
    · simp only [Board.setStatus, card_insert_of_notMem unfinished]
      omega
    · intro other side
      refine setStatus_other ?_ _ _
      rintro rfl
      rcases side with absent | early
      · exact absent (mem_insert_self _ _)
      · exact unfinished early

theorem cascade_cascaded (order : List String)
    (board : Board) : Cascaded batch board (cascade batch accepted order board) := by
  induction order generalizing board with
  | nil => exact Cascaded.refl batch board
  | cons id order ih =>
    exact (cascadeNode_cascaded batch accepted board id).trans (ih _)

theorem enterCheck_cases (worker : Bool) (order visits : List String)
    (accepted : String → Bool) (state : BatchState) :
    ∃ swept, swept = cascade batch accepted order state.toBoard ∧
      Cascaded batch state.toBoard swept ∧
      ((swept.finishedCount = batch.totalToRun ∧
          enterCheck batch worker order visits accepted state =
            { state with toBoard := swept, closes := state.closes + 1 }.resumeCaller worker) ∨
        (swept.finishedCount ≠ batch.totalToRun ∧
          enterCheck batch worker order visits accepted state =
            { state with toBoard := swept, sweep := some { worker, waiting := visits } })) := by
  refine ⟨_, rfl, cascade_cascaded batch accepted order state.toBoard, ?_⟩
  by_cases full : (cascade batch accepted order state.toBoard).finishedCount = batch.totalToRun
  · exact .inl ⟨full, if_pos full⟩
  · exact .inr ⟨full, if_neg full⟩

end

/-- A sweep visits and collects tasks of the batch, each once. -/
structure Sweep.Accounted (batch : Batch) (state : BatchState) (sweep : Sweep) : Prop where
  once : (sweep.waiting ++ sweep.ready).Nodup
  known : ∀ id ∈ sweep.waiting ++ sweep.ready, id ∈ batch.ids
  collected : ∀ id ∈ sweep.ready, id ∉ state.dispatched ∧ id ∉ state.finished

/-- Every task is in one place: queued, running, settled or counted. -/
structure Accounted (batch : Batch) (state : BatchState) : Prop where
  counted : state.finishedCount = state.finished.card
  finishedKnown : ∀ id ∈ state.finished, id ∈ batch.ids
  dispatchedKnown : ∀ id ∈ state.dispatched, id ∈ batch.ids
  placed : ∀ id ∈ state.dispatched,
    id ∈ state.readyTasks ∨ id ∈ state.running ∨ id ∈ state.settled ∨ id ∈ state.finished
  queueOnce : state.readyTasks.Nodup
  queued : ∀ id ∈ state.readyTasks, id ∈ state.dispatched ∧ id ∉ state.running ∧
    id ∉ state.settled ∧ id ∉ state.finished
  runs : ∀ id ∈ state.running, id ∈ state.dispatched ∧ id ∉ state.settled ∧ id ∉ state.finished
  settles : ∀ id ∈ state.settled, id ∈ state.dispatched ∧ id ∉ state.finished
  sweeping : ∀ sweep, state.sweep = some sweep → sweep.Accounted batch state

section

variable {batch : Batch} {accepted : String → Bool} {state : BatchState} {id : String}
  {worker : Bool}

section

variable (accounted : Accounted batch state)
include accounted

theorem Accounted.all_finished_iff :
    state.finishedCount = batch.totalToRun ↔ ∀ id ∈ batch.ids, id ∈ state.finished := by
  have subset : state.finished ⊆ batch.ids.toFinset := fun id member =>
    mem_toFinset.mpr (accounted.finishedKnown id member)
  have total : batch.ids.toFinset.card = batch.totalToRun := by
    have once : batch.ids.Nodup := batch.unique
    rw [toFinset_card_of_nodup once]
    exact length_map _
  constructor
  · intro full id listed
    have same : state.finished = batch.ids.toFinset := by
      refine eq_of_subset_of_card_le subset ?_
      rw [total, ← full, accounted.counted]
    rw [same]
    exact mem_toFinset.mpr listed
  · intro all
    have same : state.finished = batch.ids.toFinset :=
      Finset.Subset.antisymm subset fun id member => all id (mem_toFinset.mp member)
    rw [accounted.counted, same, total]

theorem Accounted.unchanged {next : BatchState}
    (board : next.toBoard = state.toBoard) (queue : next.readyTasks = state.readyTasks)
    (running : next.running = state.running) (settled : next.settled = state.settled)
    (sweep : next.sweep = state.sweep) : Accounted batch next := by
  cases state
  cases next
  subst board queue running settled sweep
  exact { accounted with
    sweeping := fun sweep isSweep => { accounted.sweeping sweep isSweep with } }

theorem Accounted.begun : Accounted batch { state with starting := false } :=
  accounted.unchanged rfl rfl rfl rfl rfl

theorem Accounted.charged : Accounted batch { state with followUps := state.followUps - 1 } :=
  accounted.unchanged rfl rfl rfl rfl rfl

theorem Accounted.cascaded {swept : Board}
    (free : state.sweep = none) (step : Cascaded batch state.toBoard swept) :
    Accounted batch { state with toBoard := swept } := by
  have unfinished {other : String} (member : other ∈ state.dispatched)
      (absent : other ∉ state.finished) : other ∉ swept.finished := fun late =>
    (step.fresh other late absent).2 member
  have same : swept.dispatched = state.dispatched := step.dispatched
  refine ⟨?_, ?_, ?_, ?_, accounted.queueOnce, ?_, ?_, ?_, ?_⟩
  · have counted := step.counted
    have before := accounted.counted
    simp only
    omega
  · intro id member
    by_cases early : id ∈ state.finished
    · exact accounted.finishedKnown id early
    · exact (step.fresh id member early).1
  · intro id member
    exact accounted.dispatchedKnown id (same ▸ member)
  · intro id member
    refine (accounted.placed id (same ▸ member)).imp_right (.imp_right (.imp_right fun early => ?_))
    exact step.grows early
  · intro id member
    obtain ⟨dispatched, notRunning, notSettled, absent⟩ := accounted.queued id member
    exact ⟨same.symm ▸ dispatched, notRunning, notSettled, unfinished dispatched absent⟩
  · intro id member
    obtain ⟨dispatched, notSettled, absent⟩ := accounted.runs id member
    exact ⟨same.symm ▸ dispatched, notSettled, unfinished dispatched absent⟩
  · intro id member
    obtain ⟨dispatched, absent⟩ := accounted.settles id member
    exact ⟨same.symm ▸ dispatched, unfinished dispatched absent⟩
  · intro sweep isSweep
    exact absurd (free.symm.trans isSweep) (by simp)

theorem Accounted.enterCheck (free : state.sweep = none) (worker : Bool) (order : List String)
    {visits : List String} (visitsAll : visits.Perm batch.ids) :
    Accounted batch (enterCheck batch worker order visits accepted state) := by
  obtain ⟨board, _, cascaded, ⟨_, shape⟩ | ⟨_, shape⟩⟩ :=
    enterCheck_cases batch worker order visits accepted state
  · have swept := accounted.cascaded free cascaded
    rw [shape]
    exact { swept with sweeping := fun sweep isSweep => absurd (free.symm.trans isSweep) (by simp) }
  · have swept := accounted.cascaded free cascaded
    rw [shape]
    refine { swept with sweeping := ?_ }
    intro sweep isSweep
    cases isSweep
    refine ⟨?_, ?_, by simp⟩
    · rw [append_nil]
      exact visitsAll.nodup_iff.mpr batch.unique
    · intro id member
      rw [append_nil] at member
      exact visitsAll.mem_iff.mp member

theorem Accounted.take {rest : List String} {idle : Nat} (queue : state.readyTasks = id :: rest) :
    Accounted batch
    { state with readyTasks := rest, idle, running := insert id state.running } := by
  have once := accounted.queueOnce
  rw [queue] at once
  obtain ⟨notQueued, restOnce⟩ := nodup_cons.mp once
  have head := accounted.queued id (queue ▸ mem_cons_self)
  refine
    { accounted with placed := ?_, queueOnce := restOnce, queued := ?_, runs := ?_, sweeping := ?_ }
  · intro other member
    rcases accounted.placed other member with queued | runs | later
    · rw [queue] at queued
      rcases mem_cons.mp queued with rfl | inRest
      · exact .inr (.inl (mem_insert_self _ _))
      · exact .inl inRest
    · exact .inr (.inl (mem_insert_of_mem runs))
    · exact .inr (.inr later)
  · intro other member
    have inQueue : other ∈ state.readyTasks := queue ▸ mem_cons_of_mem _ member
    obtain ⟨dispatched, notRunning, rest⟩ := accounted.queued other inQueue
    refine ⟨dispatched, ?_, rest⟩
    intro taken
    rcases mem_insert.mp taken with rfl | runs
    · exact notQueued member
    · exact notRunning runs
  · intro other member
    rcases mem_insert.mp member with rfl | runs
    · exact ⟨head.1, head.2.2⟩
    · exact accounted.runs other runs
  · intro sweep isSweep
    have sweeping := accounted.sweeping sweep isSweep
    exact { sweeping with }

theorem Accounted.settle (runs : id ∈ state.running)
    (status : TaskStatus) (isAccepted : Bool) :
    Accounted batch
      { state with
        toBoard := state.toBoard.setStatus id status isAccepted
        running := state.running.erase id
        settled := insert id state.settled } := by
  have own := accounted.runs id runs
  refine { accounted with placed := ?_, queued := ?_, runs := ?_, settles := ?_, sweeping := ?_ }
  · intro other member
    rcases accounted.placed other member with queued | isRunning | settled | finished
    · exact .inl queued
    · by_cases same : other = id
      · exact .inr (.inr (.inl (same ▸ mem_insert_self _ _)))
      · exact .inr (.inl (mem_erase.mpr ⟨same, isRunning⟩))
    · exact .inr (.inr (.inl (mem_insert_of_mem settled)))
    · exact .inr (.inr (.inr finished))
  · intro other member
    obtain ⟨dispatched, notRunning, notSettled, unfinished⟩ := accounted.queued other member
    refine ⟨dispatched, fun erased => notRunning (mem_of_mem_erase erased), ?_, unfinished⟩
    intro settled
    rcases mem_insert.mp settled with rfl | earlier
    · exact notRunning runs
    · exact notSettled earlier
  · intro other member
    obtain ⟨different, isRunning⟩ := mem_erase.mp member
    obtain ⟨dispatched, notSettled, unfinished⟩ := accounted.runs other isRunning
    refine ⟨dispatched, ?_, unfinished⟩
    intro settled
    rcases mem_insert.mp settled with same | earlier
    · exact different same
    · exact notSettled earlier
  · intro other member
    rcases mem_insert.mp member with rfl | earlier
    · exact ⟨own.1, own.2.2⟩
    · exact accounted.settles other earlier
  · intro sweep isSweep
    have sweeping := accounted.sweeping sweep isSweep
    exact { sweeping with }

end

@[simp]
theorem recordTask_finished : (recordTask batch state id).finished = insert id state.finished := by
  unfold recordTask
  simp only
  split <;> rfl

@[simp]
theorem recordTask_finishedCount :
    (recordTask batch state id).finishedCount = state.finishedCount + 1 := by
  unfold recordTask
  simp only
  split <;> rfl

@[simp]
theorem recordTask_settled : (recordTask batch state id).settled = state.settled.erase id := by
  unfold recordTask
  simp only
  split <;> rfl

@[simp]
theorem recordTask_status : (recordTask batch state id).status = state.status := by
  unfold recordTask
  simp only
  split <;> rfl

@[simp]
theorem recordTask_dispatched : (recordTask batch state id).dispatched = state.dispatched := by
  unfold recordTask
  simp only
  split <;> rfl

@[simp]
theorem recordTask_sweep : (recordTask batch state id).sweep = state.sweep := by
  unfold recordTask
  simp only
  split <;> rfl

theorem Accounted.record (accounted : Accounted batch state) (free : state.sweep = none)
    (settled : id ∈ state.settled) : Accounted batch (recordTask batch state id) := by
  obtain ⟨isDispatched, unfinished⟩ := accounted.settles id settled
  have stays {other : String} (different : id ≠ other) (absent : other ∉ state.finished) :
      other ∉ insert id state.finished :=
    fun late => absent (mem_of_mem_insert_of_ne late different.symm)
  have counted : Accounted batch
      { state with
        settled := state.settled.erase id
        finished := insert id state.finished
        finishedCount := state.finishedCount + 1 } := by
    refine ⟨?_, ?_, accounted.dispatchedKnown, ?_, accounted.queueOnce, ?_, ?_, ?_, ?_⟩
    · simp only
      rw [accounted.counted, card_insert_of_notMem unfinished]
    · intro other member
      rcases mem_insert.mp member with rfl | earlier
      · exact accounted.dispatchedKnown _ isDispatched
      · exact accounted.finishedKnown other earlier
    · intro other member
      rcases accounted.placed other member with queued | runs | settles | finished
      · exact .inl queued
      · exact .inr (.inl runs)
      · by_cases same : other = id
        · exact .inr (.inr (.inr (same ▸ mem_insert_self _ _)))
        · exact .inr (.inr (.inl (mem_erase.mpr ⟨same, settles⟩)))
      · exact .inr (.inr (.inr (mem_insert_of_mem finished)))
    · intro other member
      obtain ⟨dispatched, notRunning, notSettled, absent⟩ := accounted.queued other member
      exact ⟨dispatched, notRunning, fun erased => notSettled (mem_of_mem_erase erased),
        stays (ne_of_mem_of_not_mem settled notSettled) absent⟩
    · intro other member
      obtain ⟨dispatched, notSettled, absent⟩ := accounted.runs other member
      exact ⟨dispatched, fun erased => notSettled (mem_of_mem_erase erased),
        stays (ne_of_mem_of_not_mem settled notSettled) absent⟩
    · intro other member
      obtain ⟨different, settles⟩ := mem_erase.mp member
      obtain ⟨dispatched, absent⟩ := accounted.settles other settles
      exact ⟨dispatched, stays different.symm absent⟩
    · intro sweep isSweep
      exact absurd (free.symm.trans isSweep) (by simp)
  unfold recordTask
  simp only
  split <;>
    exact { counted with
      sweeping := fun sweep isSweep => absurd (free.symm.trans isSweep) (by simp) }

theorem collected_eq_true (isCollected : collected batch state.toBoard id) :
    ∃ node, batch.node? id = some node ∧ id ∉ state.dispatched ∧ id ∉ state.finished ∧
      isReady batch state.toBoard node := by
  unfold collected at isCollected
  split at isCollected
  · cases isCollected
  · next node found =>
    simp only [Bool.and_eq_true, decide_eq_true_eq] at isCollected
    exact ⟨node, found, isCollected.1.1, isCollected.1.2, isCollected.2⟩

theorem Accounted.visit {waiting ready : List String} (accounted : Accounted batch state)
    (isSweep : state.sweep = some { worker, waiting := id :: waiting, ready }) :
    Accounted batch
      { state with
        sweep := some
          { worker, waiting
            ready := if collected batch state.toBoard id then ready ++ [id] else ready } } := by
  have sweeping := accounted.sweeping _ isSweep
  refine { accounted with sweeping := ?_ }
  rintro sweep isNext
  cases isNext
  by_cases isCollected : collected batch state.toBoard id = true
  · have moved : waiting ++ (ready ++ [id]) ~ id :: waiting ++ ready := by
      rw [← append_assoc]
      exact perm_append_singleton id (waiting ++ ready)
    simp only [isCollected, if_true]
    refine ⟨moved.nodup_iff.mpr sweeping.once, ?_, ?_⟩
    · exact fun other member => sweeping.known other (moved.mem_iff.mp member)
    · intro other member
      rcases mem_append.mp member with earlier | last
      · exact sweeping.collected other earlier
      · obtain rfl := List.mem_singleton.mp last
        obtain ⟨_, _, undispatched, unfinished, _⟩ := collected_eq_true isCollected
        exact ⟨undispatched, unfinished⟩
  · simp only [Bool.not_eq_true] at isCollected
    simp only [isCollected, Bool.false_eq_true, if_false]
    refine ⟨(nodup_cons.mp sweeping.once).2, ?_, sweeping.collected⟩
    exact fun other member => sweeping.known other (mem_cons_of_mem _ member)

theorem Accounted.dispatch {ready : List String} (accounted : Accounted batch state)
    (isSweep : state.sweep = some { worker, waiting := [], ready }) (sends : Nat) :
    Accounted batch ({ state with
      dispatched := state.dispatched ∪ ready.toFinset
      readyTasks := state.readyTasks ++ ready.insertionSort (dispatchesBefore batch)
      sendsAfterClose := sends
      sweep := none }.resumeCaller worker) := by
  have sweeping := accounted.sweeping _ isSweep
  have sorted := perm_insertionSort (dispatchesBefore batch) ready
  have once : ready.Nodup := by simpa using sweeping.once
  have new {other : String} (member : other ∈ ready) :
      other ∉ state.dispatched ∧ other ∉ state.finished :=
    sweeping.collected other member
  refine ⟨accounted.counted, accounted.finishedKnown, ?_, ?_, ?_, ?_, ?_, ?_,
    by simp [BatchState.resumeCaller]⟩
  · intro other member
    rcases mem_union.mp member with earlier | isReady
    · exact accounted.dispatchedKnown other earlier
    · exact sweeping.known other (by simpa using isReady)
  · intro other member
    rcases mem_union.mp member with earlier | isReady
    · exact (accounted.placed other earlier).imp (fun queued => mem_append_left _ queued)
        fun later => later
    · exact .inl (mem_append_right _ (sorted.mem_iff.mpr (mem_toFinset.mp isReady)))
  · refine nodup_append'.mpr ⟨accounted.queueOnce, sorted.nodup_iff.mpr once, ?_⟩
    intro other queued isReady
    exact (new (sorted.mem_iff.mp isReady)).1 (accounted.queued other queued).1
  · intro other member
    rcases mem_append.mp member with queued | isReady
    · obtain ⟨dispatched, rest⟩ := accounted.queued other queued
      exact ⟨mem_union_left _ dispatched, rest⟩
    · have member := sorted.mem_iff.mp isReady
      obtain ⟨undispatched, unfinished⟩ := new member
      refine ⟨mem_union_right _ (mem_toFinset.mpr member), ?_, ?_, unfinished⟩
      · exact fun runs => undispatched (accounted.runs other runs).1
      · exact fun settles => undispatched (accounted.settles other settles).1
  · intro other member
    obtain ⟨dispatched, rest⟩ := accounted.runs other member
    exact ⟨mem_union_left _ dispatched, rest⟩
  · intro other member
    obtain ⟨dispatched, unfinished⟩ := accounted.settles other member
    exact ⟨mem_union_left _ dispatched, unfinished⟩

end

section

variable (batch : Batch) (state : BatchState)

/-- What a step of the pool can do. -/
inductive Moves : BatchAction → BatchState → Prop
  | begins {order visits : List String} {accepted : String → Bool}
      (isStarting : state.starting = true) (free : state.sweep = none)
      (orderAll : order.Perm batch.ids) (visitsAll : visits.Perm batch.ids) :
      Moves (.begin order visits accepted)
        (enterCheck batch false order visits accepted { state with starting := false })
  | takes {id : String} {rest : List String} {idle : Nat}
      (queue : state.readyTasks = id :: rest) :
      Moves .take { state with readyTasks := rest, idle, running := insert id state.running }
  | settles {id : String} {failed accepted : Bool} (runs : id ∈ state.running) :
      Moves (.settle id failed accepted)
        { state with
          toBoard := state.toBoard.setStatus id (if failed then .error else .done) accepted
          running := state.running.erase id
          settled := insert id state.settled }
  | records {id : String} (free : state.sweep = none) (settled : id ∈ state.settled) :
      Moves (.record id) (recordTask batch state id)
  | closes (owed : 0 < state.closers) :
      Moves .close
        { state with
          closers := state.closers - 1
          closes := state.closes + 1
          idle := state.idle + 1 }
  | checks {order visits : List String} {accepted : String → Bool} (owed : 0 < state.followUps)
      (free : state.sweep = none) (orderAll : order.Perm batch.ids)
      (visitsAll : visits.Perm batch.ids) :
      Moves (.check order visits accepted)
        (enterCheck batch true order visits accepted
          { state with followUps := state.followUps - 1 })
  | visits {worker : Bool} {id : String} {waiting ready : List String}
      (isSweep : state.sweep = some { worker, waiting := id :: waiting, ready }) :
      Moves .visit
        { state with
          sweep := some
            { worker, waiting
              ready := if collected batch state.toBoard id then ready ++ [id] else ready } }
  | dispatches {worker : Bool} {ready : List String}
      (isSweep : state.sweep = some { worker, waiting := [], ready }) :
      Moves .dispatch
        ({ state with
          dispatched := state.dispatched ∪ ready.toFinset
          readyTasks := state.readyTasks ++ ready.insertionSort (dispatchesBefore batch)
          sendsAfterClose :=
            state.sendsAfterClose + (if state.closes = 0 then 0 else ready.length)
          sweep := none }.resumeCaller worker)

end

variable {batch : Batch} {state next : BatchState} {action : BatchAction}
  {status : String → Option TaskStatus} {workers : Nat} {guard : BatchState → BatchAction → Prop}

theorem stepBatch_moves (taken : stepBatch batch state action = some next) :
    Moves batch state action next := by
  cases action with
  | begin order visits accepted =>
    obtain ⟨enabled, ⟨⟩⟩ := ite_none_right_eq_some.mp taken
    exact .begins enabled.1 enabled.2.1 enabled.2.2.1 enabled.2.2.2
  | take =>
    simp only [stepBatch] at taken
    split at taken
    · next queue _ =>
      cases taken
      exact .takes queue
    · cases taken
  | settle id failed accepted =>
    obtain ⟨runs, ⟨⟩⟩ := ite_none_right_eq_some.mp taken
    exact .settles runs
  | record id =>
    obtain ⟨enabled, ⟨⟩⟩ := ite_none_right_eq_some.mp taken
    exact .records enabled.1 enabled.2
  | close =>
    obtain ⟨owed, ⟨⟩⟩ := ite_none_right_eq_some.mp taken
    exact .closes owed
  | check order visits accepted =>
    obtain ⟨enabled, ⟨⟩⟩ := ite_none_right_eq_some.mp taken
    exact .checks enabled.1 enabled.2.1 enabled.2.2.1 enabled.2.2.2
  | visit =>
    simp only [stepBatch, visitNode] at taken
    split at taken
    · next isSweep =>
      cases taken
      exact .visits isSweep
    · cases taken
  | dispatch =>
    simp only [stepBatch, dispatchReady] at taken
    split at taken
    · next isSweep =>
      cases taken
      exact .dispatches isSweep
    · cases taken

theorem Accounted.moves (accounted : Accounted batch state)
    (step : Moves batch state action next) : Accounted batch next := by
  cases step with
  | begins _ free _ visitsAll =>
    exact accounted.begun.enterCheck free false _ visitsAll
  | takes queue => exact accounted.take queue
  | settles runs => exact accounted.settle runs _ _
  | records free settled => exact accounted.record free settled
  | closes _ => exact accounted.unchanged rfl rfl rfl rfl rfl
  | checks _ free _ visitsAll =>
    exact accounted.charged.enterCheck free true _ visitsAll
  | visits isSweep => exact accounted.visit isSweep
  | dispatches isSweep => exact accounted.dispatch isSweep _

theorem startBatch_accounted : Accounted batch (startBatch status workers) := by
  constructor <;> simp [startBatch]

theorem reachable_accounted
    (reachable : Reachable (stepBatch batch) guard (startBatch status workers) state) :
    Accounted batch state :=
  reachable.invariant startBatch_accounted
    fun accounted _ taken => accounted.moves (stepBatch_moves taken)

/-- What the moves keep holds along every run that meets the guard. -/
theorem batch_invariant (property : BatchState → Prop)
    (holds : property (startBatch status workers))
    (kept : ∀ {state next : BatchState} {action : BatchAction}, Accounted batch state →
      property state → guard state action → Moves batch state action next → property next)
    (reachable : Reachable (stepBatch batch) guard (startBatch status workers) state) :
    property state :=
  reachable.invariant_of reachable_accounted holds
    fun accounted known meets taken => kept accounted known meets (stepBatch_moves taken)

end OpenExec.Scheduler
