import OpenExec.GuardedRuns
import OpenExec.ReleaseLedger
import Mathlib.Data.Finset.Card
import Mathlib.Data.List.Sort
import Mathlib.Data.List.Perm.Basic

/-!
# The batch scheduler

The worker pool of `ExecuteTasks` in `pkg/manager/scheduler.go`.  One mutex
guards the nodes, the finished count and the whole of `checkReady`; starting and
running a task, writing its status and closing the channel after the last
record happen outside it.  A worker carries nothing but the task it holds, so
the pool is kept as the tasks at each point of the worker's loop.
-/

namespace OpenExec.Scheduler

open Release KeyedRows

structure BatchTask where
  id : String
  deps : List String := []
  storyDeps : List String := []

structure Batch where
  pending : List BatchTask
  unique : (pending.map BatchTask.id).Nodup
  storyTasks : String → List String
  resumable : String → Bool := fun _ => false

variable (batch : Batch)

def Batch.ids : List String :=
  batch.pending.map BatchTask.id

def Batch.node? (id : String) : Option BatchTask :=
  row? BatchTask.id batch.pending id

def Batch.totalToRun : Nat :=
  batch.pending.length

structure Sweep where
  worker : Bool
  waiting : List String
  ready : List String := []

structure Board where
  status : String → Option TaskStatus
  dispatched : Finset String := ∅
  finished : Finset String := ∅
  finishedCount : Nat := 0

structure BatchState extends Board where
  readyTasks : List String := []
  closes : Nat := 0
  sendsAfterClose : Nat := 0
  starting : Bool := true
  sweep : Option Sweep := none
  idle : Nat
  running : Finset String := ∅
  settled : Finset String := ∅
  followUps : Nat := 0
  closers : Nat := 0

inductive BatchAction
  | begin (order visits : List String) (accepted : String → Bool)
  | take
  | settle (id : String) (failed accepted : Bool)
  | record (id : String)
  | close
  | check (order visits : List String) (accepted : String → Bool)
  | visit
  | dispatch

def completed : Option TaskStatus → Bool
  | some .done | some .approved => true
  | _ => false

/-- `SetTaskStatus`, whose error the scheduler drops. -/
def Board.setStatus (board : Board) (id : String) (status : TaskStatus) (accepted : Bool) :
    Board :=
  { board with
    status := if accepted then Function.update board.status id (some status) else board.status }

/-- The caller of `checkReady` goes on: a worker returns to the channel. -/
def BatchState.resumeCaller (state : BatchState) (worker : Bool) : BatchState :=
  { state with idle := if worker then state.idle + 1 else state.idle }

variable (batch : Batch) (board : Board)

def isStoryFinished (storyID : String) : Bool :=
  (batch.storyTasks storyID).all fun id => completed (board.status id)

def dependencyFailed (node : BatchTask) : Bool :=
  node.deps.any fun dep =>
    dep ∈ batch.ids && dep ∈ board.finished && board.status dep = some .error

def cascadeNode (accepted : String → Bool) (board : Board) (id : String) : Board :=
  match batch.node? id with
  | none => board
  | some node =>
    if id ∈ board.dispatched ∨ id ∈ board.finished then board
    else if dependencyFailed batch board node then
      { board with
        finished := insert id board.finished
        finishedCount := board.finishedCount + 1 }.setStatus id .error (accepted id)
    else board

def cascade (accepted : String → Bool) (order : List String) (board : Board) : Board :=
  order.foldl (cascadeNode batch accepted) board

/-- Take the mutex, run the first pass and close the channel if that finished
the batch. -/
def enterCheck (worker : Bool) (order visits : List String) (accepted : String → Bool)
    (state : BatchState) : BatchState :=
  let swept := cascade batch accepted order state.toBoard
  if swept.finishedCount = batch.totalToRun then
    { state with toBoard := swept, closes := state.closes + 1 }.resumeCaller worker
  else { state with toBoard := swept, sweep := some { worker, waiting := visits } }

def isReady (node : BatchTask) : Bool :=
  (node.deps.all fun dep =>
    if dep ∈ batch.ids then decide (dep ∈ board.finished) else completed (board.status dep)) &&
    node.storyDeps.all fun storyID => isStoryFinished batch board storyID

def collected (id : String) : Bool :=
  match batch.node? id with
  | none => false
  | some node => id ∉ board.dispatched && id ∉ board.finished && isReady batch board node

variable (state : BatchState)

def visitNode : Option BatchState :=
  match state.sweep with
  | some { worker, waiting := id :: waiting, ready } =>
    some
      { state with
        sweep := some
          { worker, waiting
            ready := if collected batch state.toBoard id then ready ++ [id] else ready } }
  | _ => none

/-- Interrupted tasks first, then by identifier. -/
def dispatchesBefore (first second : String) : Prop :=
  if batch.resumable first = batch.resumable second then first ≤ second
  else batch.resumable first = true

instance (first second : String) : Decidable (dispatchesBefore batch first second) := by
  unfold dispatchesBefore
  infer_instance

def dispatchReady : Option BatchState :=
  match state.sweep with
  | some { worker, waiting := [], ready } =>
    some ({ state with
      dispatched := state.dispatched ∪ ready.toFinset
      readyTasks := state.readyTasks ++ ready.insertionSort (dispatchesBefore batch)
      sendsAfterClose := state.sendsAfterClose + (if state.closes = 0 then 0 else ready.length)
      sweep := none }.resumeCaller worker)
  | _ => none

/-- Count the task under the mutex; the last one closes the channel, any other
is followed by a `checkReady`. -/
def recordTask (id : String) : BatchState :=
  let counted :=
    { state with
      settled := state.settled.erase id
      finished := insert id state.finished
      finishedCount := state.finishedCount + 1 }
  if counted.finishedCount = batch.totalToRun then { counted with closers := counted.closers + 1 }
  else { counted with followUps := counted.followUps + 1 }

def stepBatch : BatchAction → Option BatchState
  | .begin order visits accepted =>
    if state.starting ∧ state.sweep = none ∧ order.Perm batch.ids ∧ visits.Perm batch.ids then
      some (enterCheck batch false order visits accepted { state with starting := false })
    else none
  | .take =>
    match state.readyTasks, state.idle with
    | id :: rest, idle + 1 =>
      some { state with readyTasks := rest, idle, running := insert id state.running }
    | _, _ => none
  | .settle id failed accepted =>
    if id ∈ state.running then
      some
        { state with
          toBoard := state.toBoard.setStatus id (if failed then .error else .done) accepted
          running := state.running.erase id
          settled := insert id state.settled }
    else none
  | .record id =>
    if state.sweep = none ∧ id ∈ state.settled then some (recordTask batch state id) else none
  | .close =>
    if 0 < state.closers then
      some
        { state with
          closers := state.closers - 1
          closes := state.closes + 1
          idle := state.idle + 1 }
    else none
  | .check order visits accepted =>
    if 0 < state.followUps ∧ state.sweep = none ∧ order.Perm batch.ids ∧
        visits.Perm batch.ids then
      some (enterCheck batch true order visits accepted
        { state with followUps := state.followUps - 1 })
    else none
  | .visit => visitNode batch state
  | .dispatch => dispatchReady batch state

def startBatch (status : String → Option TaskStatus) (workers : Nat) : BatchState where
  status := status
  idle := workers

def allPending (_ : String) : Option TaskStatus := some .pending

end OpenExec.Scheduler
