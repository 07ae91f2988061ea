import Mathlib.Data.List.Nodup
import OpenExec.GuardedRuns

/-!
# Asynchronous writes of the state store

`WriteAsync` reads the closed flag, counts itself in the wait group and sends to the
queue in three steps.
-/

namespace OpenExec.StateStore

open GuardedRuns List

def maxAsyncQueueSize : Nat := 1000

inductive CloseStage
  | notCalled | flagged | queueClosed | waited (timedOut : Bool) | databaseClosed (timedOut : Bool)
  deriving DecidableEq

inductive Worker
  | idle | taken (write : Nat) | executed
  deriving DecidableEq

/-- Writes are numbered as their calls arrive.  `checked`, `counted` and `full` are
the calls past the flag, past the count and past a refused send; `queued`,
`executed`, `dropped` and `refused` record what became of the others. -/
structure AsyncStore where
  asyncQueue : List Nat := []
  asyncWg : Int := 0
  asyncDropped : Nat := 0
  close : CloseStage := .notCalled
  worker : Worker := .idle
  panicked : Bool := false
  checked : List Nat := []
  counted : List Nat := []
  full : List Nat := []
  arrived : Nat := 0
  queued : List Nat := []
  executed : List Nat := []
  dropped : List Nat := []
  refused : List Nat := []

inductive AsyncAction
  | call | add (write : Nat) | send (write : Nat) | drop (write : Nat)
  | take | execute | done
  | flag | closeQueue | flush | timeout | closeDatabase
  deriving DecidableEq

namespace AsyncStore

variable {store next : AsyncStore} {action : AsyncAction}

def queueIsClosed (store : AsyncStore) : Bool :=
  store.close ≠ .notCalled && store.close ≠ .flagged

/-- The select of `WriteAsync`: a send on a closed channel panics, full or not. -/
def send (store : AsyncStore) (write : Nat) : AsyncStore :=
  let sent := { store with counted := store.counted.erase write }
  if store.queueIsClosed then { sent with panicked := true }
  else if store.asyncQueue.length < maxAsyncQueueSize then
    { sent with asyncQueue := store.asyncQueue ++ [write], queued := store.queued ++ [write] }
  else { sent with full := write :: store.full }

def stepWrite (store : AsyncStore) : AsyncAction → Option AsyncStore
  | .call =>
    let arrived := { store with arrived := store.arrived + 1 }
    some <| if store.close ≠ .notCalled
      then { arrived with refused := store.refused ++ [store.arrived] }
      else { arrived with checked := store.arrived :: store.checked }
  | .add write =>
    if write ∈ store.checked then
      some { store with
        checked := store.checked.erase write
        counted := write :: store.counted
        asyncWg := store.asyncWg + 1 }
    else none
  | .send write => if write ∈ store.counted then some (store.send write) else none
  | .drop write =>
    if write ∈ store.full then
      some { store with
        full := store.full.erase write
        asyncWg := store.asyncWg - 1
        asyncDropped := store.asyncDropped + 1
        dropped := store.dropped ++ [write] }
    else none
  | .take =>
    match store.worker, store.asyncQueue with
    | .idle, write :: rest => some { store with worker := .taken write, asyncQueue := rest }
    | _, _ => none
  | .execute =>
    match store.worker with
    | .taken write => some { store with worker := .executed, executed := store.executed ++ [write] }
    | _ => none
  | .done =>
    if store.worker = .executed then
      some { store with worker := .idle, asyncWg := store.asyncWg - 1 }
    else none
  | .flag => if store.close = .notCalled then some { store with close := .flagged } else none
  | .closeQueue => if store.close = .flagged then
      some { store with close := .queueClosed } else none
  | .flush =>
    if store.close = .queueClosed ∧ store.asyncWg = 0 then
      some { store with close := .waited false }
    else none
  | .timeout => if store.close = .queueClosed then
      some { store with close := .waited true } else none
  | .closeDatabase =>
    match store.close with
    | .waited timedOut => some { store with close := .databaseClosed timedOut }
    | _ => none

/-- A panic ends the process. -/
def step (store : AsyncStore) (action : AsyncAction) : Option AsyncStore :=
  if store.panicked then none else store.stepWrite action

/-- The queue is closed only when no call stands between the flag and its send. -/
def ClosesAlone (store : AsyncStore) (action : AsyncAction) : Prop :=
  action = .closeQueue → store.checked = [] ∧ store.counted = []

instance : Decidable (ClosesAlone store action) :=
  inferInstanceAs (Decidable (_ → _))

def Worker.pending : Worker → List Nat
  | .taken write => [write]
  | _ => []

def Worker.owed : Worker → Nat
  | .idle => 0
  | _ => 1

/-- Every write is in one place, the wait group counts what is owed a `Done`, and
nothing is on its way to a closed queue. -/
structure Sound (store : AsyncStore) : Prop where
  running : store.panicked = false
  counts : store.asyncWg = store.counted.length + store.full.length + store.asyncQueue.length +
    Worker.owed store.worker
  ordered : store.queued = store.executed ++ Worker.pending store.worker ++ store.asyncQueue
  drops : store.asyncDropped = store.dropped.length
  placed : ∀ write, store.checked.count write + store.counted.count write +
    store.full.count write + store.queued.count write + store.dropped.count write +
    store.refused.count write = if write < store.arrived then 1 else 0
  quiet : store.queueIsClosed → store.checked = [] ∧ store.counted = []
  flushed : store.close = .waited false ∨ store.close = .databaseClosed false →
    store.asyncQueue = [] ∧ Worker.pending store.worker = []

theorem Sound.initial : Sound {} where
  running := rfl
  counts := rfl
  ordered := rfl
  drops := rfl
  placed := by simp
  quiet := by simp [queueIsClosed]
  flushed := by simp

theorem count_of_mem {list : List Nat} {write : Nat} (member : write ∈ list) (other : Nat) :
    list.count other = (list.erase write).count other + if write = other then 1 else 0 := by
  rw [(perm_cons_erase member).count_eq, count_cons]
  simp

theorem Sound.send_open (sound : store.Sound) {write : Nat} (counted : write ∈ store.counted) :
    store.queueIsClosed = false := by
  by_contra closed
  have none := (sound.quiet (by simpa using closed)).2
  simp [none] at counted

theorem Sound.flush_drained (sound : store.Sound) (zero : store.asyncWg = 0) :
    store.asyncQueue = [] ∧ Worker.owed store.worker = 0 := by
  have counts := sound.counts
  constructor
  · apply eq_nil_of_length_eq_zero
    omega
  · omega

theorem Sound.step (sound : store.Sound) (meets : store.ClosesAlone action)
    (taken : store.step action = some next) : next.Sound := by
  unfold AsyncStore.step at taken
  rw [if_neg (by simp [sound.running])] at taken
  have sends := @sound.send_open
  have drains := sound.flush_drained
  obtain ⟨running, counts, ordered, drops, placed, quiet, flushed⟩ := sound
  cases action with
  | closeQueue =>
    obtain ⟨_, ⟨⟩⟩ := Option.ite_none_right_eq_some.mp taken
    exact ⟨running, counts, ordered, drops, placed, fun _ => meets rfl, by simp⟩
  | flush =>
    obtain ⟨waits, ⟨⟩⟩ := Option.ite_none_right_eq_some.mp taken
    have closed : store.queueIsClosed := by simp [queueIsClosed, waits.1]
    obtain ⟨empty, idle⟩ := drains waits.2
    refine ⟨running, counts, ordered, drops, placed, fun _ => quiet closed, fun _ => ⟨empty, ?_⟩⟩
    cases worker : store.worker <;> simp_all [Worker.owed, Worker.pending]
  | send write =>
    simp only [stepWrite, AsyncStore.send] at taken
    constructor <;> grind -ring -linarith [count_of_mem, queueIsClosed]
  | _ =>
    simp only [stepWrite] at taken
    constructor <;> grind -ring -linarith [count_of_mem, queueIsClosed, Worker.owed, Worker.pending]

theorem reachable_sound (reachable : Reachable step ClosesAlone {} store) : store.Sound :=
  reachable.invariant .initial Sound.step

theorem write_async_and_close (reachable : Reachable step ClosesAlone {} store) :
    store.panicked = false ∧ 0 ≤ store.asyncWg ∧
      store.executed <+: store.queued ∧ store.queued.Nodup ∧
      (store.close = .databaseClosed false → store.executed = store.queued) ∧
      (∀ write < store.arrived, write ∈ store.checked ∨ write ∈ store.counted ∨
        write ∈ store.full ∨ write ∈ store.queued ∨ write ∈ store.dropped ∨ write ∈ store.refused) ∧
      store.asyncDropped = store.dropped.length ∧ (∀ write ∈ store.dropped, write ∉ store.queued) ∧
      (∀ write ∈ store.refused, write ∉ store.queued ∧ write ∉ store.dropped) ∧
      (store.close ≠ .notCalled → store.step .call = some { store with
        arrived := store.arrived + 1, refused := store.refused ++ [store.arrived] }) := by
  have sound := reachable_sound reachable
  have once : ∀ write, store.queued.count write + store.dropped.count write +
      store.refused.count write ≤ 1 := by
    intro write
    have placed := sound.placed write
    split at placed <;> omega
  refine ⟨sound.running, ?_, ?_, ?_, ?_, ?_, sound.drops, ?_, ?_, ?_⟩
  · rw [sound.counts]
    omega
  · rw [sound.ordered, append_assoc]
    exact prefix_append _ _
  · rw [nodup_iff_count_le_one]
    intro write
    have := once write
    omega
  · intro closed
    obtain ⟨empty, idle⟩ := sound.flushed (.inr closed)
    rw [sound.ordered, empty, idle, append_nil, append_nil]
  · intro write arrived
    have placed := sound.placed write
    rw [if_pos arrived] at placed
    by_contra lost
    simp only [not_or, ← count_eq_zero] at lost
    omega
  · intro write dropped
    have := once write
    have := count_pos_iff.mpr dropped
    rw [← count_eq_zero]
    omega
  · intro write refused
    have := once write
    have := count_pos_iff.mpr refused
    rw [← count_eq_zero, ← count_eq_zero]
    omega
  · intro begun
    simp [step, stepWrite, sound.running, begun]

theorem write_async_and_close_flushed : ∃ store : AsyncStore, store.queued = [0] ∧
    store.refused = [1] ∧ store.close = .databaseClosed false ∧ store.executed = store.queued := by
  have runs : run step ClosesAlone {} [.call, .add 0, .send 0, .flag, .closeQueue, .call, .take,
    .execute, .done, .flush, .closeDatabase] = some _ := rfl
  exact ⟨_, rfl, rfl, rfl, (write_async_and_close (reachable_of_run runs)).2.2.2.2.1 rfl⟩

/-- The queue is closed between the flag a call has read and its send. -/
theorem send_on_closed_queue : ∃ store,
    run step anyStep {} [.call, .flag, .closeQueue, .add 0, .send 0] = some store ∧
      store.panicked :=
  ⟨_, rfl, rfl⟩

end AsyncStore

end OpenExec.StateStore
