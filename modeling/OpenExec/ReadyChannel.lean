import OpenExec.BatchAccounting

/-!
# Closing the ready channel

Nothing is sent after a close on any run.  The channel is closed once on the
runs on which no worker still owes its follow-up check when the last task is
counted.
-/

namespace OpenExec.Scheduler

open Release GuardedRuns Finset

structure ChannelSafe (batch : Batch) (state : BatchState) : Prop where
  full : 0 < state.closes + state.closers → state.finishedCount = batch.totalToRun
  sweeping : state.sweep ≠ none → state.finishedCount ≠ batch.totalToRun
  unsent : state.sendsAfterClose = 0
  opening : state.starting = true → state.dispatched = ∅ ∧ state.closes = 0 ∧
    state.closers = 0 ∧ state.followUps = 0 ∧ state.sweep = none

/-- No worker owes a follow-up check once every task is counted. -/
def FollowedUpWhenFull (batch : Batch) (state : BatchState) (_ : BatchAction) : Prop :=
  state.finishedCount = batch.totalToRun → state.followUps = 0

instance (batch : Batch) (state : BatchState) (action : BatchAction) :
    Decidable (FollowedUpWhenFull batch state action) := by
  unfold FollowedUpWhenFull
  infer_instance

variable {batch : Batch} {state next : BatchState} {swept : Board} {action : BatchAction}
  {status : String → Option TaskStatus} {workers : Nat}

section

variable (accounted : Accounted batch state)
include accounted

theorem Accounted.full_of_cascaded
    (free : state.sweep = none) (cascaded : Cascaded batch state.toBoard swept)
    (full : state.finishedCount = batch.totalToRun) : swept.finishedCount = batch.totalToRun := by
  have all := accounted.all_finished_iff.mp full
  apply (accounted.cascaded free cascaded).all_finished_iff.mpr
  exact fun id listed => cascaded.grows (all id listed)

theorem Accounted.not_full_of_settled {id : String}
    (settled : id ∈ state.settled) : state.finishedCount ≠ batch.totalToRun := by
  intro full
  obtain ⟨dispatched, unfinished⟩ := accounted.settles id settled
  exact unfinished (accounted.all_finished_iff.mp full id (accounted.dispatchedKnown id dispatched))

theorem ChannelSafe.enterCheck (safe : ChannelSafe batch state)
    (free : state.sweep = none) (begun : state.starting = false) (worker : Bool)
    (order visits : List String) (accepted : String → Bool) :
    ChannelSafe batch (enterCheck batch worker order visits accepted state) := by
  obtain ⟨swept, _, cascaded, ⟨full, shape⟩ | ⟨notFull, shape⟩⟩ :=
    enterCheck_cases batch worker order visits accepted state
  · rw [shape]
    exact ⟨fun _ => full, fun sweeping => absurd free sweeping, safe.unsent,
      fun isStarting => absurd (begun.symm.trans isStarting) (by simp)⟩
  · have unclosed : ¬ 0 < state.closes + state.closers := fun closed =>
      notFull (accounted.full_of_cascaded free cascaded (safe.full closed))
    rw [shape]
    exact ⟨fun closed => absurd closed unclosed, fun _ => notFull, safe.unsent,
      fun isStarting => absurd (begun.symm.trans isStarting) (by simp)⟩

omit accounted in
theorem ChannelSafe.begun (safe : ChannelSafe batch state) {id : String}
    (dispatched : id ∈ state.dispatched) : ¬ state.starting := by
  intro isStarting
  rw [(safe.opening isStarting).1] at dispatched
  exact notMem_empty _ dispatched

theorem ChannelSafe.moves (safe : ChannelSafe batch state)
    (step : Moves batch state action next) : ChannelSafe batch next := by
  cases step with
  | begins isStarting free _ _ =>
    have kept : ChannelSafe batch { state with starting := false } :=
      { safe with opening := by simp }
    exact kept.enterCheck accounted.begun free rfl false _ _ _
  | @takes id rest idle queue =>
    have begun := safe.begun (accounted.queued id (queue ▸ List.mem_cons_self)).1
    exact { safe with opening := fun isStarting => absurd isStarting begun }
  | @settles id failed accepted runs =>
    have begun := safe.begun (accounted.runs id runs).1
    exact { safe with opening := fun isStarting => absurd isStarting begun }
  | @records id free settled =>
    have notFull := accounted.not_full_of_settled settled
    have unclosed : ¬ 0 < state.closes + state.closers := fun closed => notFull (safe.full closed)
    have begun := safe.begun (accounted.settles id settled).1
    unfold recordTask
    simp only
    split
    · next full =>
      exact ⟨fun _ => full, fun sweeping => absurd free sweeping, safe.unsent,
        fun isStarting => absurd isStarting begun⟩
    · exact ⟨fun closed => absurd closed unclosed, fun sweeping => absurd free sweeping,
        safe.unsent, fun isStarting => absurd isStarting begun⟩
  | closes owed =>
    refine ⟨fun _ => safe.full (by omega), safe.sweeping, safe.unsent, ?_⟩
    intro isStarting
    have none := (safe.opening isStarting).2.2.1
    omega
  | checks owed free _ _ =>
    have begun : state.starting = false := by
      rw [← Bool.not_eq_true]
      intro isStarting
      have none := (safe.opening isStarting).2.2.2.1
      omega
    have kept : ChannelSafe batch { state with followUps := state.followUps - 1 } :=
      { safe with opening := by simp [begun] }
    exact kept.enterCheck accounted.charged free begun true _ _ _
  | visits isSweep =>
    have sweeping := safe.sweeping (by simp [isSweep])
    refine ⟨safe.full, fun _ => sweeping, safe.unsent, ?_⟩
    intro isStarting
    exact absurd ((safe.opening isStarting).2.2.2.2.symm.trans isSweep) (by simp)
  | @dispatches worker ready isSweep =>
    have sweeping := safe.sweeping (by simp [isSweep])
    have unclosed : state.closes = 0 := by
      by_contra closed
      exact sweeping (safe.full (by omega))
    have begun : state.starting → False := fun isStarting =>
      absurd ((safe.opening isStarting).2.2.2.2.symm.trans isSweep) (by simp)
    have unsent : state.sendsAfterClose + (if state.closes = 0 then 0 else ready.length) = 0 := by
      rw [if_pos unclosed, safe.unsent]
    exact ⟨safe.full, by simp [BatchState.resumeCaller], unsent,
      fun isStarting => absurd isStarting begun⟩

end

theorem startBatch_channelSafe : ChannelSafe batch (startBatch status workers) :=
  ⟨by simp [startBatch], by simp [startBatch], rfl, by simp [startBatch]⟩

theorem closes_enterCheck_le (unclosed : state.closes + state.closers = 0) (worker : Bool)
    (order visits : List String) (accepted : String → Bool) :
    (enterCheck batch worker order visits accepted state).closes +
      (enterCheck batch worker order visits accepted state).closers ≤ 1 := by
  obtain ⟨swept, _, _, ⟨_, shape⟩ | ⟨_, shape⟩⟩ :=
    enterCheck_cases batch worker order visits accepted state
  · rw [shape]
    simp only [BatchState.resumeCaller]
    omega
  · rw [shape]
    simp only
    omega

theorem closed_once_moves (safe : ChannelSafe batch state)
    (meets : FollowedUpWhenFull batch state action) (step : Moves batch state action next)
    (notSettled : ∀ id ∈ state.settled, state.finishedCount ≠ batch.totalToRun)
    (once : state.closes + state.closers ≤ 1) : next.closes + next.closers ≤ 1 := by
  cases step with
  | begins isStarting _ _ _ =>
    obtain ⟨_, unclosed, noCloser, _⟩ := safe.opening isStarting
    exact closes_enterCheck_le (by simp [unclosed, noCloser]) _ _ _ _
  | takes _ | settles _ | visits _ | dispatches _ => exact once
  | @records id _ settled =>
    have notFull := notSettled id settled
    have unclosed : ¬ 0 < state.closes + state.closers := fun closed => notFull (safe.full closed)
    unfold recordTask
    simp only
    split
    · simp only
      omega
    · exact once
  | closes owed =>
    simp only
    omega
  | checks owed _ _ _ =>
    have notFull : state.finishedCount ≠ batch.totalToRun := fun full => by
      have none := meets full
      omega
    have unclosed : ¬ 0 < state.closes + state.closers := fun closed => notFull (safe.full closed)
    exact closes_enterCheck_le (by simp only; omega) _ _ _ _

/-- Along runs on which no worker owes a follow-up check once every task is
counted, the ready channel is closed at most once; nothing is sent after a
close. -/
theorem readyTasks_closed_once (batch : Batch) (status : String → Option TaskStatus)
    (workers : Nat) {state : BatchState}
    (reachable : Reachable (stepBatch batch) (FollowedUpWhenFull batch)
      (startBatch status workers) state) :
    state.closes ≤ 1 ∧ state.sendsAfterClose = 0 := by
  have once : ChannelSafe batch state ∧ state.closes + state.closers ≤ 1 := by
    refine batch_invariant (fun state => ChannelSafe batch state ∧ state.closes + state.closers ≤ 1)
      ⟨startBatch_channelSafe, by simp [startBatch]⟩ ?_ reachable
    rintro state next action accounted ⟨safe, once⟩ meets step
    refine ⟨safe.moves accounted step, closed_once_moves safe meets step ?_ once⟩
    exact fun id settled => accounted.not_full_of_settled settled
  exact ⟨by omega, once.1.unsent⟩

def twoTasks : Batch where
  pending := [{ id := "A" }, { id := "B" }]
  unique := by decide
  storyTasks := fun _ => []

def bothRun : List BatchAction :=
  [.begin ["A", "B"] ["A", "B"] (fun _ => true), .visit, .visit, .dispatch, .take, .take,
    .settle "A" false true, .settle "B" false true, .record "A"]

theorem readyTasks_closed_once_twoTasks :
    ∃ state, Reachable (stepBatch twoTasks) (FollowedUpWhenFull twoTasks)
        (startBatch allPending 2) state ∧ state.finishedCount = 2 ∧ state.closes ≤ 1 ∧
      state.sendsAfterClose = 0 := by
  refine exists_reached (fun state => state.finishedCount = 2)
    (bothRun ++ [.check ["A", "B"] ["A", "B"] (fun _ => true), .visit, .visit, .dispatch,
      .record "B", .close]) (by decide +kernel) ?_
  intro state reachable counted
  exact ⟨counted, readyTasks_closed_once twoTasks allPending 2 reachable⟩

/-- The first worker records before the second and checks after it: both close
the channel. -/
theorem readyTasks_closed_twice :
    ∃ state, Reachable (stepBatch twoTasks) anyStep (startBatch allPending 2) state ∧
      state.closes = 2 :=
  exists_reached _ (bothRun ++ [.record "B", .close, .check ["A", "B"] ["A", "B"] (fun _ => true)])
    (by decide +kernel) fun _ closed => closed

/-- Run, or counted without being run. -/
def HasRun (id : String) (state : BatchState) : Prop :=
  id ∈ state.settled ∨ id ∈ state.finished

variable {batch : Batch} {state next later : BatchState} {action : BatchAction} {id : String}

theorem HasRun.enterCheck {worker : Bool} {order visits : List String} {accepted : String → Bool}
    (hasRun : HasRun id state) :
    HasRun id (enterCheck batch worker order visits accepted state) := by
  obtain ⟨swept, _, cascaded, ⟨_, entered⟩ | ⟨_, entered⟩⟩ :=
    enterCheck_cases batch worker order visits accepted state
  all_goals
    rw [entered]
    exact hasRun.imp_right fun earlier => cascaded.grows earlier

theorem HasRun.moves (hasRun : HasRun id state) (step : Moves batch state action next) :
    HasRun id next := by
  cases step with
  | begins | checks => exact HasRun.enterCheck hasRun
  | takes | closes | visits | dispatches => exact hasRun
  | settles => exact hasRun.imp_left mem_insert_of_mem
  | @records other =>
    unfold HasRun
    rw [recordTask_settled, recordTask_finished]
    by_cases same : id = other
    · exact .inr (same ▸ mem_insert_self _ _)
    · exact hasRun.imp (fun settled => mem_erase.mpr ⟨same, settled⟩) mem_insert_of_mem

/-- Whatever the workers do from then on, a task that was run is neither sent nor run again. -/
theorem task_is_run_once {status : String → Option TaskStatus} {workers : Nat}
    (reachable : Reachable (stepBatch batch) anyStep (startBatch status workers) state)
    (onwards : Reachable (stepBatch batch) anyStep state later) (hasRun : HasRun id state) :
    HasRun id later ∧ id ∉ later.readyTasks ∧ id ∉ later.running := by
  have still : HasRun id later :=
    onwards.invariant hasRun fun earlier _ taken => earlier.moves (stepBatch_moves taken)
  have accounted : Accounted batch later := onwards.invariant (reachable_accounted reachable)
    fun earlier _ taken => earlier.moves (stepBatch_moves taken)
  refine ⟨still, fun queued => ?_, fun runs => ?_⟩
  · obtain ⟨_, _, unsettled, unfinished⟩ := accounted.queued id queued
    exact still.elim unsettled unfinished
  · obtain ⟨_, unsettled, unfinished⟩ := accounted.runs id runs
    exact still.elim unsettled unfinished

theorem task_is_run_once_bothRun :
    ∃ state, Reachable (stepBatch twoTasks) anyStep (startBatch allPending 2) state ∧
      ∃ later, Reachable (stepBatch twoTasks) anyStep state later ∧
        HasRun "A" state ∧ "B" ∈ later.finished ∧ "A" ∉ later.readyTasks := by
  refine exists_reached (fun state => "A" ∈ state.finished ∧
    (run (stepBatch twoTasks) anyStep state [.record "B"]).any fun later => "B" ∈ later.finished)
    bothRun (by decide +kernel) ?_
  rintro state reachable ⟨finished, records⟩
  refine exists_reached (fun later => "B" ∈ later.finished) _ records ?_
  intro later onwards recorded
  exact ⟨.inr finished, recorded, (task_is_run_once reachable onwards (.inr finished)).2.1⟩

end OpenExec.Scheduler
