import Mathlib.Tactic.ByContra
import OpenExec.PipelineAttempt

/-!
# Cancellation is final

A recorded cancellation keeps the attempt stopped in every interleaving.  The
recorded cause itself stays as long as no parent cancels the context between the
check and the cancellation of a stop, and no event brings a cause of its own.
-/

namespace OpenExec.PipelineAttempt

open GuardedRuns Option

variable {now : Int} {evidence : String} {err : Option String}

def Attempt.recorded (attempt : Attempt) : String := attempt.info.cancellationCause

theorem cancellationCause_ne_empty (cause : ContextCause) : cancellationCause cause ≠ "" := by
  cases cause <;> simp [cancellationCause]

theorem StopCause.error_ne_empty (stop : StopCause) : stop.error ≠ "" := by
  cases stop <;> simp [StopCause.error]

theorem StopCause.cancellationCause_contextCause (stop : StopCause) :
    cancellationCause stop.contextCause = stop.error := by
  cases stop <;> rfl

theorem exists_other_cause (text : String) : ∃ cause, cancellationCause cause ≠ text := by
  by_cases isTimeout : text = "timeout"
  · exact ⟨.ownerStop, by simp [cancellationCause, isTimeout]⟩
  · exact ⟨.deadlineExceeded, fun same => isTimeout same.symm⟩

section

variable {info : PipelineInfo} {event : Event} {attempt : Attempt}

theorem applyEvent_cancellationCause :
    (applyEvent info event).cancellationCause = info.cancellationCause := by
  unfold applyEvent
  split <;> try rfl
  split <;> rfl

@[simp] theorem received_cancellationCause :
    (info.received event now).cancellationCause = info.cancellationCause := by
  unfold PipelineInfo.received
  split <;> rfl

@[simp] theorem received_status : (info.received event now).status = info.status := by
  unfold PipelineInfo.received
  split <;> rfl

theorem updateInfo_cancellationCause :
    (updateInfo info event now).cancellationCause =
      if event.cancellationCause ≠ "" then event.cancellationCause else info.cancellationCause := by
  unfold updateInfo
  simp only
  by_cases cancels : event.cancellationCause ≠ ""
  · have recorded : ((info.received event now).cancelled
        event.cancellationCause).cancellationCause ≠ "" := cancels
    rw [if_pos cancels, if_pos recorded, if_pos cancels]
    rfl
  · rw [if_neg cancels, if_neg cancels]
    split
    · exact received_cancellationCause
    · rw [applyEvent_cancellationCause, received_cancellationCause]

theorem updateInfo_status (stopped : info.cancellationCause ≠ "" → info.status = .stopped)
    (cancelled : (updateInfo info event now).cancellationCause ≠ "") :
    (updateInfo info event now).status = .stopped := by
  rw [updateInfo_cancellationCause] at cancelled
  unfold updateInfo
  simp only
  by_cases cancels : event.cancellationCause ≠ ""
  · have recorded : ((info.received event now).cancelled
        event.cancellationCause).cancellationCause ≠ "" := cancels
    rw [if_pos cancels, if_pos recorded]
    rfl
  · rw [if_neg cancels] at cancelled
    rw [if_neg cancels, received_cancellationCause, if_pos cancelled, received_status]
    exact stopped cancelled

theorem ingest_recorded : (ingest attempt event evidence now).recorded =
      match attempt.context with
      | some cause => cancellationCause cause
      | none => if event.cancellationCause ≠ "" then event.cancellationCause
          else attempt.recorded := by
  unfold ingest Attempt.recorded
  simp only [apply_ite PipelineInfo.cancellationCause, ite_self]
  rw [updateInfo_cancellationCause]
  cases attempt.context with
  | none => rfl
  | some cause => exact if_pos (cancellationCause_ne_empty cause)

theorem settle_recorded : (settle attempt err).recorded =
      match attempt.context with
      | some cause => cancellationCause cause
      | none => attempt.recorded := by
  unfold settle Attempt.recorded
  cases attempt.context with
  | some cause => rfl
  | none =>
    cases err with
    | none => rfl
    | some text =>
      simp only
      split <;> rfl

end

def CancelledStopped (attempt : Attempt) : Prop :=
  attempt.recorded ≠ "" → attempt.info.status = .stopped

section

variable {attempt next start later : Attempt} {action : AttemptAction}
  {guard : Attempt → AttemptAction → Prop}

section

variable (holds : CancelledStopped attempt)
include holds

theorem ingest_cancelledStopped {event : Event} :
    CancelledStopped (ingest attempt event evidence now) := by
  intro cancelled
  unfold ingest at cancelled ⊢
  simp only [Attempt.recorded, apply_ite PipelineInfo.status, ite_self] at cancelled ⊢
  refine updateInfo_status holds ?_
  split at cancelled
  · exact cancelled
  · exact cancelled

theorem CancelledStopped.terminal
    (cancelled : attempt.recorded ≠ "") : isTerminal attempt.info.status := by
  rw [holds cancelled]
  rfl

theorem settle_cancelledStopped : CancelledStopped (settle attempt err) := by
  intro cancelled
  rw [settle_recorded] at cancelled
  unfold settle
  cases isContext : attempt.context with
  | some cause => rfl
  | none =>
    rw [isContext] at cancelled
    cases err with
    | none => exact holds cancelled
    | some text =>
      simp only
      rw [if_pos (holds.terminal cancelled)]
      exact holds cancelled

theorem stepAttempt_cancelledStopped
    (taken : stepAttempt attempt action = some next) : CancelledStopped next := by
  cases action with
  | ingest event evidence now =>
    obtain ⟨_, ⟨⟩⟩ := ite_none_right_eq_some.mp taken
    exact ingest_cancelledStopped holds
  | beginStop cause stallThreshold now =>
    obtain ⟨_, ⟨⟩⟩ := ite_none_right_eq_some.mp taken
    unfold beginStop
    split
    · exact holds
    · split
      · exact holds
      · split
        · exact holds
        · exact fun _ => rfl
  | endStop =>
    obtain ⟨cause, _, rfl⟩ := map_eq_some_iff.mp taken
    exact holds
  | pause =>
    obtain ⟨_, ⟨⟩⟩ := ite_none_right_eq_some.mp taken
    unfold pause
    split
    · exact holds
    · next running => exact fun cancelled => absurd (holds.terminal cancelled) running
  | cancelParent cause =>
    cases taken
    exact holds
  | settle err =>
    obtain ⟨_, ⟨⟩⟩ := ite_none_right_eq_some.mp taken
    exact settle_cancelledStopped holds
  | release =>
    obtain ⟨_, ⟨⟩⟩ := ite_none_right_eq_some.mp taken
    exact holds

end

theorem stepAttempt_recorded (taken : stepAttempt attempt action = some next) :
    next.recorded = attempt.recorded ∨ (attempt.settled = false ∧
        ∃ cause, attempt.context = some cause ∧ next.recorded = cancellationCause cause) ∨
      (∃ event evidence now, action = .ingest event evidence now ∧ attempt.context = none ∧
        event.cancellationCause ≠ "" ∧ next.recorded = event.cancellationCause) ∨
      isTerminal attempt.info.status = false ∧ next.recorded ≠ "" := by
  cases action with
  | ingest event evidence now =>
    obtain ⟨⟨_, unsettled⟩, ⟨⟩⟩ := ite_none_right_eq_some.mp taken
    rw [ingest_recorded]
    cases isContext : attempt.context with
    | some cause => exact .inr (.inl ⟨unsettled, cause, rfl, rfl⟩)
    | none =>
      by_cases cancels : event.cancellationCause ≠ ""
      · refine .inr (.inr (.inl ⟨event, evidence, now, rfl, rfl, cancels, ?_⟩))
        exact if_pos cancels
      · exact .inl (if_neg cancels)
  | beginStop cause stallThreshold now =>
    obtain ⟨_, ⟨⟩⟩ := ite_none_right_eq_some.mp taken
    unfold beginStop
    split
    · exact .inl rfl
    · next running =>
      split
      · exact .inl rfl
      · split
        · exact .inl rfl
        · exact .inr (.inr (.inr ⟨by simpa using running, cause.error_ne_empty⟩))
  | endStop =>
    obtain ⟨cause, _, rfl⟩ := map_eq_some_iff.mp taken
    exact .inl rfl
  | pause =>
    obtain ⟨_, ⟨⟩⟩ := ite_none_right_eq_some.mp taken
    unfold pause
    split <;> exact .inl rfl
  | cancelParent cause =>
    cases taken
    exact .inl rfl
  | settle err =>
    obtain ⟨⟨_, unsettled⟩, ⟨⟩⟩ := ite_none_right_eq_some.mp taken
    rw [settle_recorded]
    cases isContext : attempt.context with
    | some cause => exact .inr (.inl ⟨unsettled, cause, rfl, rfl⟩)
    | none => exact .inl rfl
  | release =>
    obtain ⟨_, ⟨⟩⟩ := ite_none_right_eq_some.mp taken
    exact .inl rfl

theorem reachable_cancelledStopped (holds : CancelledStopped start)
    (reachable : Reachable stepAttempt guard start attempt) : CancelledStopped attempt :=
  reachable.invariant holds fun holds _ taken => stepAttempt_cancelledStopped holds taken

theorem reachable_cancelled (cancelled : start.recorded ≠ "")
    (reachable : Reachable stepAttempt guard start later) : later.recorded ≠ "" := by
  refine @Reachable.invariant _ _ stepAttempt guard start (fun state => state.recorded ≠ "")
    cancelled ?_ later reachable
  intro state action next recorded _ taken
  rcases stepAttempt_recorded taken with same | ⟨_, cause, _, written⟩ |
    ⟨_, _, _, _, _, cancels, written⟩ | ⟨_, written⟩
  · rw [same]
    exact recorded
  · rw [written]
    exact cancellationCause_ne_empty cause
  · rw [written]
    exact cancels
  · exact written

end

/-- No event brings a cause of its own, and no parent cancels the context with
another cause while a stop is about to. -/
def Orderly (attempt : Attempt) : AttemptAction → Prop
  | .ingest event _ _ => attempt.context.isSome ∨ event.cancellationCause = ""
  | .cancelParent cause =>
    attempt.settled = false → attempt.context = none →
      ∀ stop ∈ attempt.stopping, cancellationCause cause = stop.error
  | _ => True

instance (attempt : Attempt) (action : AttemptAction) : Decidable (Orderly attempt action) := by
  cases action <;> unfold Orderly <;> infer_instance

/-- Until the settlement, the recorded cause is that of the context or of the
stop that is about to cancel it. -/
structure Consistent (attempt : Attempt) : Prop where
  stopping : ∀ stop, attempt.stopping = some stop → attempt.recorded = stop.error
  context : attempt.settled = false → attempt.recorded ≠ "" →
    ∀ cause, attempt.context = some cause → attempt.recorded = cancellationCause cause
  uncancelled : attempt.settled = false → attempt.recorded ≠ "" → attempt.context = none →
    attempt.stopping ≠ none

section

variable {attempt next start later : Attempt} {action : AttemptAction}

theorem Consistent.context_or (holds : Consistent attempt) (unsettled : attempt.settled = false)
    (cancelled : attempt.recorded ≠ "") {cause other : ContextCause}
    (written : attempt.context.or (some cause) = some other)
    (new : attempt.context = none → attempt.recorded = cancellationCause cause) :
    attempt.recorded = cancellationCause other := by
  cases isContext : attempt.context with
  | some first =>
    rw [isContext, some_or] at written
    obtain rfl := some.inj written
    exact holds.context unsettled cancelled first isContext
  | none =>
    rw [isContext, none_or] at written
    cases written
    exact new isContext

theorem stepAttempt_consistent (holds : Consistent attempt) (orderly : Orderly attempt action)
    (taken : stepAttempt attempt action = some next) : Consistent next := by
  cases action with
  | ingest event evidence now =>
    obtain ⟨⟨unlocked, unsettled⟩, ⟨⟩⟩ := ite_none_right_eq_some.mp taken
    refine ⟨fun stop isStop => ?_, fun _ _ cause isCause => ?_, fun _ cancelled isNone => ?_⟩
    · exact absurd (unlocked.symm.trans isStop) (by simp)
    · rw [ingest_recorded, show attempt.context = some cause from isCause]
    · have noContext : attempt.context = none := isNone
      rw [Orderly, noContext] at orderly
      have blank : event.cancellationCause = "" := by simpa using orderly
      rw [ingest_recorded, noContext] at cancelled
      simp only [blank, ne_eq, not_true_eq_false, if_false] at cancelled
      exact absurd unlocked (holds.uncancelled unsettled cancelled noContext)
  | beginStop cause stallThreshold now =>
    obtain ⟨_, ⟨⟩⟩ := ite_none_right_eq_some.mp taken
    unfold beginStop
    split
    · exact holds
    · split
      · exact holds
      · split
        · exact holds
        · next uncancelled =>
          refine ⟨fun stop isStop => ?_, fun _ _ other isOther => ?_, fun _ _ _ => by simp⟩
          · cases isStop
            rfl
          · exact absurd (show attempt.context.isSome by simpa using congrArg isSome isOther)
              uncancelled
  | endStop =>
    obtain ⟨stop, isStop, rfl⟩ := map_eq_some_iff.mp taken
    refine ⟨fun _ isOther => ?_, fun unsettled cancelled cause isCause => ?_, fun _ _ isNone => ?_⟩
    · cases isOther
    · refine holds.context_or unsettled cancelled isCause fun _ => ?_
      rw [stop.cancellationCause_contextCause]
      exact holds.stopping stop isStop
    · have written : attempt.context.or (some stop.contextCause) = none := isNone
      simp at written
  | pause =>
    obtain ⟨_, ⟨⟩⟩ := ite_none_right_eq_some.mp taken
    unfold pause
    split
    · exact holds
    · exact { holds with }
  | cancelParent cause =>
    cases taken
    refine ⟨holds.stopping, fun unsettled cancelled other isOther => ?_, fun _ _ isNone => ?_⟩
    · refine holds.context_or unsettled cancelled isOther fun isContext => ?_
      obtain ⟨stop, isStop⟩ :=
        ne_none_iff_exists'.mp (holds.uncancelled unsettled cancelled isContext)
      rw [orderly unsettled isContext stop isStop]
      exact holds.stopping stop isStop
    · have written : attempt.context.or (some cause) = none := isNone
      simp at written
  | settle err =>
    obtain ⟨⟨unlocked, _⟩, ⟨⟩⟩ := ite_none_right_eq_some.mp taken
    refine ⟨fun stop isStop => ?_, fun unsettled => ?_, fun unsettled => ?_⟩
    · exact absurd (unlocked.symm.trans isStop) (by simp)
    · simp [settle] at unsettled
    · simp [settle] at unsettled
  | release =>
    obtain ⟨isSettled, ⟨⟩⟩ := ite_none_right_eq_some.mp taken
    refine ⟨holds.stopping, fun unsettled => ?_, fun unsettled => ?_⟩
    all_goals exact absurd (isSettled.symm.trans unsettled) (by simp)

theorem stepAttempt_keeps_cause (stopped : CancelledStopped attempt) (holds : Consistent attempt)
    (orderly : Orderly attempt action) (cancelled : attempt.recorded ≠ "")
    (taken : stepAttempt attempt action = some next) : next.recorded = attempt.recorded := by
  rcases stepAttempt_recorded taken with same | ⟨unsettled, cause, isContext, written⟩ |
    ⟨event, _, _, rfl, isContext, cancels, _⟩ | ⟨running, _⟩
  · exact same
  · rw [written, holds.context unsettled cancelled cause isContext]
  · rw [Orderly, isContext] at orderly
    exact absurd (by simpa using orderly) cancels
  · exact absurd (stopped.terminal cancelled) (by simp [running])

theorem reachable_consistent (holds : Consistent start)
    (reachable : Reachable stepAttempt Orderly start later) : Consistent later :=
  reachable.invariant holds stepAttempt_consistent

theorem reachable_keeps_cause (stopped : CancelledStopped start) (holds : Consistent start)
    (cancelled : start.recorded ≠ "") (reachable : Reachable stepAttempt Orderly start later) :
    later.recorded = start.recorded := by
  induction reachable with
  | initial => rfl
  | after earlier orderly taken ih =>
    have stoppedBefore := reachable_cancelledStopped stopped earlier
    have consistentBefore := reachable_consistent holds earlier
    have cancelledBefore := reachable_cancelled cancelled earlier
    rw [stepAttempt_keeps_cause stoppedBefore consistentBefore orderly cancelledBefore taken, ih]

/-- A step that is not orderly can be followed by orderly ones that rewrite the
cause. -/
theorem disorderly_rewrites (holds : Consistent attempt) (disorderly : ¬ Orderly attempt action)
    (taken : stepAttempt attempt action = some next) : next.recorded ≠ "" ∧
      ∃ later, Reachable stepAttempt Orderly next later ∧ later.recorded ≠ next.recorded := by
  cases action with
  | ingest event evidence now =>
    obtain ⟨⟨unlocked, unsettled⟩, ⟨⟩⟩ := ite_none_right_eq_some.mp taken
    have noContext : attempt.context = none := by
      cases isContext : attempt.context with
      | none => rfl
      | some cause => exact absurd (.inl (by simp [isContext])) disorderly
    have cancels : event.cancellationCause ≠ "" := fun blank => disorderly (.inr blank)
    have written : (ingest attempt event evidence now).recorded = event.cancellationCause := by
      rw [ingest_recorded, noContext]
      exact if_pos cancels
    obtain ⟨cause, different⟩ := exists_other_cause event.cancellationCause
    generalize isIngested : ingest attempt event evidence now = ingested at written
    have fields : ingested.context = none ∧ ingested.stopping = none ∧
        ingested.settled = false := by
      rw [← isIngested]
      exact ⟨noContext, unlocked, unsettled⟩
    have cancelled : Reachable stepAttempt Orderly ingested (cancelContext ingested cause) := by
      have orderly : Orderly ingested (.cancelParent cause) := by
        intro _ _ stop isStop
        rw [fields.2.1] at isStop
        cases isStop
      exact .after .initial orderly rfl
    refine ⟨written ▸ cancels, settle (cancelContext ingested cause) none, ?_, ?_⟩
    · refine .after cancelled (show Orderly _ (.settle none) from trivial) ?_
      exact if_pos ⟨fields.2.1, fields.2.2⟩
    · have isCause : (cancelContext ingested cause).context = some cause := by
        simp [cancelContext, fields.1]
      rw [settle_recorded, isCause, written]
      exact different
  | cancelParent cause =>
    cases taken
    simp only [Orderly, Classical.not_imp, not_forall] at disorderly
    obtain ⟨unsettled, noContext, stop, isStop, different⟩ := disorderly
    have written : (cancelContext attempt cause).recorded = stop.error :=
      holds.stopping stop isStop
    have ended : Reachable stepAttempt Orderly (cancelContext attempt cause)
        { cancelContext (cancelContext attempt cause)
          stop.contextCause with stopping := none } := by
      refine .after .initial (show Orderly _ .endStop from trivial) ?_
      have stopping : (cancelContext attempt cause).stopping = some stop := isStop
      rw [stepAttempt, stopping]
      rfl
    refine ⟨written ▸ stop.error_ne_empty, _,
      .after ended (show Orderly _ (.settle none) from trivial) (if_pos ⟨rfl, unsettled⟩), ?_⟩
    have isCause : (cancelContext (cancelContext attempt cause) stop.contextCause).context =
        some cause := by
      simp [cancelContext, noContext]
    rw [settle_recorded, isCause, written]
    exact different
  | _ => exact absurd trivial disorderly

end

theorem started_consistent (silenceMonitoring : Bool) :
    CancelledStopped (started silenceMonitoring) ∧ Consistent (started silenceMonitoring) := by
  refine ⟨fun cancelled => ?_, ?_, ?_, ?_⟩
  · exact absurd rfl cancelled
  · intro stop isStop
    simp [started] at isStop
  all_goals
    intro _ cancelled
    exact absurd rfl cancelled

/-- In every interleaving a cancelled attempt stays stopped and is settled as
stopped.  In an orderly one its cause never changes, and only in an orderly one
is that certain. -/
theorem cancellation_is_final (silenceMonitoring : Bool) {state : Attempt}
    (reachable : Reachable stepAttempt anyStep (started silenceMonitoring) state) :
    (state.recorded ≠ "" → ∀ later, Reachable stepAttempt anyStep state later →
        later.info.status = .stopped) ∧
      (∀ err settled, stepAttempt state (.settle err) = some settled →
        state.context.isSome ∨ state.recorded ≠ "" →
        ∀ later, Reachable stepAttempt anyStep settled later → later.info.status = .stopped) ∧
      (Reachable stepAttempt Orderly (started silenceMonitoring) state →
        (state.recorded ≠ "" → ∀ later, Reachable stepAttempt Orderly state later →
          later.recorded = state.recorded) ∧
        ∀ action next, stepAttempt state action = some next → (Orderly state action ↔
            (next.recorded ≠ "" → ∀ later, Reachable stepAttempt Orderly next later →
              later.recorded = next.recorded))) := by
  obtain ⟨startStopped, startConsistent⟩ := started_consistent silenceMonitoring
  have stopped := reachable_cancelledStopped startStopped reachable
  refine ⟨fun cancelled later continued => ?_,
    fun err settled taken cancelled later continued => ?_,
    fun orderlyRun => ?_⟩
  · exact reachable_cancelledStopped stopped continued (reachable_cancelled cancelled continued)
  · have isCancelled : settled.recorded ≠ "" := by
      obtain ⟨_, ⟨⟩⟩ := ite_none_right_eq_some.mp taken
      rw [settle_recorded]
      cases isContext : state.context with
      | some cause => exact cancellationCause_ne_empty cause
      | none => exact cancelled.resolve_left (by simp [isContext])
    have settledStopped := stepAttempt_cancelledStopped stopped taken
    exact reachable_cancelledStopped settledStopped continued
      (reachable_cancelled isCancelled continued)
  · have consistent := reachable_consistent startConsistent orderlyRun
    refine ⟨fun cancelled later continued =>
      reachable_keeps_cause stopped consistent cancelled continued, fun action next taken => ?_⟩
    constructor
    · intro orderly cancelled later continued
      exact reachable_keeps_cause (stepAttempt_cancelledStopped stopped taken)
        (stepAttempt_consistent consistent orderly taken) cancelled continued
    · intro keeps
      by_contra disorderly
      obtain ⟨cancelled, later, continued, different⟩ :=
        disorderly_rewrites consistent disorderly taken
      exact different (keeps cancelled later continued)

/-- The owner stops the attempt, and a late completion event arrives. -/
theorem cancellation_is_final_ownerStop :
    ∃ state, Reachable stepAttempt Orderly (started true) state ∧ state.recorded = "owner_stop" ∧
      ∀ later, Reachable stepAttempt Orderly state later → later.recorded = "owner_stop" := by
  have actions : ((run stepAttempt anyStep (started true)
      [.beginStop .owner 0 0, .endStop, .ingest { type := .pipelineComplete } "" 1]).any
        fun state => (run stepAttempt Orderly (started true)
          [.beginStop .owner 0 0, .endStop, .ingest { type := .pipelineComplete } "" 1] =
            some state) ∧ state.recorded = "owner_stop") = true := by
    decide +kernel
  obtain ⟨state, isState, holds⟩ := (any_eq_true _ _).mp actions
  obtain ⟨orderly, recorded⟩ := of_decide_eq_true holds
  have orderlyRun := reachable_of_run orderly
  obtain ⟨_, _, keeps⟩ := cancellation_is_final true (reachable_of_run isState)
  refine ⟨state, orderlyRun, recorded, fun later continued => ?_⟩
  rw [← recorded]
  exact (keeps orderlyRun).1 (by simp [recorded]) later continued

/-- The parent cancels the context after the owner's stop has found it alive: the
stop is recorded, and the settlement rewrites it. -/
theorem recorded_cause_changes : ∃ state later, Reachable stepAttempt anyStep (started true) state ∧
      Reachable stepAttempt anyStep state later ∧
      state.recorded = "owner_stop" ∧ later.recorded = "unknown" := by
  have actions : ((run stepAttempt anyStep (started true)
      [.beginStop .owner 0 0, .cancelParent (.other "context canceled"), .endStop]).any fun state =>
        (run stepAttempt anyStep state [.settle none]).any fun later =>
          state.recorded = "owner_stop" ∧ later.recorded = "unknown") = true := by
    decide +kernel
  obtain ⟨state, isState, holds⟩ := (any_eq_true _ _).mp actions
  obtain ⟨later, isLater, changed⟩ := (any_eq_true _ _).mp holds
  obtain ⟨before, after⟩ := of_decide_eq_true changed
  exact ⟨state, later, reachable_of_run isState, reachable_of_run isLater, before, after⟩

end OpenExec.PipelineAttempt
