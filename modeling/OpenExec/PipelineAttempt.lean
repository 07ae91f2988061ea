import OpenExec.GuardedRuns

/-!
# One attempt of a pipeline

The record `PipelineInfo` of a managed pipeline and everything that writes to it:
the ingestion of events, stops of the owner and the watchdog, pauses and the
settlement.  All of them hold the manager's lock.  The attempt's context is
cancelled without it, by its parent or at the end of a stop.
-/

namespace OpenExec.PipelineAttempt

inductive EventType
  | iterationStart | assistantText | toolStart | toolResult | retrying | error
  | maxIterationsReached | paused | complete | signalReceived | thrashingDetected
  | phaseStart | phaseComplete | routeDecision | pipelineComplete | operatorAttention
  | preflightStart | preflightPassed | preflightFailed
  | gatesStart | gatesPassed | gatesFailed | gatesFixing
  | planningMismatch | usageRecorded | heartbeat | progress
  | blueprintStart | blueprintComplete | blueprintFailed | executionActivity
  | stageStart | stageComplete | stageFailed | stageRetry | checkpointCreated
deriving DecidableEq

inductive ExecutionActivity
  | monitor | progress | checkStart | checkEnd
  | other (text : String)
deriving DecidableEq

structure Event where
  type : EventType
  cancellationCause : String := ""
  executionActivity : ExecutionActivity := .other ""
  iteration : Nat := 0
  attempt : Nat := 0
  reviewCycle : Nat := 0
  text : String := ""
  errText : String := ""
  blueprintID : String := ""
  stageName : String := ""
  stageType : String := ""
  silenceMonitoring : Bool := false

inductive PipelineStatus
  | created | starting | running | paused | complete | error | stopped
deriving DecidableEq

def isTerminal : PipelineStatus → Bool
  | .complete | .error | .stopped => true
  | _ => false

structure PipelineInfo where
  silenceMonitoring : Bool := false
  pendingChecks : Nat := 0
  cancellationCause : String := ""
  stageType : String := ""
  failureEvidenceID : String := ""
  status : PipelineStatus := .created
  stage : String := ""
  iteration : Nat := 0
  reviewCycles : Nat := 0
  error : String := ""
  lastActivity : Option Int := none
deriving DecidableEq

def Event.isActivity (event : Event) : Bool :=
  event.type ≠ .heartbeat &&
    (event.type ≠ .executionActivity || event.executionActivity = .monitor ||
      event.executionActivity = .progress || event.executionActivity = .checkStart ||
      event.executionActivity = .checkEnd)

variable (info : PipelineInfo) (event : Event)

def applyEvent : PipelineInfo :=
  match event.type with
  | .executionActivity =>
    match event.executionActivity with
    | .monitor => { info with silenceMonitoring := true }
    | .checkStart => { info with pendingChecks := info.pendingChecks + 1 }
    | .checkEnd => { info with pendingChecks := info.pendingChecks - 1 }
    | _ => info
  | .iterationStart => { info with iteration := event.iteration }
  | .routeDecision => { info with reviewCycles := event.reviewCycle }
  | .pipelineComplete => { info with status := .complete }
  | .operatorAttention => { info with status := .paused }
  | .planningMismatch =>
    { info with status := .paused, error := "Planning Mismatch: " ++ event.text }
  | .paused => { info with status := .paused }
  | .error =>
    { info with
      status := .error
      error := if event.errText = "" then event.text else event.errText }
  | .blueprintStart =>
    { info with
      status := if info.status = .paused then .paused else .running
      stage := "blueprint:" ++ event.blueprintID }
  | .blueprintComplete => { info with status := .complete }
  | .blueprintFailed => { info with status := .error, error := event.errText }
  | .stageStart =>
    { info with
      silenceMonitoring := event.silenceMonitoring
      pendingChecks := 0
      stage := event.stageName
      stageType := event.stageType
      status := if info.status = .paused then .paused else .running
      iteration := event.iteration }
  | .stageComplete => { info with stage := event.stageName ++ ":complete" }
  | .stageFailed => { info with stage := event.stageName ++ ":failed" }
  | .stageRetry =>
    { info with stage := event.stageName ++ ":retry", iteration := event.attempt }
  | .checkpointCreated => { info with stage := event.stageName ++ ":checkpoint" }
  | _ => info

def PipelineInfo.cancelled (info : PipelineInfo) (cause : String) : PipelineInfo :=
  { info with status := .stopped, cancellationCause := cause, error := cause }

def PipelineInfo.received (now : Int) : PipelineInfo :=
  if event.isActivity then { info with lastActivity := some now } else info

def updateInfo (now : Int) : PipelineInfo :=
  let info := info.received event now
  let info :=
    if event.cancellationCause ≠ "" then info.cancelled event.cancellationCause else info
  -- Late buffered events must not overwrite an interruption.
  if info.cancellationCause ≠ "" then info else applyEvent info event

/-- The cause of a cancelled context, as `errors.Is` tells it apart. -/
inductive ContextCause
  | watchdogStall | ownerStop | allowanceExceeded | deadlineExceeded
  | other (message : String)
deriving DecidableEq

def cancellationCause : ContextCause → String
  | .watchdogStall => "watchdog_stall"
  | .ownerStop => "owner_stop"
  | .allowanceExceeded => "allowance_exceeded"
  | .deadlineExceeded => "timeout"
  | .other _ => "unknown"

inductive StopCause
  | owner | watchdog
deriving DecidableEq

def StopCause.contextCause : StopCause → ContextCause
  | .owner => .ownerStop
  | .watchdog => .watchdogStall

def StopCause.error : StopCause → String
  | .owner => "owner_stop"
  | .watchdog => "watchdog_stall"

/-- `context` is the first cause of the attempt's context, if it is cancelled;
`stopping` is the stop that has checked the context and not yet cancelled it. -/
structure Attempt where
  info : PipelineInfo
  context : Option ContextCause := none
  stopping : Option StopCause := none
  settled : Bool := false
deriving DecidableEq

def started (silenceMonitoring : Bool) : Attempt where
  info := { silenceMonitoring, status := .starting }

inductive AttemptAction
  | ingest (event : Event) (failureEvidenceID : String) (now : Int)
  | beginStop (cause : StopCause) (stallThreshold : Int) (now : Int)
  | endStop
  | pause
  | cancelParent (cause : ContextCause)
  | settle (err : Option String)
  | release

section

variable (attempt : Attempt)

def ingest (event : Event) (failureEvidenceID : String) (now : Int) : Attempt :=
  let event :=
    match attempt.context with
    | none => event
    | some cause => { event with cancellationCause := cancellationCause cause }
  let info := updateInfo attempt.info event now
  { attempt with
    info :=
      if failureEvidenceID = "" then info else { info with failureEvidenceID } }

/-- The recheck of a stop by the watchdog. -/
def notStalled (info : PipelineInfo) (stallThreshold now : Int) : Bool :=
  info.silenceMonitoring = false || 0 < info.pendingChecks || info.status = .paused ||
    info.stageType = "deterministic" ||
    match info.lastActivity with
    | none => true
    | some last => now - last ≤ stallThreshold

/-- `stopWithCauseWithClock` up to its own cancellation of the context. -/
def beginStop (cause : StopCause) (stallThreshold now : Int) : Attempt :=
  if isTerminal attempt.info.status then attempt
  else if 0 < stallThreshold ∧ notStalled attempt.info stallThreshold now then attempt
  else if attempt.context.isSome then attempt
  else { attempt with info := attempt.info.cancelled cause.error, stopping := some cause }

def pause : Attempt :=
  if isTerminal attempt.info.status then attempt
  else { attempt with info := { attempt.info with status := .paused } }

/-- A context keeps the first cause it is cancelled with. -/
def cancelContext (cause : ContextCause) : Attempt :=
  { attempt with context := attempt.context.or (some cause) }

def settle (err : Option String) : Attempt :=
  let info :=
    match err with
    | some text =>
      if isTerminal attempt.info.status then attempt.info
      else { attempt.info with status := .error, error := text }
    | none => attempt.info
  { attempt with
    settled := true
    info :=
      match attempt.context with
      | some cause => info.cancelled (cancellationCause cause)
      | none => info }

end

/-- One step of the attempt.  A stop between its two halves holds the lock; the
events are consumed before the settlement; the goroutine of `start` releases the
context after it. -/
def stepAttempt (attempt : Attempt) : AttemptAction → Option Attempt
  | .ingest event failureEvidenceID now =>
    if attempt.stopping = none ∧ attempt.settled = false then
      some (ingest attempt event failureEvidenceID now)
    else none
  | .beginStop cause stallThreshold now =>
    if attempt.stopping = none then some (beginStop attempt cause stallThreshold now) else none
  | .endStop =>
    attempt.stopping.map fun cause =>
      { cancelContext attempt cause.contextCause with stopping := none }
  | .pause => if attempt.stopping = none then some (pause attempt) else none
  | .cancelParent cause => some (cancelContext attempt cause)
  | .settle err =>
    if attempt.stopping = none ∧ attempt.settled = false then some (settle attempt err) else none
  | .release =>
    if attempt.settled = true then some (cancelContext attempt (.other "context canceled"))
    else none

end OpenExec.PipelineAttempt
