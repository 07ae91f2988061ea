import OpenExec.FailureRepair
import OpenExec.GuardedRuns

/-!
# The ledger operations of the task-oriented queue

Every write of `pkg/manager/task_queue.go`, `task_recapture.go`, `task_failure.go` and
`task_execution_lock.go` to the task ledger, each as one step.
-/

namespace OpenExec.TaskQueue

open Release GoStrings

section

variable (ledger : TaskLedger) (id : String)

/-- Claim an attempt on a task that `RunnableTasks` selected.  The receipt of an
earlier check must not classify a later failure. -/
def beginAttempt : TaskLedger :=
  ledger.changeTask id fun row =>
    { row with
      attemptCount := row.attemptCount + 1
      status := .inProgress
      metadata := { row.metadata with verificationFailureEvidence := none } }

def startAttempt (storyIDs : List String) (id : String) : Option TaskLedger :=
  if (runnableTasks ledger storyIDs "").any fun task => task.id = id then
    some (beginAttempt ledger id)
  else none

/-- `SetTaskStatus`; `accepted` is the answer of `CanCompleteTask`. -/
def setTaskStatus (status : TaskStatus) (accepted : Bool) : Option TaskLedger :=
  match ledger.task? id with
  | none => none
  | some task =>
    if status = .done ∧ task.status ≠ .done ∧ accepted = false then none
    else some (ledger.changeTask id fun row => { row with status })

def finishDone (accepted : Bool) : Option TaskLedger :=
  match ledger.task? id with
  | none => none
  | some task =>
    if task.status = .done then some ledger
    else if task.status = .failed ∨ task.status = .error then none
    else setTaskStatus ledger id .done accepted

def recordTaskFailureStep (step : RunStep) (attempt : Int) : Option TaskLedger :=
  if step.id = "" ∨ step.runID = "" ∨ step.failed = false ∨ attempt < 1 then none
  else
    match ledger.task? step.runID with
    | none => none
    | some task =>
      if task.status = .inProgress ∧ task.attemptCount = attempt then
        (ledger.changeTask step.runID fun row =>
          { row with
            status := .failed
            metadata :=
              { row.metadata with verificationFailureEvidence := some step.id } }).insertStep step
      else none

/-- `UPDATE … WHERE id=? AND status=… AND attempt_count=?`. -/
def guardedStatus (before : TaskStatus) (attempt : Int) (after : TaskStatus) : TaskLedger :=
  ledger.changeTask id fun row =>
    if row.status = before ∧ row.attemptCount = attempt then { row with status := after } else row

/-- One row of `reconcileInterruptedTasks`. -/
def reconcileTask (task : TaskRow) : TaskLedger :=
  if task.metadata.fixedBy ≠ "" then
    if task.status = .inProgress then
      guardedStatus ledger task.id .inProgress task.attemptCount .failed
    else ledger
  else if task.status = .inProgress ∧ task.metadata.recaptureOutcome = some .running then
    guardedStatus ledger task.id .inProgress task.attemptCount .failed
  else if task.status = .inProgress then
    guardedStatus ledger task.id .inProgress task.attemptCount .pending
  else if task.status = .failed ∧ task.attemptCount < task.maxAttempts ∧
      (task.metadata.verificationFailureEvidence = none ∨ task.metadata.repairOf ≠ none) ∧
      task.metadata.mode ≠ .hitl then
    guardedStatus ledger task.id .failed task.attemptCount .pending
  else ledger

/-- Claim a further attempt for a receipt without diagnostics. -/
def claimRecapture (id evidenceID : String) : Option TaskLedger :=
  match ledger.task? id with
  | none => none
  | some task =>
    if task.status = .failed ∧ task.metadata.verificationFailureEvidence = some evidenceID ∧
        task.attemptCount < task.maxAttempts ∧ recaptureEligible ledger task = true then
      some (ledger.changeTask id fun row =>
        { row with
          attemptCount := row.attemptCount + 1
          status := .inProgress
          metadata := { row.metadata with recaptureOutcome := some .running } })
    else none

def RecaptureOutcome.status : RecaptureOutcome → TaskStatus
  | .running => .inProgress
  | .success => .pending
  | .failed => .failed
  | .refused | .exhausted | .unresolved | .cancelled => .needsReview

/-- `finish` of a recapture that owns the attempt. -/
def finishRecapture (attempt : Int) (outcome : RecaptureOutcome) : Option TaskLedger :=
  match ledger.task? id with
  | none => none
  | some current =>
    if outcome = .running ∨ current.attemptCount ≠ attempt ∨
        (current.status ≠ .failed ∧ current.status ≠ .inProgress) then none
    else
      some (ledger.changeTask id fun row =>
        { row with
          status := outcome.status
          metadata :=
            { row.metadata with
              recaptureOutcome := some outcome
              verificationFailureEvidence :=
                if outcome = .success then none
                else row.metadata.verificationFailureEvidence } })

def pauseAttempt (attempt : Int) : TaskLedger :=
  guardedStatus ledger id .inProgress attempt .needsReview

end

section

variable (naming : RepairNaming) (ledger : TaskLedger) (now : Nat)

def withoutCause (reason : String) : Bool :=
  (cut reason "failed:").any fun parts => trimSpace parts.2 = ""

def stoppedAgain (failed : TaskRow) (reason : String) : Bool :=
  hasPrefix failed.metadata.failureEvidence providerStopEvidence &&
    (ledger.step? failed.metadata.failureEvidence).any fun step =>
      step.receipt.stopReason = some reason

inductive StopResult
  | notFixed
  | fixed (ledger : TaskLedger)
  | refused (ledger : TaskLedger)

def fixProviderStop (taskID : String) (attempt : Int) (reason : String) : StopResult :=
  if withoutCause reason then .notFixed
  else
    match ledger.task? taskID with
    | none => .refused ledger
    | some failed =>
      if failed.metadata.mode = .hitl ∨ failed.metadata.verificationFailureEvidence ≠ none ∨
          failed.metadata.recaptureOutcome ≠ none then .notFixed
      else if failed.metadata.fixedBy ≠ "" then .fixed ledger
      else if stoppedAgain ledger failed reason then .notFixed
      else
        let evidenceID := providerStopEvidence ++ naming.stopDigest taskID attempt reason
        let step : RunStep :=
          { id := evidenceID
            runID := taskID
            agent := .providerStop
            receipt := { stopReason := some reason } }
        let recorded := (ledger.insertStep step).getD ledger
        match (if failed.metadata.repairOf.getD "" = "" then some failed
          else recorded.task? (failed.metadata.repairOf.getD "")) with
        | none => .refused recorded
        | some original =>
          match createFailureRepair recorded now naming taskID evidenceID
            (naming.providerFixDescription original failed evidenceID reason) with
          | .error _ => .refused recorded
          | .ok repaired => .fixed repaired

end

inductive LedgerAction
  | start (storyIDs : List String) (id : String)
  | complete (id : String) (accepted : Bool)
  | fail (id : String)
  | recordFailure (step : RunStep) (attempt : Int)
  | repair (taskID evidenceID diagnosis : String) (now : Nat)
  | reconcile (id : String)
  | claim (id evidenceID : String)
  | finish (id : String) (attempt : Int) (outcome : RecaptureOutcome)
  | pause (id : String) (attempt : Int)
  | providerStop (id : String) (attempt : Int) (reason : String) (now : Nat)

def stepLedger (naming : RepairNaming) (ledger : TaskLedger) : LedgerAction → Option TaskLedger
  | .start storyIDs id => startAttempt ledger storyIDs id
  | .complete id accepted => finishDone ledger id accepted
  | .fail id => setTaskStatus ledger id .failed true
  | .recordFailure step attempt => recordTaskFailureStep ledger step attempt
  | .repair taskID evidenceID diagnosis now =>
    (createFailureRepair ledger now naming taskID evidenceID diagnosis).toOption
  | .reconcile id => (ledger.task? id).map (reconcileTask ledger)
  | .claim id evidenceID => claimRecapture ledger id evidenceID
  | .finish id attempt outcome => finishRecapture ledger id attempt outcome
  | .pause id attempt => some (pauseAttempt ledger id attempt)
  | .providerStop id attempt reason now =>
    match fixProviderStop naming ledger now id attempt reason with
    | .notFixed => none
    | .fixed next | .refused next => some next

end OpenExec.TaskQueue
