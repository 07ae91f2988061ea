import OpenExec.TaskQueueOperations

/-!
# The task queue

`executeTaskQueue` with the failure handling it calls.  One iteration of its
loop takes the executor's answers and continues with a ledger or returns.
-/

namespace OpenExec.TaskQueue

open Release GoStrings List

structure QueueOptions where
  storyIDs : List String
  taskIDs : Option (List String) := none

/-- `selectedWork`: the selected tasks and the fixes made for them. -/
def selectedWork (taskIDs : Option (List String)) (task : TaskRow) : Bool :=
  match taskIDs with
  | none => true
  | some taskIDs =>
    let selected := taskIDs.map trimSpace
    let root := task.metadata.repairOf.getD ""
    task.id ∈ selected || (root ≠ "" && root ∈ selected)

def QueueOptions.keep (options : QueueOptions) (task : TaskRow) : Bool :=
  selectedWork options.taskIDs task

def tasksInStories (ledger : TaskLedger) : List String → Option (List TaskRow)
  | [] => some []
  | storyID :: rest =>
    match ledger.story? storyID with
    | none => none
    | some _ =>
      (tasksInStories ledger rest).map fun others =>
        (ledger.tasks.filter fun task => task.storyID = storyID) ++ others

theorem mem_tasksInStories {ledger : TaskLedger} {storyIDs : List String} {listed : List TaskRow}
    {row : TaskRow} (isListed : tasksInStories ledger storyIDs = some listed) :
    row ∈ listed ↔ row ∈ ledger.tasks ∧ row.storyID ∈ storyIDs := by
  induction storyIDs generalizing listed with
  | nil =>
    cases isListed
    simp
  | cons storyID rest ih =>
    unfold tasksInStories at isListed
    split at isListed
    · cases isListed
    · obtain ⟨others, isOthers, rfl⟩ := Option.map_eq_some_iff.mp isListed
      rw [mem_append, mem_filter, ih isOthers, mem_cons, decide_eq_true_eq]
      exact and_or_left.symm

def reconcileInterruptedTasks (options : QueueOptions) (ledger : TaskLedger) :
    Option TaskLedger :=
  (tasksInStories ledger options.storyIDs).map fun tasks =>
    (tasks.filter options.keep).foldl reconcileTask ledger

inductive BoundaryKind
  | human | attemptLimit | failed | review | dependency | retained
deriving DecidableEq

structure TaskBoundary where
  taskID : String
  status : TaskStatus
  kind : BoundaryKind
  decisionReason : Option String := none
  decisionRef : Option String := none
deriving DecidableEq

def closedWithFix (task : TaskRow) : Bool :=
  task.status = .failed && task.metadata.fixedBy ≠ ""

def taskBoundary (task : TaskRow) : TaskBoundary :=
  match task.status with
  | .failed => { taskID := task.id, status := task.status, kind := .failed }
  | .needsReview => { taskID := task.id, status := task.status, kind := .review }
  | .pending =>
    if task.maxAttempts ≤ 0 ∨ task.maxAttempts ≤ task.attemptCount then
      { taskID := task.id, status := task.status, kind := .attemptLimit }
    else if task.metadata.mode = .hitl then
      { taskID := task.id, status := task.status, kind := .human
        decisionReason := task.metadata.decisionReason
        decisionRef := task.metadata.decisionRef }
    else { taskID := task.id, status := task.status, kind := .dependency }
  | _ => { taskID := task.id, status := task.status, kind := .retained }

/-- `retainedTaskBoundary`; without an entry it returns no error. -/
def retainedTaskBoundary (tasks : List TaskRow) : List TaskBoundary :=
  ((tasks.filter fun task => task.status ≠ .done && !closedWithFix task).map
    taskBoundary).insertionSort fun first second => first.taskID ≤ second.taskID

inductive Ending
  | refused
  | complete (accepted : Bool)
  | failed (reason : String)
  | stopped
  | paused
  | cancelled
deriving DecidableEq

structure AttemptRun where
  recorded : Option (String × Receipt) := none
  ending : Ending

/-- `persistTaskVerificationFailure` and the pause of an attempt, with the
evidence the pipeline's status then names. -/
def runAttempt (ledger : TaskLedger) (id : String) (attempt : Int) (run : AttemptRun) :
    TaskLedger × Option String :=
  let recorded :=
    match run.recorded with
    | none => (ledger, none)
    | some (stepID, receipt) =>
      if receipt.valid then
        match recordTaskFailureStep ledger { id := stepID, runID := id, receipt } attempt with
        | none => (ledger, none)
        | some next => (next, some stepID)
      else (ledger, none)
  if run.ending = .paused then (pauseAttempt recorded.1 id attempt, recorded.2) else recorded

inductive Handled
  | proceeds (ledger : TaskLedger)
  | waits
  | refuses (ledger : TaskLedger)

/-- A recapture that ends with its task held for review. -/
def terminalRecapture (ledger : TaskLedger) (id : String) (attempt : Int)
    (outcome : RecaptureOutcome) : Handled :=
  .refuses ((finishRecapture ledger id attempt outcome).getD ledger)

def runRecapture (ledger : TaskLedger) (id : String) (attempt maxAttempts : Int)
    (run : AttemptRun) : Handled :=
  let ran := runAttempt ledger id attempt run
  match run.ending with
  | .refused => terminalRecapture ledger id attempt .refused
  | .cancelled => terminalRecapture ran.1 id attempt .cancelled
  | .complete _ =>
    match finishRecapture ran.1 id attempt .success with
    | none => .refuses ran.1
    | some next => .proceeds next
  | _ =>
    if ran.2 = none then terminalRecapture ran.1 id attempt .refused
    else
      match finishRecapture ran.1 id attempt .failed with
      | none => .refuses ran.1
      | some next =>
        if maxAttempts ≤ attempt then terminalRecapture next id attempt .exhausted
        else .proceeds next

def recaptureTaskFailure (ledger : TaskLedger) (id evidenceID : String) (receipt : Receipt)
    (run : AttemptRun) : Handled :=
  match ledger.task? id with
  | none => .refuses ledger
  | some task =>
    if task.status ≠ .failed ∨ task.metadata.verificationFailureEvidence ≠ some evidenceID then
      .refuses ledger
    else if task.metadata.mode = .hitl ∨ task.needsReview = true then
      terminalRecapture ledger id task.attemptCount .refused
    else if task.maxAttempts ≤ 0 ∨ task.maxAttempts ≤ task.attemptCount then
      terminalRecapture ledger id task.attemptCount .exhausted
    else if receipt.replayable = false then
      terminalRecapture ledger id task.attemptCount .unresolved
    else if recaptureEligible ledger task = false then .waits
    else
      match claimRecapture ledger id evidenceID with
      | none => .refuses ledger
      | some claimed => runRecapture claimed id (task.attemptCount + 1) task.maxAttempts run

def originalTask? (ledger : TaskLedger) (task : TaskRow) : Option TaskRow :=
  if task.metadata.repairOf.getD "" = "" then some task
  else ledger.task? (task.metadata.repairOf.getD "")

/-- What the environment answers in one iteration. -/
structure QueueAnswers where
  cancelled : Bool := false
  yields : Bool := false
  now : Nat := 0
  attempt : AttemptRun := { ending := .refused }
  recaptures : List (String × AttemptRun) := []

def QueueAnswers.recapture (answers : QueueAnswers) (id : String) : AttemptRun :=
  ((answers.recaptures.find? fun entry => entry.1 = id).map Prod.snd).getD { ending := .refused }

inductive SweepResult
  | swept (ledger : TaskLedger) (processed : Bool)
  | ended (ledger : TaskLedger)
deriving DecidableEq

inductive QueueEnd
  | cancelled
  | yielded
  | invalidScope
  | repairRefused
  | startRefused
  | attemptEnded
  | fixRefused
  | completionRefused
  | noTasks
  | drained (boundary : List TaskBoundary)
deriving DecidableEq

inductive Iteration
  | continues (ledger : TaskLedger)
  | returns (ledger : TaskLedger) (verdict : QueueEnd)
deriving DecidableEq

def Iteration.ledger : Iteration → TaskLedger
  | continues ledger => ledger
  | returns ledger _ => ledger

variable (naming : RepairNaming) (options : QueueOptions) (ledger : TaskLedger) (now : Nat)

def repairTaskFromRetainedFailure (id evidenceID : String) (run : AttemptRun) : Handled :=
  match ledger.step? evidenceID with
  | none => .refuses ledger
  | some step =>
    if evidenceID = "" ∨ step.runID ≠ id ∨ step.failed = false ∨
        step.agent ≠ .deterministicVerification ∨ step.receipt.valid = false then
      .refuses ledger
    else if step.receipt.diagnosticFree then
      recaptureTaskFailure ledger id evidenceID step.receipt run
    else
      match ledger.task? id with
      | none => .refuses ledger
      | some failed =>
        match originalTask? ledger failed with
        | none => .refuses ledger
        | some original =>
          match createFailureRepair ledger now naming id evidenceID
            (naming.fixTaskDescription original failed evidenceID step.receipt.text) with
          | .error _ => .refuses ledger
          | .ok next => .proceeds next

def hasRetainedFailure (task : TaskRow) : Bool :=
  task.status = .failed && task.metadata.verificationFailureEvidence.getD "" ≠ "" &&
    task.metadata.fixedBy = ""

def sweepRetained (answers : QueueAnswers) : List TaskRow → TaskLedger → Bool → SweepResult
  | [], ledger, processed => .swept ledger processed
  | task :: rest, ledger, processed =>
    if hasRetainedFailure task && options.keep task then
      match repairTaskFromRetainedFailure naming ledger answers.now task.id
        (task.metadata.verificationFailureEvidence.getD "") (answers.recapture task.id) with
      | .proceeds next => sweepRetained answers rest next true
      | .waits => sweepRetained answers rest ledger processed
      | .refuses next => .ended next
    else sweepRetained answers rest ledger processed

variable (answers : QueueAnswers)

/-- The disposition of an attempt whose pipeline ended in an error. -/
def disposeFailure (id : String) (attempt : Int)
    (evidence? : Option String) (reason : String) : Iteration :=
  let failed := (setTaskStatus ledger id .failed true).getD ledger
  match evidence? with
  | some evidenceID =>
    match repairTaskFromRetainedFailure naming failed answers.now id evidenceID
      (answers.recapture id) with
    | .proceeds next => .continues next
    | .waits => .returns failed .repairRefused
    | .refuses next => .returns next .repairRefused
  | none =>
    if trimSpace reason = "" then .returns failed .attemptEnded
    else
      match fixProviderStop naming failed answers.now id attempt (trimSpace reason) with
      | .fixed next => .continues next
      | .refused next => .returns next .fixRefused
      | .notFixed => .returns failed .attemptEnded

def attemptTask (task : TaskRow) : Iteration :=
  let begun := beginAttempt ledger task.id
  let ran := runAttempt begun task.id (task.attemptCount + 1) answers.attempt
  match answers.attempt.ending with
  | .refused => .returns ((setTaskStatus begun task.id .failed true).getD begun) .startRefused
  | .complete accepted =>
    match finishDone ran.1 task.id accepted with
    | none => .returns ran.1 .completionRefused
    | some next => .continues next
  | .failed reason =>
    disposeFailure naming ran.1 answers task.id (task.attemptCount + 1) ran.2 reason
  | _ => .returns ran.1 .attemptEnded

/-- The verdict when nothing is runnable. -/
def drainQueue : Iteration :=
  match tasksInStories ledger options.storyIDs with
  | none => .returns ledger .invalidScope
  | some tasks =>
    let current := tasks.filter options.keep
    if current.isEmpty then .returns ledger .noTasks
    else .returns ledger (.drained (retainedTaskBoundary current))

def queueIteration : Iteration :=
  if answers.cancelled then .returns ledger .cancelled
  else if answers.yields then .returns ledger .yielded
  else
    match tasksInStories ledger options.storyIDs with
    | none => .returns ledger .invalidScope
    | some retained =>
      match sweepRetained naming options answers retained ledger false with
      | .ended next => .returns next .repairRefused
      | .swept next true => .continues next
      | .swept next false =>
        match (runnableTasks next options.storyIDs "").filter options.keep with
        | [] => drainQueue options next
        | task :: _ => attemptTask naming next answers task

def continueQueue : Option TaskLedger :=
  match queueIteration naming options ledger answers with
  | .continues next => some next
  | .returns _ _ => none

end OpenExec.TaskQueue
