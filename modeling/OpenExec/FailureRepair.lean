import OpenExec.TaskLedger
import Mathlib.Data.List.Sort

/-!
# Failure repair and selection

`CreateFailureRepair` closes a failed task and inserts the fix task that runs
next; a finding on a done task inserts a fix task and leaves the task alone.
`RunnableTasks` selects what an attempt may start on.  Both are from
`internal/release/failure_repair.go`.
-/

namespace OpenExec.TaskQueue

open Release KeyedRows GoStrings

/-- The digests and texts of a fix task that do not steer the queue. -/
structure RepairNaming where
  digest : String → String → String
  digestPlain : ∀ taskID evidenceID, ∀ c ∈ (digest taskID evidenceID).toList, isSpace c = false
  stopDigest : String → Int → String → String
  fixTaskDescription : TaskRow → TaskRow → String → String → String
  providerFixDescription : TaskRow → TaskRow → String → String → String

def RepairNaming.repairID (naming : RepairNaming) (taskID evidenceID : String) : String :=
  "repair-" ++ naming.digest taskID evidenceID

/-- A naming that spells its arguments out, to run the model with. -/
def spelledNaming : RepairNaming where
  digest := fun taskID evidenceID =>
    String.ofList ((taskID ++ "." ++ evidenceID).toList.filter fun c => !isSpace c)
  digestPlain := by
    intro taskID evidenceID c member
    rw [String.toList_ofList] at member
    simpa using (List.mem_filter.mp member).2
  stopDigest := fun taskID attempt reason => taskID ++ "." ++ toString attempt ++ "." ++ reason
  fixTaskDescription := fun original failed evidenceID evidence =>
    "Fix task for " ++ original.id ++ " after " ++ failed.id ++ ": " ++ evidenceID ++ evidence
  providerFixDescription := fun original failed evidenceID reason =>
    "Fix task for " ++ original.id ++ " after " ++ failed.id ++ ": " ++ evidenceID ++ reason

def providerStopEvidence : String := "provider-stop-"

def findingEvidence : String := "console-repair:"

def failureKind (evidenceID : String) : FailureKind :=
  if hasPrefix evidenceID providerStopEvidence then .provider
  else if hasPrefix evidenceID findingEvidence then .finding
  else .check

inductive RepairRefusal
  | invalidData
  | differentDisposition
  | taskNotFound
  | notFailedOrDone (status : TaskStatus)
  | alreadyClosed (taskID fixID : String)
  | rootNotFound (rootID : String)
  | differentStories (taskID rootID : String)
  | attemptLimit
  | storyNotFound
  | storyDone
  | branchesDisagree

def TaskRow.rootID (task : TaskRow) : String :=
  if task.metadata.repairOf.getD "" = "" then task.id else task.metadata.repairOf.getD ""

def TaskLedger.fixCount (ledger : TaskLedger) (rootID : String) : Nat :=
  ledger.tasks.countP fun row => row.metadata.repairOf = some rootID

/-- The inserted fix: it needs what its original needed and must pass the
original's check. -/
def fixTask (id taskID evidenceID diagnosis branch : String) (now : Nat) (task root : TaskRow) :
    TaskRow where
  id := id
  storyID := task.storyID
  title := "Fix: " ++ root.title
  description := diagnosis
  verificationScript := root.verificationScript
  dependsOn := root.dependsOn
  taskType := "fix"
  priority := root.priority
  maxAttempts := 2
  branch := branch
  prNumber := task.prNumber
  prURL := task.prURL
  needsReview := task.needsReview
  createdAt := now
  metadata :=
    { mode := root.metadata.mode
      decisionReason := root.metadata.decisionReason
      decisionRef := root.metadata.decisionRef
      fixOf := taskID
      repairOf := some task.rootID
      failureEvidence := evidenceID
      failureKind := some (failureKind evidenceID)
      diagnosis := diagnosis }

def closeWithFix (ledger : TaskLedger) (task : TaskRow) (fixID : String) : TaskLedger :=
  if task.status = .failed then
    ledger.changeTask task.id fun row =>
      { row with metadata := { row.metadata with fixedBy := fixID } }
  else ledger

section

variable (ledger : TaskLedger) (now : Nat)

def admitRepair (task : TaskRow) : Except RepairRefusal (TaskRow × String) :=
  if task.status ≠ .failed ∧ task.status ≠ .done then .error (.notFailedOrDone task.status)
  else if task.metadata.fixedBy ≠ "" then .error (.alreadyClosed task.id task.metadata.fixedBy)
  else
    match ledger.task? task.rootID with
    | none => .error (.rootNotFound task.rootID)
    | some root =>
      if root.storyID ≠ task.storyID then .error (.differentStories task.id task.rootID)
      else if task.status = .failed ∧
          (root.maxAttempts ≤ 0 ∨ root.maxAttempts ≤ ledger.fixCount task.rootID) then
        .error .attemptLimit
      else
        match ledger.story? task.storyID with
        | none => .error .storyNotFound
        | some story =>
          let branch := if task.branch = "" then story.branch else task.branch
          if story.status = .done then .error .storyDone
          else if branch ≠ "" ∧ story.branch ≠ "" ∧ branch ≠ story.branch then
            .error .branchesDisagree
          else .ok (root, branch)

/-- `CreateFailureRepair` on trimmed arguments. -/
def insertRepair (id taskID evidenceID diagnosis : String) : Except RepairRefusal TaskLedger :=
  match ledger.task? id with
  | some existing =>
    if existing.metadata.fixOf = taskID ∧ existing.metadata.failureEvidence = evidenceID ∧
        existing.metadata.diagnosis = diagnosis then .ok ledger
    else .error .differentDisposition
  | none =>
    match ledger.task? taskID with
    | none => .error .taskNotFound
    | some task =>
      match admitRepair ledger task with
      | .error refusal => .error refusal
      | .ok (root, branch) =>
        let fix := fixTask id taskID evidenceID diagnosis branch now task root
        .ok ((closeWithFix (ledger.insertTask fix) task id).listInStory task.storyID id)

def createFailureRepair (naming : RepairNaming) (taskID evidenceID diagnosis : String) :
    Except RepairRefusal TaskLedger :=
  if trimSpace taskID = "" ∨ trimSpace evidenceID = "" ∨ trimSpace diagnosis = "" then
    .error .invalidData
  else
    insertRepair ledger now (naming.repairID (trimSpace taskID) (trimSpace evidenceID))
      (trimSpace taskID) (trimSpace evidenceID) (trimSpace diagnosis)

end

/-- The loop of `Delivered`, which gives up after its last step. -/
def deliveredWithin (byID : String → Option TaskRow) : Nat → Option TaskRow → Bool
  | 0, _ => false
  | _, none => false
  | steps + 1, some task =>
    match task.status with
    | .done | .approved => true
    | .failed =>
      if task.metadata.fixedBy = "" then false
      else deliveredWithin byID steps (byID task.metadata.fixedBy)
    | _ => false

def delivered (byID : String → Option TaskRow) (task : TaskRow) : Bool :=
  deliveredWithin byID 65 (some task)

section

variable (tasks : List TaskRow) (stories : List StoryRow)

def storyDelivered (storyID : String) : Bool :=
  (row? StoryRow.id stories storyID).isSome &&
    (tasks.filter fun task => task.storyID = storyID).all (delivered (row? TaskRow.id tasks)) &&
    tasks.any fun task => task.storyID = storyID

def taskDelivered (taskID : String) : Bool :=
  (row? TaskRow.id tasks taskID).any (delivered (row? TaskRow.id tasks))

def isRunnable (storyIDs : List String) (task : TaskRow) : Bool :=
  task.status = .pending && task.storyID ∈ storyIDs && task.metadata.mode ≠ .hitl &&
    0 < task.maxAttempts && task.attemptCount < task.maxAttempts && task.metadata.fixedBy = "" &&
    (row? StoryRow.id stories task.storyID).any fun story =>
      story.status ≠ .done && story.dependsOn.all (storyDelivered tasks stories) &&
        task.dependsOn.all (taskDelivered tasks)

def isRepair (task : TaskRow) : Bool :=
  task.metadata.failureEvidence ≠ "" &&
    (row? TaskRow.id tasks (task.metadata.repairOf.getD "")).any fun original =>
      original.storyID = task.storyID

/-- Fixes first, then by priority, age and identifier. -/
def runsBefore (first second : TaskRow) : Prop :=
  if isRepair tasks first ≠ isRepair tasks second then isRepair tasks first = true
  else if first.priority ≠ second.priority then first.priority < second.priority
  else if first.createdAt ≠ second.createdAt then first.createdAt < second.createdAt
  else first.id ≤ second.id

instance (first second : TaskRow) : Decidable (runsBefore tasks first second) := by
  unfold runsBefore
  infer_instance

end

/-- `runnableTasks`: the failed task to be recaptured, if any, counts as
pending. -/
def runnableTasks (ledger : TaskLedger) (storyIDs : List String) (recaptureID : String) :
    List TaskRow :=
  let tasks := ledger.tasks.map fun task =>
    if task.id = recaptureID ∧ task.status = .failed then { task with status := .pending } else task
  (tasks.filter (isRunnable tasks ledger.stories storyIDs)).insertionSort (runsBefore tasks)

def recaptureEligible (ledger : TaskLedger) (task : TaskRow) : Bool :=
  (runnableTasks ledger [task.storyID] task.id).any fun next => next.id = task.id

end OpenExec.TaskQueue
