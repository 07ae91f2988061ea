import OpenExec.GoStrings
import OpenExec.ReleaseLedger

/-!
# The task ledger of the queue

The `tasks`, `stories` and `run_steps` tables with the columns the task-oriented queue
and its failure repair read and write.
-/

namespace OpenExec.TaskQueue

open Release KeyedRows List

inductive TaskMode
  | afk | hitl
deriving DecidableEq

inductive FailureKind
  | provider | finding | check
deriving DecidableEq

inductive RecaptureOutcome
  | running | success | failed | refused | exhausted | unresolved | cancelled
deriving DecidableEq

/-- The keys of a task's metadata map.  An absent text and an empty one read the
same except for `repair_of`, `verification_failure_evidence` and
`recapture_outcome`, which are also tested for presence. -/
structure TaskMetadata where
  mode : TaskMode := .afk
  decisionReason : Option String := none
  decisionRef : Option String := none
  fixedBy : String := ""
  fixOf : String := ""
  repairOf : Option String := none
  failureEvidence : String := ""
  failureKind : Option FailureKind := none
  diagnosis : String := ""
  verificationFailureEvidence : Option String := none
  recaptureOutcome : Option RecaptureOutcome := none
deriving DecidableEq

inductive ApprovalStatus
  | blank | pending | approved | rejected
deriving DecidableEq

structure ApprovalInfo where
  status : ApprovalStatus := .blank
  approvedBy : String := ""
  approvedAt : Option Nat := none
  comments : String := ""
  rejectionReason : String := ""
  reviewCycle : Int := 0
deriving DecidableEq

structure TaskRow where
  id : String
  storyID : String
  title : String := ""
  description : String := ""
  verificationScript : String := ""
  dependsOn : List String := []
  taskType : String := ""
  priority : Int := 0
  assignedAgent : String := ""
  attemptCount : Int := 0
  maxAttempts : Int := 3
  gitCommits : List String := []
  branch : String := ""
  prNumber : Option Int := none
  prURL : String := ""
  approval : ApprovalInfo := {}
  needsReview : Bool := false
  reviewNotes : String := ""
  status : TaskStatus := .pending
  createdAt : Nat := 0
  startedAt : Option Nat := none
  completedAt : Option Nat := none
  errorMessage : String := ""
  metadata : TaskMetadata := {}
deriving DecidableEq

inductive StoryStatus
  | blank | pending | inProgress | readyForReview | approved | done | conflict
deriving DecidableEq

structure StoryRow where
  id : String
  goalID : String := ""
  status : StoryStatus := .pending
  dependsOn : List String := []
  branch : String := ""
  baseBranch : String := ""
  mergedTo : String := ""
  mergeCommit : String := ""
  mergedAt : Option Nat := none
  approval : ApprovalInfo := {}
  tasks : List String := []
  createdAt : Nat := 0
  completedAt : Option Nat := none
deriving DecidableEq

inductive StepAgent
  | deterministicVerification | providerStop
deriving DecidableEq

/-- A retained receipt as its readers judge it: whether its artifacts validate,
whether it carries no diagnostics, and whether its check can be replayed. -/
structure Receipt where
  valid : Bool := true
  diagnosticFree : Bool := false
  replayable : Bool := true
  text : String := ""
  stopReason : Option String := none
deriving DecidableEq

structure RunStep where
  id : String
  runID : String
  agent : StepAgent := .deterministicVerification
  failed : Bool := true
  receipt : Receipt := {}
deriving DecidableEq

structure TaskLedger where
  tasks : List TaskRow := []
  stories : List StoryRow := []
  steps : List RunStep := []
  tasksUnique : (tasks.map TaskRow.id).Nodup
  storiesUnique : (stories.map StoryRow.id).Nodup
  stepsUnique : (steps.map RunStep.id).Nodup
deriving DecidableEq

namespace TaskLedger

variable (ledger : TaskLedger) (id : String)

def task? : Option TaskRow :=
  row? TaskRow.id ledger.tasks id

def story? : Option StoryRow :=
  row? StoryRow.id ledger.stories id

def step? : Option RunStep :=
  row? RunStep.id ledger.steps id

variable (change : TaskRow → TaskRow)

def mapTasks : TaskLedger :=
  { ledger with
    tasks := ledger.tasks.map fun row => { change row with id := row.id }
    tasksUnique := by
      simpa [Function.comp_def] using ledger.tasksUnique }

def changeTask : TaskLedger :=
  ledger.mapTasks fun row => if row.id = id then change row else row

/-- An insertion under a taken identifier fails on the primary key. -/
def insertTask (row : TaskRow) : TaskLedger :=
  if absent : row.id ∈ ledger.tasks.map TaskRow.id then ledger
  else
    { ledger with
      tasks := ledger.tasks ++ [row]
      tasksUnique := by
        rw [map_append, nodup_append']
        exact ⟨ledger.tasksUnique, nodup_singleton _, by simpa using absent⟩ }

/-- The task's identifier at the end of its story's list. -/
def listInStory (storyID taskID : String) : TaskLedger :=
  { ledger with
    stories := ledger.stories.map fun story =>
      if story.id = storyID then { story with tasks := story.tasks ++ [taskID] } else story
    storiesUnique := by
      simpa [Function.comp_def, apply_ite StoryRow.id] using ledger.storiesUnique }

def insertStep (step : RunStep) : Option TaskLedger :=
  if absent : step.id ∈ ledger.steps.map RunStep.id then none
  else
    some
      { ledger with
        steps := ledger.steps ++ [step]
        stepsUnique := by
          rw [map_append, nodup_append']
          exact ⟨ledger.stepsUnique, nodup_singleton _, by simpa using absent⟩ }

variable {ledger : TaskLedger} {id : String} {row : TaskRow} {change : TaskRow → TaskRow}

theorem task?_id (found : ledger.task? id = some row) : row.id = id :=
  row?_key found

theorem task?_mem (found : ledger.task? id = some row) : row ∈ ledger.tasks :=
  row?_mem found

theorem task?_of_mem (member : row ∈ ledger.tasks) : ledger.task? row.id = some row :=
  row?_of_mem ledger.tasksUnique member

theorem task?_mapTasks : (ledger.mapTasks change).task? id =
      (ledger.task? id).map fun row => { change row with id := row.id } :=
  row?_map fun _ _ => rfl

end TaskLedger

end OpenExec.TaskQueue
