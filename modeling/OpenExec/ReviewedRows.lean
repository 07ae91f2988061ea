import OpenExec.InsertOrCompare
import OpenExec.PlanIdentity

/-!
# The reviewed-plan importer

`importReviewedPlan` and the SQLite columns it works on.  A row that is there is
compared column by column, with NULL read as the empty text and a NULL or JSON
null list as the empty list; a row that is absent is inserted.  The columns the
importer neither reads nor writes are carried along as `others`.
-/

namespace OpenExec.ReviewedImport

open KeyedRows InsertOrCompare
open Planner (taskModeAFK)

/-- A JSON list, as text or BLOB.  `strings` is the encoding this program writes;
`other` is any other JSON, with what decoding it as a list of strings gives. -/
inductive ListColumn
  | sqlNull
  | null
  | strings (items : List String)
  | other (text : String) (decoded : List String)
  | malformed
deriving DecidableEq

/-- A metadata object: the keys the planner knows and the encodings of the rest. -/
structure Metadata extends Release.PlanMetadata where
  others : List (String × String) := []
deriving DecidableEq

inductive MetadataColumn
  | sqlNull
  | null
  | object (metadata : Metadata)
  | undecodable
deriving DecidableEq

structure GoalColumns (κ : Type) where
  id : String
  title : String
  description : Option String
  successCriteria : Option String
  verificationMethod : Option String
  others : κ
deriving DecidableEq

structure StoryColumns (κ : Type) where
  id : String
  goalID : Option String
  title : String
  description : Option String
  acceptanceCriteria : ListColumn
  verificationScript : Option String
  contract : Option String
  dependsOn : ListColumn
  storyType : Option String
  priority : Option Int
  tasks : ListColumn
  others : κ
deriving DecidableEq

structure TaskColumns (κ : Type) where
  id : String
  storyID : String
  title : String
  description : Option String
  verificationScript : Option String
  dependsOn : ListColumn
  priority : Option Int
  maxAttempts : Option Int
  metadata : MetadataColumn
  others : κ
deriving DecidableEq

structure StepColumns where
  id : String
  runID : String
  phase : String
  agent : Option String
  status : String
  inputsHash : Option String
  metadata : Option String
deriving DecidableEq

structure Tables (κ : Type) where
  goals : Table (@GoalColumns.id κ) := Table.empty
  stories : Table (@StoryColumns.id κ) := Table.empty
  tasks : Table (@TaskColumns.id κ) := Table.empty
  steps : Table StepColumns.id := Table.empty
  runs : List String := []
deriving DecidableEq

/-- The metadata of a listed task; a value without a JSON encoding leaves only
its mode to be read. -/
inductive ReviewedMetadata
  | nil
  | object (metadata : Metadata)
  | unencodable (mode : Option String)
deriving DecidableEq

structure ReviewedTask where
  id : String
  storyID : String
  title : String := ""
  description : String := ""
  verificationScript : String := ""
  dependsOn : List String := []
  priority : Int := 0
  maxAttempts : Int := 3
  metadata : ReviewedMetadata := .nil

structure ReviewedRows where
  goals : List Release.Goal := []
  stories : List Release.Story := []
  tasks : List ReviewedTask := []

def ReviewedMetadata.mode : ReviewedMetadata → String
  | .nil => taskModeAFK
  | .object metadata => metadata.mode.getD taskModeAFK
  | .unencodable mode => mode.getD taskModeAFK

/-- What is written for a new task: nil becomes the empty object, and the error
of an encoding that fails is dropped with its text. -/
def ReviewedMetadata.column : ReviewedMetadata → MetadataColumn
  | .nil => .object {}
  | .object metadata => .object metadata
  | .unencodable _ => .undecodable

def ReviewedMetadata.Encodable : ReviewedMetadata → Prop
  | .unencodable _ => False
  | _ => True

def storyTypeText : Release.StoryType → String
  | .feature => "feature"
  | .bugfix => "bugfix"
  | .chore => "chore"
  | .refactor => "refactor"
  | .other text => text

inductive ImportedTable
  | goals | stories | tasks
deriving DecidableEq

inductive ImportError
  | receiptConflicts
  | unreadableReceipt
  | unknownGoal (storyID goalID : String)
  | conflicts (table : ImportedTable) (id : String)
  | nullMetadata
  | invalidMetadata
  | modeConflicts (id : String)
  | foreignKey
  | interrupted
deriving DecidableEq

/-- `json(CASE WHEN column IS NULL OR json(column)='null' THEN '[]' ELSE column
END)=json(?)`; malformed JSON ends the statement with an error. -/
def ListColumn.matches : ListColumn → List String → Bool
  | .sqlNull, listed | .null, listed => listed = []
  | .strings items, listed => items = listed
  | .other _ _, _ | .malformed, _ => false

/-- `COALESCE(column,'')=?`. -/
def textMatches (column : Option String) (listed : String) : Bool :=
  column.getD "" = listed

def numberMatches (column : Option Int) (listed : Int) : Bool :=
  column = some listed

variable {κ : Type} (fresh : String → κ)

def goalMatches (row : GoalColumns κ) (goal : Release.Goal) : Bool :=
  row.title = goal.title && textMatches row.description goal.description &&
    textMatches row.successCriteria goal.successCriteria &&
    textMatches row.verificationMethod goal.verificationMethod

def storyMatches (row : StoryColumns κ) (story : Release.Story) : Bool :=
  textMatches row.goalID story.goalID && row.title = story.title &&
    textMatches row.description story.description &&
    row.acceptanceCriteria.matches story.acceptanceCriteria &&
    textMatches row.verificationScript story.verificationScript &&
    textMatches row.contract story.contract && row.dependsOn.matches story.dependsOn &&
    textMatches row.storyType (storyTypeText story.storyType) &&
    numberMatches row.priority story.priority && row.tasks.matches story.tasks

def taskMatches (row : TaskColumns κ) (task : ReviewedTask) : Bool :=
  row.storyID = task.storyID && row.title = task.title &&
    textMatches row.description task.description &&
    textMatches row.verificationScript task.verificationScript &&
    row.dependsOn.matches task.dependsOn && numberMatches row.priority task.priority &&
    numberMatches row.maxAttempts task.maxAttempts

def MetadataColumn.mode? : MetadataColumn → Except ImportError String
  | .sqlNull => .error .nullMetadata
  | .undecodable => .error .invalidMetadata
  | .null => .ok taskModeAFK
  | .object metadata => .ok (metadata.mode.getD taskModeAFK)

def goalColumns (goal : Release.Goal) : GoalColumns κ where
  id := goal.id
  title := goal.title
  description := some goal.description
  successCriteria := some goal.successCriteria
  verificationMethod := some goal.verificationMethod
  others := fresh goal.id

/-- An empty goal reference is written as NULL. -/
def storyColumns (story : Release.Story) : StoryColumns κ where
  id := story.id
  goalID := if story.goalID = "" then none else some story.goalID
  title := story.title
  description := some story.description
  acceptanceCriteria := .strings story.acceptanceCriteria
  verificationScript := some story.verificationScript
  contract := some story.contract
  dependsOn := .strings story.dependsOn
  storyType := some (storyTypeText story.storyType)
  priority := some story.priority
  tasks := .strings story.tasks
  others := fresh story.id

def taskColumns (task : ReviewedTask) : TaskColumns κ where
  id := task.id
  storyID := task.storyID
  title := task.title
  description := some task.description
  verificationScript := some task.verificationScript
  dependsOn := .strings task.dependsOn
  priority := some task.priority
  maxAttempts := some task.maxAttempts
  metadata := task.metadata.column
  others := fresh task.id

def goalImporter : Importer (@GoalColumns.id κ) Release.Goal ImportError where
  name := Release.Goal.id
  make := goalColumns fresh
  made := fun _ => rfl
  compare row goal := if goalMatches row goal then none else some (.conflicts .goals goal.id)
  refuses _ := none

def storyImporter (goals : Table (@GoalColumns.id κ)) :
    Importer (@StoryColumns.id κ) Release.Story ImportError where
  name := Release.Story.id
  make := storyColumns fresh
  made := fun _ => rfl
  compare row story := if storyMatches row story then none else some (.conflicts .stories story.id)
  refuses story :=
    if story.goalID ≠ "" ∧ goals.get? story.goalID = none then some .foreignKey else none

def taskImporter (stories : Table (@StoryColumns.id κ)) :
    Importer (@TaskColumns.id κ) ReviewedTask ImportError where
  name := ReviewedTask.id
  make := taskColumns fresh
  made := fun _ => rfl
  compare row task :=
    match row.metadata.mode? with
    | .error refusal => some refusal
    | .ok mode =>
      if mode ≠ task.metadata.mode then some (.modeConflicts task.id)
      else if taskMatches row task then none
      else some (.conflicts .tasks task.id)
  refuses task := if stories.get? task.storyID = none then some .foreignKey else none

def danglingGoal (rows : ReviewedRows) (goals : Table (@GoalColumns.id κ)) : Option ImportError :=
  (rows.stories.find? fun story =>
    story.goalID ≠ "" ∧ story.goalID ∉ rows.goals.map Release.Goal.id ∧
      goals.get? story.goalID = none).map fun story => .unknownGoal story.id story.goalID

/-- The row writes of the transaction. -/
def importRows (rows : ReviewedRows) (tables : Tables κ) : Except ImportError (Tables κ) := do
  if let some refusal := danglingGoal rows tables.goals then throw refusal
  let goals ← (goalImporter fresh).insertAll rows.goals tables.goals
  let stories ← (storyImporter fresh goals).insertAll rows.stories tables.stories
  let tasks ← (taskImporter fresh stories).insertAll rows.tasks tables.tasks
  return { tables with goals, stories, tasks }

structure ImportRequest where
  stepID : String
  runID : String
  inputDigest : String
  receipt : String

def ImportRequest.step (request : ImportRequest) : StepColumns where
  id := request.stepID
  runID := request.runID
  phase := "plan"
  agent := some "reviewed-plan-import"
  status := "completed"
  inputsHash := some request.inputDigest
  metadata := some request.receipt

/-- What happens around the transaction: a statement of it or its commit may
fail, and so may the reading of the cache after it. -/
structure ImportAnswers where
  interrupted : Bool := false
  refreshes : Bool := true

/-- How the import returns: without an error, with an error of the transaction,
or with an error of the refresh after the commit. -/
inductive ImportEnd
  | done
  | refused (error : ImportError)
  | unrefreshed
deriving DecidableEq

structure Outcome (κ : Type) where
  tables : Tables κ
  ended : ImportEnd

/-- The answer to a request whose receipt is there. -/
def receiptVerdict (step : StepColumns) (request : ImportRequest) : ImportEnd :=
  match step.inputsHash, step.metadata, step.agent with
  | some digest, some receipt, some agent =>
    if digest ≠ request.inputDigest ∨ receipt ≠ request.receipt ∨ step.runID ≠ request.runID ∨
        step.phase ≠ "plan" ∨ agent ≠ "reviewed-plan-import" ∨ step.status ≠ "completed" then
      .refused .receiptConflicts
    else .done
  | _, _, _ => .refused .unreadableReceipt

/-- `importReviewedPlan`; what is returned before the commit is rolled back. -/
def importReviewedPlan (answers : ImportAnswers) (request : ImportRequest) (rows : ReviewedRows)
    (validateOnly : Bool) (tables : Tables κ) : Outcome κ :=
  if answers.interrupted then ⟨tables, .refused .interrupted⟩
  else
    match (if validateOnly then none else tables.steps.get? request.stepID) with
    | some step => ⟨tables, receiptVerdict step request⟩
    | none =>
      match importRows fresh rows tables with
      | .error refusal => ⟨tables, .refused refusal⟩
      | .ok written =>
        if validateOnly then ⟨tables, .done⟩
        else if request.runID ∉ tables.runs then ⟨tables, .refused .foreignKey⟩
        else
          { tables := { written with steps := written.steps.put request.step }
            ended := if answers.refreshes then .done else .unrefreshed }

def validatePlanIdentities (answers : ImportAnswers) (rows : ReviewedRows) (tables : Tables κ) :
    Outcome κ :=
  importReviewedPlan fresh answers ⟨"", "", "", ""⟩ rows true tables

end OpenExec.ReviewedImport
