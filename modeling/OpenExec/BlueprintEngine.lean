import OpenExec.GuardedRuns
import OpenExec.KeyedRows

/-!
# The blueprint engine

A blueprint is a graph of stages with an edge for success and one for failure.
`Engine.Execute` walks it: each round of its loop asks an executor to run the
current stage, records the result and follows an edge, within the retry limits.
The executor and the context are the engine's surroundings, so a round takes
their answer as its action.
-/

namespace OpenExec.BlueprintEngine

open KeyedRows Option

inductive StageStatus
  | pending
  | running
  | completed
  | failed
  | skipped
  deriving DecidableEq

structure Stage where
  name : String
  maxRetries : Int := 0
  onSuccess : String := ""
  onFailure : String := ""
  createCheckpoint : Bool := false

variable {stage : Stage}

def Stage.isTerminal (stage : Stage) : Bool :=
  stage.onSuccess == "" || stage.onSuccess == "complete"

theorem Stage.isTerminal_iff :
    stage.isTerminal = true ↔ stage.onSuccess = "" ∨ stage.onSuccess = "complete" := by
  simp [isTerminal]

theorem Stage.isTerminal_eq_false_iff :
    stage.isTerminal = false ↔ stage.onSuccess ≠ "" ∧ stage.onSuccess ≠ "complete" := by
  simp [isTerminal]

/-- A blueprint keeps its stages under keys of their own; a stage's `name` is a
field that nothing ties to the key. -/
structure Blueprint where
  id : String
  name : String
  stages : Table (Prod.fst : String × Stage → String)
  initialStage : String

namespace Blueprint

variable (blueprint : Blueprint)

def getStage (name : String) : Option Stage :=
  (blueprint.stages.get? name).map Prod.snd

def quoted (name : String) : String := "\"" ++ name ++ "\""

def referenceError (entry : String × Stage) : Option String :=
  if entry.2.onSuccess ≠ "" ∧ entry.2.onSuccess ≠ "complete" ∧
      (blueprint.getStage entry.2.onSuccess).isNone then
    some ("stage " ++ quoted entry.1 ++ " references unknown OnSuccess stage " ++
      quoted entry.2.onSuccess)
  else if entry.2.onFailure ≠ "" ∧ (blueprint.getStage entry.2.onFailure).isNone then
    some ("stage " ++ quoted entry.1 ++ " references unknown OnFailure stage " ++
      quoted entry.2.onFailure)
  else none

def validate : Option String :=
  if blueprint.id = "" then some "blueprint ID is required"
  else if blueprint.name = "" then some "blueprint name is required"
  else if blueprint.initialStage = "" then some "initial stage is required"
  else if (blueprint.getStage blueprint.initialStage).isNone then
    some ("initial stage " ++ quoted blueprint.initialStage ++ " not found in stages")
  else blueprint.stages.rows.findSome? blueprint.referenceError

/-- The stage a completed stage hands over to. -/
def SuccessEdge (first second : String) : Prop :=
  ∃ stage, blueprint.getStage first = some stage ∧ stage.onSuccess = second

/-- What `Validate` accepts: every edge ends at a stage or is no edge at all. -/
structure Connected (blueprint : Blueprint) : Prop where
  initialNamed : blueprint.initialStage ≠ ""
  initialStage : ∃ stage, blueprint.getStage blueprint.initialStage = some stage
  success : ∀ {name stage}, blueprint.getStage name = some stage → stage.isTerminal = false →
    ∃ next, blueprint.getStage stage.onSuccess = some next
  failure : ∀ {name stage}, blueprint.getStage name = some stage → stage.onFailure ≠ "" →
    ∃ next, blueprint.getStage stage.onFailure = some next

variable {blueprint : Blueprint}

theorem getStage_mem {name : String} (found : blueprint.getStage name = some stage) :
    (name, stage) ∈ blueprint.stages.rows := by
  obtain ⟨⟨key, kept⟩, row, rfl⟩ := map_eq_some_iff.mp found
  obtain rfl : key = name := row?_key row
  exact row?_mem row

theorem connected_of_validate (valid : blueprint.validate = none) : blueprint.Connected := by
  unfold validate at valid
  iterate 3
    split at valid
    · cases valid
  next initialNamed =>
  split at valid
  · cases valid
  next initialFound =>
  have references : ∀ {name stage}, blueprint.getStage name = some stage →
      blueprint.referenceError (name, stage) = none := fun found =>
    List.findSome?_eq_none_iff.mp valid _ (getStage_mem found)
  have known : ∀ {name : String}, ¬ (blueprint.getStage name).isNone →
      ∃ stage, blueprint.getStage name = some stage := by
    intro name present
    exact ne_none_iff_exists'.mp (by simpa using present)
  refine ⟨initialNamed, known initialFound, ?_, ?_⟩
  · intro name stage found goesOn
    apply known
    intro missing
    have reference := references found
    obtain ⟨present, named⟩ := Stage.isTerminal_eq_false_iff.mp goesOn
    simp [referenceError, present, named, missing] at reference
  · intro name stage found recovers
    apply known
    intro missing
    have reference := references found
    unfold referenceError at reference
    split at reference
    · cases reference
    · simp [recovers, missing] at reference

end Blueprint

def defaultBlueprint : Blueprint where
  id := "standard_task"
  name := "Standard Task"
  stages :=
    { rows :=
        [("gather_context",
            { name := "gather_context", onSuccess := "implement", createCheckpoint := true }),
          ("implement",
            { name := "implement", maxRetries := 3, onSuccess := "generate_contract_tests"
              onFailure := "implement" }),
          ("generate_contract_tests",
            { name := "generate_contract_tests", onSuccess := "lint", onFailure := "lint" }),
          ("lint", { name := "lint", onSuccess := "test", onFailure := "fix_lint" }),
          ("fix_lint", { name := "fix_lint", maxRetries := 2, onSuccess := "lint" }),
          ("test",
            { name := "test", onSuccess := "production_readiness_check"
              onFailure := "fix_tests" }),
          ("fix_tests", { name := "fix_tests", maxRetries := 2, onSuccess := "test" }),
          ("production_readiness_check",
            { name := "production_readiness_check", onSuccess := "review"
              onFailure := "review" }),
          ("review", { name := "review", onSuccess := "complete", createCheckpoint := true })]
      unique := by decide }
  initialStage := "gather_context"

def quickFixBlueprint : Blueprint where
  id := "quick_fix"
  name := "Quick Fix"
  stages :=
    { rows :=
        [("implement", { name := "implement", maxRetries := 2, onSuccess := "verify" }),
          ("verify", { name := "verify", onSuccess := "complete" })]
      unique := by decide }
  initialStage := "implement"

structure StageResult where
  stageName : String
  status : StageStatus
  attempt : Nat
  error : String := ""
  deriving DecidableEq

variable {result : StageResult}

namespace StageResult

def newStageResult (stageName : String) (attempt : Nat) : StageResult where
  stageName := stageName
  status := .running
  attempt := attempt

def fail (result : StageResult) (err : String) : StageResult :=
  { result with status := .failed, error := err }

variable (result : Option StageResult)

def failedStageResult (name : String) (attempt : Nat) (err : String) : StageResult :=
  match result with
  | none => (newStageResult name attempt).fail err
  | some result =>
    { result with
      status := .failed
      error := if result.error = "" then err else result.error }

theorem failedStageResult_status (name : String) (attempt : Nat)
    (err : String) : (failedStageResult result name attempt err).status = .failed := by
  cases result <;> rfl

end StageResult

inductive RunStatus
  | pending
  | running
  | paused
  | completed
  | failed
  | cancelled
  deriving DecidableEq

structure Run where
  id : String
  blueprintID : String
  status : RunStatus
  currentStage : String
  stageRetries : String → Nat
  results : List StageResult
  error : String
  checkpoints : List String

namespace Run

def newRun (id blueprintID initialStage : String) : Run where
  id := id
  blueprintID := blueprintID
  status := .pending
  currentStage := initialStage
  stageRetries := fun _ => 0
  results := []
  error := ""
  checkpoints := []

variable (run : Run)

def addResult (result : StageResult) : Run :=
  { run with results := run.results ++ [result] }

def getRetries (stageName : String) : Nat :=
  run.stageRetries stageName

def incrementRetries (stageName : String) : Run :=
  { run with stageRetries := fun name =>
      if name = stageName then run.stageRetries name + 1 else run.stageRetries name }

def addCheckpoint : Run :=
  { run with checkpoints := run.checkpoints ++ [run.currentStage] }

def complete : Run :=
  { run with status := .completed }

def fail (err : String) : Run :=
  { run with status := .failed, error := err }

def cancel : Run :=
  { run with status := .cancelled }

end Run

structure EngineConfig where
  maxTotalRetries : Int

def defaultEngineConfig : EngineConfig := ⟨10⟩

def startRun (blueprint : Blueprint) (runID : String) : Run :=
  { Run.newRun runID blueprint.id blueprint.initialStage with status := .running }

inductive Returned
  | ok
  | cancelled
  | error (text : String)
  deriving DecidableEq

/-- `Execute` at the head of its loop, or returned. -/
structure Execution where
  run : Run
  previousStages : List StageResult
  totalRetries : Nat
  returned : Option Returned

/-- What the surroundings answer in one round: the context is done, or the
executor gives a result, or an error with or without one. -/
inductive Answer
  | cancelled
  | answered (result : StageResult)
  | erred (result : Option StageResult) (err : String)
  deriving DecidableEq

def Answer.Settled : Answer → Prop
  | .answered result => result.status = .completed ∨ result.status = .failed
  | _ => True

instance (answer : Answer) : Decidable answer.Settled := by
  cases answer <;> unfold Answer.Settled <;> infer_instance

/-- The result the engine records, unless the context is done. -/
def Answer.recorded (stage : Stage) (attempt : Nat) : Answer → Option StageResult
  | .cancelled => none
  | .answered result => some result
  | .erred result err => some (StageResult.failedStageResult result stage.name attempt err)

namespace Execution

variable (execution : Execution)

/-- The loop's condition: a run whose current stage is `complete` or empty is
completed. -/
def atHead : Execution :=
  if execution.run.currentStage ≠ "complete" ∧ execution.run.currentStage ≠ "" then execution
  else { execution with run := execution.run.complete, returned := some .ok }

def fail (err returned : String) : Execution :=
  { execution with run := execution.run.fail err, returned := some (.error returned) }

def notFound : Execution :=
  execution.fail ("stage " ++ Blueprint.quoted execution.run.currentStage ++ " not found")
    ("stage " ++ Blueprint.quoted execution.run.currentStage ++ " not found")

def cancel : Execution :=
  { execution with run := execution.run.cancel, returned := some .cancelled }

def record (result : StageResult) : Execution :=
  { execution with
    run := execution.run.addResult result
    previousStages := execution.previousStages ++ [result] }

def moveTo (next : String) : Execution :=
  { execution with run := { execution.run with currentStage := next } }

def checkpoint (stage : Stage) : Execution :=
  if stage.createCheckpoint then { execution with run := execution.run.addCheckpoint }
  else execution

def retry (stage : Stage) : Execution :=
  { execution with
    run := execution.run.incrementRetries stage.name
    totalRetries := execution.totalRetries + 1 }

variable {execution : Execution}

theorem atHead_going (named : execution.run.currentStage ≠ "complete")
    (present : execution.run.currentStage ≠ "") : execution.atHead = execution :=
  if_pos ⟨named, present⟩

theorem atHead_done
    (ended : execution.run.currentStage = "complete" ∨ execution.run.currentStage = "") :
    execution.atHead = { execution with run := execution.run.complete, returned := some .ok } := by
  apply if_neg
  rintro ⟨named, present⟩
  exact ended.elim named present

theorem atHead_cases : (execution.run.currentStage ≠ "complete" ∧ execution.run.currentStage ≠ "") ∨
      execution.run.currentStage = "complete" ∨ execution.run.currentStage = "" := by
  by_cases named : execution.run.currentStage = "complete"
  · exact .inr (.inl named)
  · by_cases present : execution.run.currentStage = ""
    · exact .inr (.inr present)
    · exact .inl ⟨named, present⟩

@[simp] theorem atHead_results : execution.atHead.run.results = execution.run.results := by
  unfold atHead
  split <;> rfl

@[simp] theorem atHead_previousStages :
    execution.atHead.previousStages = execution.previousStages := by
  unfold atHead
  split <;> rfl

@[simp] theorem atHead_totalRetries : execution.atHead.totalRetries = execution.totalRetries := by
  unfold atHead
  split <;> rfl

@[simp] theorem atHead_stageRetries :
    execution.atHead.run.stageRetries = execution.run.stageRetries := by
  unfold atHead
  split <;> rfl

variable (stage : Stage)

@[simp] theorem checkpoint_results :
    (execution.checkpoint stage).run.results = execution.run.results := by
  unfold checkpoint
  split <;> rfl

@[simp] theorem checkpoint_previousStages :
    (execution.checkpoint stage).previousStages = execution.previousStages := by
  unfold checkpoint
  split <;> rfl

@[simp] theorem checkpoint_totalRetries :
    (execution.checkpoint stage).totalRetries = execution.totalRetries := by
  unfold checkpoint
  split <;> rfl

@[simp] theorem checkpoint_stageRetries :
    (execution.checkpoint stage).run.stageRetries = execution.run.stageRetries := by
  unfold checkpoint
  split <;> rfl

@[simp] theorem checkpoint_returned :
    (execution.checkpoint stage).returned = execution.returned := by
  unfold checkpoint
  split <;> rfl

@[simp] theorem checkpoint_status :
    (execution.checkpoint stage).run.status = execution.run.status := by
  unfold checkpoint
  split <;> rfl

def handle (config : EngineConfig) (stage : Stage) (result : StageResult)
    (execution : Execution) : Execution :=
  match result.status with
  | .completed => ((execution.checkpoint stage).moveTo stage.onSuccess).atHead
  | .failed =>
    if stage.onFailure ≠ "" ∧ (execution.run.getRetries stage.name : Int) < stage.maxRetries then
      if config.maxTotalRetries < ((execution.totalRetries + 1 : Nat) : Int) then
        (execution.retry stage).fail "exceeded maximum total retries"
          "exceeded maximum total retries"
      else ((execution.retry stage).moveTo stage.onFailure).atHead
    else
      execution.fail result.error
        ("stage " ++ Blueprint.quoted stage.name ++ " failed: " ++ result.error)
  | _ => execution

end Execution

/-- One stage the engine executed: the key it was found under, the recorded
result, and whether the engine went on along its failure edge. -/
structure ExecutedStage where
  key : String
  stage : Stage
  result : StageResult
  recovered : Bool

/-- An execution together with the stages it has executed. -/
structure Account where
  execution : Execution
  executed : List ExecutedStage

def recovers (config : EngineConfig) (stage : Stage) (result : StageResult)
    (execution : Execution) : Bool :=
  result.status = .failed ∧ stage.onFailure ≠ "" ∧
    (execution.run.getRetries stage.name : Int) < stage.maxRetries ∧
    ((execution.totalRetries + 1 : Nat) : Int) ≤ config.maxTotalRetries

/-- One round of the loop of `Execute`. -/
def round (blueprint : Blueprint) (config : EngineConfig) (account : Account) (answer : Answer) :
    Option Account :=
  if account.execution.returned.isSome then none
  else if answer = .cancelled then some { account with execution := account.execution.cancel }
  else
    match blueprint.getStage account.execution.run.currentStage with
    | none => some { account with execution := account.execution.notFound }
    | some stage =>
      (answer.recorded stage (account.execution.run.getRetries stage.name + 1)).map fun result =>
        { execution := (account.execution.record result).handle config stage result
          executed := account.executed ++
            [⟨account.execution.run.currentStage, stage, result,
              recovers config stage result (account.execution.record result)⟩] }

def opened (blueprint : Blueprint) (runID : String) : Account where
  execution := Execution.atHead
    { run := startRun blueprint runID
      previousStages := []
      totalRetries := 0
      returned := none }
  executed := []

/-- The engine records a result for the executor's answer at a stage. -/
def Account.Records (account : Account) (answer : Answer) (stage : Stage)
    (result : StageResult) : Prop :=
  answer.recorded stage (account.execution.run.getRetries stage.name + 1) = some result

inductive Round (blueprint : Blueprint) (config : EngineConfig) (account : Account) :
    Answer → Account → Prop
  | cancelled : Round blueprint config account .cancelled
      { account with execution := account.execution.cancel }
  | missing {answer : Answer} (live : answer ≠ .cancelled)
      (absent : blueprint.getStage account.execution.run.currentStage = none) :
      Round blueprint config account answer
        { account with execution := account.execution.notFound }
  | completed {answer : Answer} {stage : Stage} {result : StageResult}
      (recorded : account.Records answer stage result)
      (found : blueprint.getStage account.execution.run.currentStage = some stage)
      (status : result.status = .completed) :
      Round blueprint config account answer
        ⟨(((account.execution.record result).checkpoint stage).moveTo stage.onSuccess).atHead,
          account.executed ++ [⟨account.execution.run.currentStage, stage, result, false⟩]⟩
  | recovered {answer : Answer} {stage : Stage} {result : StageResult}
      (recorded : account.Records answer stage result)
      (found : blueprint.getStage account.execution.run.currentStage = some stage)
      (status : result.status = .failed) (leads : stage.onFailure ≠ "")
      (stageLimit : (account.execution.run.getRetries stage.name : Int) < stage.maxRetries)
      (totalLimit : ((account.execution.totalRetries + 1 : Nat) : Int) ≤ config.maxTotalRetries) :
      Round blueprint config account answer
        ⟨(((account.execution.record result).retry stage).moveTo stage.onFailure).atHead,
          account.executed ++ [⟨account.execution.run.currentStage, stage, result, true⟩]⟩
  | exhausted {answer : Answer} {stage : Stage} {result : StageResult}
      (recorded : account.Records answer stage result)
      (found : blueprint.getStage account.execution.run.currentStage = some stage)
      (status : result.status = .failed) (err : String) :
      Round blueprint config account answer
        ⟨((account.execution.record result).retry stage).fail err err,
          account.executed ++ [⟨account.execution.run.currentStage, stage, result, false⟩]⟩
  | failed {answer : Answer} {stage : Stage} {result : StageResult}
      (recorded : account.Records answer stage result)
      (found : blueprint.getStage account.execution.run.currentStage = some stage)
      (status : result.status = .failed) (err returned : String) :
      Round blueprint config account answer
        ⟨(account.execution.record result).fail err returned,
          account.executed ++ [⟨account.execution.run.currentStage, stage, result, false⟩]⟩
  | ignored {answer : Answer} {stage : Stage} {result : StageResult}
      (recorded : account.Records answer stage result)
      (found : blueprint.getStage account.execution.run.currentStage = some stage)
      (completed : result.status ≠ .completed) (failed : result.status ≠ .failed) :
      Round blueprint config account answer
        ⟨account.execution.record result,
          account.executed ++ [⟨account.execution.run.currentStage, stage, result, false⟩]⟩

variable {blueprint : Blueprint} {config : EngineConfig} {account next : Account} {answer : Answer}

theorem returned_none_of_round (taken : round blueprint config account answer = some next) :
    account.execution.returned = none := by
  unfold round at taken
  split at taken
  · cases taken
  · next going => simpa using going

theorem round_isSome (going : account.execution.returned = none) :
    (round blueprint config account answer).isSome := by
  unfold round
  simp only [going, isSome_none, Bool.false_eq_true, if_false]
  split
  · rfl
  next live =>
  split
  · rfl
  cases answer with
  | cancelled => exact absurd rfl live
  | answered result => rfl
  | erred result err => rfl

theorem round_handled (recorded : account.Records answer stage result)
    (found : blueprint.getStage account.execution.run.currentStage = some stage) :
    Round blueprint config account answer
      ⟨(account.execution.record result).handle config stage result,
        account.executed ++ [⟨account.execution.run.currentStage, stage, result,
          recovers config stage result (account.execution.record result)⟩]⟩ := by
  by_cases completed : result.status = .completed
  · have stays : recovers config stage result (account.execution.record result) = false := by
      simp [recovers, completed]
    rw [stays]
    unfold Execution.handle
    simp only [completed]
    exact .completed recorded found completed
  by_cases failed : result.status = .failed
  · by_cases leads : stage.onFailure ≠ "" ∧
        ((account.execution.record result).run.getRetries stage.name : Int) < stage.maxRetries
    · by_cases beyond : config.maxTotalRetries <
          (((account.execution.record result).totalRetries + 1 : Nat) : Int)
      · have stays : recovers config stage result (account.execution.record result) = false := by
          simp only [recovers, decide_eq_false_iff_not]
          exact fun holds => absurd holds.2.2.2 (Int.not_le.mpr beyond)
        rw [stays]
        unfold Execution.handle
        simp only [failed]
        rw [if_pos leads, if_pos beyond]
        exact .exhausted recorded found failed _
      · have within := Int.not_lt.mp beyond
        have goesOn : recovers config stage result (account.execution.record result) := by
          simp only [recovers, decide_eq_true_eq]
          exact ⟨failed, leads.1, leads.2, within⟩
        rw [goesOn]
        unfold Execution.handle
        simp only [failed]
        rw [if_pos leads, if_neg beyond]
        exact .recovered recorded found failed leads.1 leads.2 within
    · have stays : recovers config stage result (account.execution.record result) = false := by
        simp only [recovers, decide_eq_false_iff_not]
        exact fun holds => leads ⟨holds.2.1, holds.2.2.1⟩
      rw [stays]
      unfold Execution.handle
      simp only [failed]
      rw [if_neg leads]
      exact .failed recorded found failed _ _
  · have stays : recovers config stage result (account.execution.record result) = false := by
      simp [recovers, failed]
    have unchanged : (account.execution.record result).handle config stage result =
        account.execution.record result := by
      unfold Execution.handle
      split
      · next status => exact absurd status completed
      · next status => exact absurd status failed
      · rfl
    rw [stays, unchanged]
    exact .ignored recorded found completed failed

theorem round_spec (taken : round blueprint config account answer = some next) :
    Round blueprint config account answer next := by
  unfold round at taken
  split at taken
  · cases taken
  split at taken
  · next isCancelled =>
    cases taken
    rw [isCancelled]
    exact .cancelled
  next live =>
  split at taken
  · next absent =>
    cases taken
    exact .missing live absent
  · next stage found =>
    obtain ⟨result, recorded, rfl⟩ := map_eq_some_iff.mp taken
    exact round_handled recorded found

theorem Account.Records.live (recorded : account.Records answer stage result) :
    answer ≠ .cancelled := by
  rintro rfl
  simp [Account.Records, Answer.recorded] at recorded

theorem Account.Records.settled (recorded : account.Records answer stage result)
    (settled : answer.Settled) : result.status = .completed ∨ result.status = .failed := by
  cases answer with
  | cancelled => exact absurd rfl recorded.live
  | answered given =>
    cases recorded
    exact settled
  | erred given err =>
    cases recorded
    exact .inr (StageResult.failedStageResult_status _ _ _ _)

theorem Round.of_cancelled (taken : Round blueprint config account .cancelled next) :
    next = { account with execution := account.execution.cancel } := by
  cases taken with
  | cancelled => rfl
  | missing live absent => exact absurd rfl live
  | completed recorded found status
  | recovered recorded found status leads stageLimit totalLimit
  | exhausted recorded found status err | failed recorded found status err returned
  | ignored recorded found completed failed => exact absurd rfl recorded.live

end OpenExec.BlueprintEngine
