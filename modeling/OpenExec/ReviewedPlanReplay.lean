import OpenExec.GuardedRuns
import OpenExec.PlanContinuation

/-!
# Replaying a reviewed plan request

`replayReviewedPlan` of `pkg/manager/planner_replay.go` drives one planning
request through generation, review, refinement and import.  Every save of the
retained request and every archived review round is a durable write; the rest
of the state is lost when the replay ends.  A step of the machine below makes at
most one durable write, so an interruption between two steps is an interruption
between two writes.
-/

namespace OpenExec.Manager

open Planner Release KeyedRows

structure PlanReview where
  approved : Bool
  assessment : String := ""
  keyIssues : String := ""
  refactoringPlan : String := ""
deriving DecidableEq

structure PlanResult where
  plan : ProjectPlan
  valid : Bool := false
  issues : List String := []
  artifactHash : String
  artifactPath : String
  plannerBuild : String
  review : Option PlanReview := none
  reviewArtifactPath : String := ""
deriving DecidableEq

structure RetainedPlanRequest where
  requestID : String
  inputDigest : String
  result : Option PlanResult := none
  reviewRound : Nat := 0
  reviewLimit : Int := 0
  refinementAttempts : Nat := 0
  checkRepairs : Nat := 0
  schemaCorrection : String := ""
deriving DecidableEq

structure PlanRequest where
  requestID : String
  inputDigest : String
  autoImport : Bool

/-- The planner functions the replay consults; an error is its text. -/
structure PlanChecks where
  workDir : String
  validate : ProjectPlan → Option String
  planHash : ProjectPlan → String
  reviewHash : String → PlanReview → String
  deterministicPlanIssues : ProjectPlan → List String
  verificationPlanIssues : ProjectPlan → List String
  checkRepairInstruction : List String → String
  planStaleBaseRefError : ProjectPlan → Option String
  validatePlanIdentities : Ledger → ProjectPlan → Option String

def defaultMaxReviewCycles : Int := 3

def maxCheckRepairs : Nat := 2

inductive Refusal
  | identityConflict
  | planningLimit
  | planError (text : String)
  | ambiguousIDs
  | planNotPersisted
  | integrityMismatch
  | artifactPathMismatch
  | failedChecks (issues : List String)
  | failedRepairs (repairs : Nat) (issues : List String)
  | correctionSpent (diagnostic : String)
  | approvedReview
  | refinedNotPersisted
  | unchangedPlan
  | evidenceMismatch
  | refinementLimit
  | historyConflict
deriving DecidableEq

section

variable (checks : PlanChecks)

def artifactPath (hash : String) : String :=
  checks.workDir ++ "/.openexec/artifacts/plans/" ++ hash ++ ".json"

def reviewArtifactPath (hash : String) (review : PlanReview) : String :=
  checks.workDir ++ "/.openexec/artifacts/plans/" ++ checks.reviewHash hash review ++ ".review.json"

def unreviewedResult (build : String) (plan : ProjectPlan) : PlanResult where
  plan := plan
  artifactHash := checks.planHash plan
  artifactPath := artifactPath checks (checks.planHash plan)
  plannerBuild := build

def PlanResult.judged (result : PlanResult) (review : PlanReview) : PlanResult :=
  { result with
    review := some review
    valid := review.approved
    issues := if review.approved then result.issues else [review.assessment]
    reviewArtifactPath := Manager.reviewArtifactPath checks result.artifactHash review }

def integrityRefusal (result : PlanResult) : Option Refusal :=
  if (checks.validate result.plan).isSome ∨ result.artifactHash ≠ checks.planHash result.plan then
    some .integrityMismatch
  else if result.artifactPath ≠ Manager.artifactPath checks result.artifactHash then
    some .artifactPathMismatch
  else none

end

def staleRefusal (build : String) (result : Option PlanResult) : Bool :=
  match result with
  | none => false
  | some result =>
    match result.review with
    | none => false
    | some review => !review.approved && build ≠ "" && result.plannerBuild ≠ build

/-- The archived form: dispatch accounting is left out. -/
def RetainedPlanRequest.archived (retained : RetainedPlanRequest) : RetainedPlanRequest :=
  { retained with refinementAttempts := 0, schemaCorrection := "" }

def dropUnknownGoals (ledger : Ledger) (plan : ProjectPlan) : ProjectPlan :=
  { plan with
    stories := plan.stories.map fun story : Planner.Story =>
      if story.goalID ≠ "" ∧ story.goalID ∉ plan.goals.map Planner.Goal.id ∧
          ledger.getGoal story.goalID = none then
        { story with goalID := "" }
      else story }

def importedAfterFix : PlanReview where
  approved := true
  assessment := "Imported after one review and one fix: the planner refined the plan the review " ++
    "rejected, and the refined plan is not reviewed again."

/-- Where a replay stands between two durable writes. -/
inductive ReplayPoint
  | opened
  | generating
  | looping
  | reviewing
  | refining (repair : Bool) (review : PlanReview)
  | advancing
  | reviewed
  | archiving
  | deciding
deriving DecidableEq

structure Replay where
  build : String
  maxReviewCycles : Int
  point : ReplayPoint
  retained : RetainedPlanRequest

inductive PlanEvent
  | generated (plan : ProjectPlan)
  | reviewed (plan : ProjectPlan) (review : PlanReview)
  | refined (base : ProjectPlan) (review : PlanReview) (plan : ProjectPlan)
  | repaired (base plan : ProjectPlan)
  | imported (plan : ProjectPlan)
  | refused (refusal : Refusal)
deriving DecidableEq

structure Planning where
  row : Option RetainedPlanRequest := none
  archive : List (Nat × RetainedPlanRequest) := []
  replay : Option Replay := none
  log : List PlanEvent := []

/-- What drives a replay: the caller, the planner's and the reviewer's answers,
the replay's own next step, and whatever ends it early (a crash, a cancelled
context, a failed write, an adapter error, unreadable evidence). -/
inductive PlanAction
  | start (build : String) (maxReviewCycles : Int)
  | proceed
  | generate (answer : ProjectPlan) (ledger : Ledger)
  | review (answer : PlanReview)
  | correct (diagnostic : String)
  | refine (answer : ProjectPlan) (ledger : Ledger)
  | interrupt

namespace Planning

variable (state : Planning)

def record (event : PlanEvent) : Planning :=
  { state with log := state.log ++ [event] }

def save (replay : Replay) : Planning :=
  { state with row := some replay.retained, replay := some replay }

def resume (replay : Replay) : Planning :=
  { state with replay := some replay }

def finish : Planning :=
  { state with replay := none }

def refuse (refusal : Refusal) : Planning :=
  (state.record (.refused refusal)).finish

end Planning

variable (checks : PlanChecks) (request : PlanRequest) (state : Planning)

def openRequest (build : String) (maxReviewCycles : Int) : Planning :=
  match state.row with
  | some retained =>
    if retained.requestID = request.requestID ∧ retained.inputDigest = request.inputDigest then
      state.resume { build, maxReviewCycles, point := .opened, retained }
    else state.refuse .identityConflict
  | none =>
    let limit := if maxReviewCycles = 0 then defaultMaxReviewCycles else maxReviewCycles
    if limit < 1 then state.refuse .planningLimit
    else
      state.save
        { build, maxReviewCycles
          point := .opened
          retained :=
            { requestID := request.requestID
              inputDigest := request.inputDigest
              reviewRound := 1
              reviewLimit := limit } }

variable (replay : Replay)

/-- A stale refusal is dropped and planned again as the next round. -/
def resetStaleRefusal : Planning :=
  let retained := replay.retained
  if staleRefusal replay.build retained.result then
    state.save
      { replay with
        point := .generating
        retained :=
          { retained with
            result := none
            schemaCorrection := ""
            reviewRound := retained.reviewRound + 1 } }
  else
    state.resume
      { replay with point := if retained.result = none then .generating else .looping }

/-- The plan as it is kept: on import its identifiers are prepared first. -/
def preparedPlan (ledger : Ledger) (plan : ProjectPlan) : Option ProjectPlan :=
  if request.autoImport then preparePlanIDs ledger plan else some plan

def acceptGenerated (answer : ProjectPlan) (ledger : Ledger) : Planning :=
  match checks.validate answer with
  | some error => state.refuse (.planError error)
  | none =>
    match preparedPlan request ledger answer with
    | none => state.refuse .ambiguousIDs
    | some plan =>
      if (checks.validate plan).isSome then state.refuse .planNotPersisted
      else
        (state.record (.generated plan)).save
          { replay with
            point := .looping
            retained :=
              { replay.retained with
                result := some (unreviewedResult checks replay.build plan) } }

variable (result : PlanResult)

/-- What the checks find in a plan that is not reviewed again. -/
def checkFixedPlan : Planning :=
  let retained := replay.retained
  let issues := checks.deterministicPlanIssues result.plan
  if issues ≠ [] then
    if (checks.verificationPlanIssues result.plan).length ≠ issues.length then
      state.refuse (.failedChecks issues)
    else if maxCheckRepairs ≤ retained.checkRepairs then
      state.refuse (.failedRepairs retained.checkRepairs issues)
    else
      state.save
        { replay with
          point := .refining true
            { approved := false, assessment := checks.checkRepairInstruction issues }
          retained := { retained with checkRepairs := retained.checkRepairs + 1 } }
  else
    state.save
      { replay with
        point := .reviewed
        retained := { retained with result := some (result.judged checks importedAfterFix) } }

/-- The head of the loop: check the evidence, then see who judges the plan. -/
def examineCurrent : Planning :=
  match integrityRefusal checks result with
  | some refusal => state.refuse refusal
  | none =>
    if result.review.isSome then state.resume { replay with point := .reviewed }
    else if 1 ≤ replay.retained.refinementAttempts then
      checkFixedPlan checks state replay result
    else state.resume { replay with point := .reviewing }

variable (review : PlanReview)

def acceptReview : Planning :=
  (state.record (.reviewed result.plan review)).save
    { replay with
      point := .reviewed
      retained := { replay.retained with result := some (result.judged checks review) } }

/-- The single schema correction is saved before it is asked for. -/
def admitCorrection (diagnostic : String) : Planning :=
  if replay.retained.schemaCorrection ≠ "" then state.refuse (.correctionSpent diagnostic)
  else
    state.save
      { replay with retained := { replay.retained with schemaCorrection := diagnostic } }

/-- The refined plan as it becomes current, or why it does not. -/
def refinedPlan (repair : Bool) (answer : ProjectPlan) (ledger : Ledger) :
    Except Refusal ProjectPlan :=
  match checks.validate answer with
  | some error => .error (.planError error)
  | none =>
    if request.autoImport then
      match (if repair then none else checks.planStaleBaseRefError answer) with
      | some error => .error (.planError error)
      | none =>
        match preparePlanIDs ledger (dropUnknownGoals ledger answer) with
        | none => .error .ambiguousIDs
        | some plan =>
          match checks.validatePlanIdentities ledger plan with
          | some error => .error (.planError error)
          | none => .ok plan
    else .ok answer

def acceptRefined (repair : Bool)
    (review : PlanReview) (answer : ProjectPlan) (ledger : Ledger) : Planning :=
  if review.approved then state.refuse .approvedReview
  else
    match refinedPlan checks request repair answer ledger with
    | .error refusal => state.refuse refusal
    | .ok plan =>
      if (checks.validate plan).isSome then state.refuse .refinedNotPersisted
      else if checks.planHash plan = result.artifactHash then state.refuse .unchangedPlan
      else
        (state.record (if repair then .repaired result.plan plan
            else .refined result.plan review plan)).save
          { replay with
            point := if repair then .looping else .advancing
            retained :=
              { replay.retained with
                result := some (unreviewedResult checks replay.build plan) } }

/-- After a refinement the round advances by a write of its own. -/
def advanceRound : Planning :=
  state.save
    { replay with
      point := .looping
      retained := { replay.retained with reviewRound := replay.retained.reviewRound + 1 } }

def settleRound : Planning :=
  if result.reviewArtifactPath ≠ reviewArtifactPath checks result.artifactHash review ∨
      result.valid ≠ review.approved then
    state.refuse .evidenceMismatch
  else
    let retained :=
      if replay.retained.reviewRound = 0 then { replay.retained with reviewRound := 1 }
      else replay.retained
    if retained.reviewLimit = 0 ∧ result.valid = false then
      let limit :=
        if replay.maxReviewCycles = 0 then defaultMaxReviewCycles else replay.maxReviewCycles
      if limit < 1 then state.refuse .refinementLimit
      else
        state.save
          { replay with point := .archiving, retained := { retained with reviewLimit := limit } }
    else state.resume { replay with point := .archiving, retained }

/-- Insert the round's record, or compare it with the one already there. -/
def archivePlanReview : Planning :=
  let retained := replay.retained
  match row? Prod.fst state.archive retained.reviewRound with
  | none =>
    { state with
      archive := (retained.reviewRound, retained.archived) :: state.archive
      replay := some { replay with point := .deciding } }
  | some entry =>
    if entry.2 = retained.archived then state.resume { replay with point := .deciding }
    else state.refuse .historyConflict

/-- The retained review limit, lowered by the current configuration. -/
def reviewCycles : Int :=
  if 0 < replay.maxReviewCycles ∧ replay.maxReviewCycles < replay.retained.reviewLimit then
    replay.maxReviewCycles
  else replay.retained.reviewLimit

/-- Refine a rejected plan while attempts are left; import an accepted one. -/
def decideOutcome : Planning :=
  let attempts := max replay.retained.refinementAttempts (replay.retained.reviewRound - 1)
  if result.valid = false ∧ (attempts : Int) < reviewCycles replay - 1 then
    state.save
      { replay with
        point := .refining false review
        retained := { replay.retained with refinementAttempts := attempts + 1 } }
  else if request.autoImport ∧ result.valid then
    match checks.planStaleBaseRefError result.plan with
    | some error => state.refuse (.planError error)
    | none => (state.record (.imported result.plan)).finish
  else state.finish

/-- The steps that need no answer from outside. -/
def proceedReplay : Option Planning :=
  match replay.point, replay.retained.result with
  | .opened, _ => some (resetStaleRefusal state replay)
  | .looping, some result => some (examineCurrent checks state replay result)
  | .advancing, _ => some (advanceRound state replay)
  | .reviewed, some result => result.review.map (settleRound checks state replay result)
  | .archiving, _ => some (archivePlanReview state replay)
  | .deciding, some result => result.review.map (decideOutcome checks request state replay result)
  | _, _ => none

def stepReplay : PlanAction → Option Planning
  | .start _ _ => none
  | .proceed => proceedReplay checks request state replay
  | .generate answer ledger =>
    if replay.point = .generating then
      some (acceptGenerated checks request state replay answer ledger)
    else none
  | .review answer =>
    match replay.point, replay.retained.result with
    | .reviewing, some result => some (acceptReview checks state replay result answer)
    | _, _ => none
  | .correct diagnostic =>
    match replay.point with
    | .refining _ _ => some (admitCorrection state replay diagnostic)
    | _ => none
  | .refine answer ledger =>
    match replay.point, replay.retained.result with
    | .refining repair review, some result =>
      some (acceptRefined checks request state replay result repair review answer ledger)
    | _, _ => none
  | .interrupt => some state.finish

def stepPlanning (action : PlanAction) : Option Planning :=
  match state.replay, action with
  | none, .start build maxReviewCycles =>
    some (openRequest request state build maxReviewCycles)
  | none, _ => none
  | some replay, action => stepReplay checks request state replay action

end OpenExec.Manager
