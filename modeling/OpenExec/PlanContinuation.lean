import OpenExec.PlanRemapping
import Mathlib.Data.List.Sort

/-!
# Continuing retained work

`ContinueRetainedWork` of `internal/planner/continue_retained.go` makes a
re-plan carry the persisted copy of every story it changes, and
`preparePlanIDs` runs it before the remapper.
-/

namespace OpenExec.Planner

open FiniteRenaming Release

variable (ledger : Ledger)

def ledgerGoal (id : String) : Option Goal :=
  (ledger.getGoal id).map fun goal =>
    { id := goal.id
      title := goal.title
      description := goal.description
      successCriteria := goal.successCriteria
      verificationMethod := goal.verificationMethod }

def retainedTask (task : Release.Task) : Task where
  id := task.id
  title := task.title
  description := task.description
  dependsOn := task.dependsOn
  mode := task.metadata.mode.getD ""
  decisionReason := task.metadata.decisionReason.getD ""
  decisionRef := task.metadata.decisionRef.getD ""
  verificationScript := task.verificationScript
  allowedPaths := task.metadata.allowedPaths

def ledgerStory (id : String) : Option Story :=
  (ledger.getStory id).bind fun story =>
    (story.tasks.mapM ledger.getTask).map fun tasks =>
      { id := story.id
        goalID := story.goalID
        title := story.title
        description := story.description
        acceptanceCriteria := story.acceptanceCriteria
        verificationScript := story.verificationScript
        contract := story.contract
        dependsOn := story.dependsOn
        tasks := tasks.map retainedTask }

def taskStory (id : String) : Option String :=
  (ledger.getTask id).map Release.Task.storyID

/-- The continued stories in the order they were kept. -/
abbrev Kept := List Story

def Kept.story? (kept : Kept) (id : String) : Option Story :=
  kept.find? fun story => story.id = id

def keep (kept : Kept) (storyID : String) : Kept :=
  if (kept.story? storyID).isSome then kept
  else
    match ledgerStory ledger storyID with
    | none => kept
    | some story => kept ++ [story]

def keepTaskStory (conflicts : String → Bool) (storyID : String) (kept : Kept)
    (task : Task) : Kept :=
  match taskStory ledger task.id with
  | some owner => if conflicts task.id ∧ owner ≠ storyID then keep ledger kept owner else kept
  | none => kept

def keepStory (conflicts : String → Bool) (kept : Kept) (story : Story) : Kept :=
  let kept := story.tasks.foldl (keepTaskStory ledger conflicts story.id) kept
  if conflicts story.id || story.tasks.any fun task => conflicts task.id then
    keep ledger kept story.id
  else kept

variable (plan : ProjectPlan)

/-- The conflict map of the incoming plan, which continues nothing yet. -/
def incomingConflicts : String → Bool :=
  reviewedIdentityConflicts ledger { plan with continues := [] }

def keptStories : Kept :=
  plan.stories.foldl (keepStory ledger (incomingConflicts ledger plan)) []

def retainedStory (kept : Kept) (taskID : String) : Option String :=
  (kept.reverse.find? fun story => taskID ∈ story.tasks.map Task.id).map Story.id

structure ContinuationState where
  continued : Kept
  used : List String
  refs : Refs
  emitted : List String
  stories : List Story

variable (state : ContinuationState)

def ContinuationState.emit (id : String) : ContinuationState :=
  if id ∈ state.emitted then state
  else
    { state with
      emitted := id :: state.emitted
      stories := state.stories ++ (state.continued.story? id).toList }

/-- The ledger persists neither the requirement binding nor the outcome-shape
role, so the plan's are taken over. -/
def adoptBindings (story listed : Story) : Story :=
  let bound :=
    if story.requirementID = "" then { story with requirementID := listed.requirementID } else story
  if bound.role = "" then
    { bound with role := listed.role, roleReason := listed.roleReason,
                 realExample := listed.realExample }
  else bound

def renumberTask (storyID : String) (state : ContinuationState)
    (entry : Task × Nat) : ContinuationState :=
  let want := taskNumbered storyID (entry.2 + 1)
  if want ≠ entry.1.id ∧ want ∉ state.used ∧ want ∉ ledger.ids then
    { state with used := want :: state.used, refs := assign state.refs entry.1.id want }
  else state

/-- Append a story that carries new work. -/
def placeStory (story : Story) : ContinuationState :=
  let renumbered := story.tasks.zipIdx.foldl (renumberTask ledger story.id) state
  { renumbered with stories := renumbered.stories ++ [story] }

def dedupe (ids : List String) : List String :=
  ids.foldl (fun seen id => if id ∈ seen then seen else seen ++ [id]) []

variable (kept : Kept)

def freshTasks (listed : Story) : List Task :=
  listed.tasks.filter fun task => (retainedStory kept task.id).isNone

def heldStories (listed : Story) : List String :=
  dedupe (listed.tasks.filterMap fun task => retainedStory kept task.id)

/-- The story that takes the new tasks of a continued one. -/
def continuationStory (id : String) (listed : Story) : Story :=
  { listed with
    id := id
    tasks := freshTasks kept listed
    dependsOn :=
      if listed.id ∈ listed.dependsOn then listed.dependsOn else listed.dependsOn ++ [listed.id] }

def ContinuationState.adopt (story listed : Story) : ContinuationState :=
  { state with
    continued := state.continued.map fun other =>
      if other.id = listed.id then adoptBindings story listed else other }

def continueStory (state : ContinuationState) (listed : Story) : ContinuationState :=
  match state.continued.story? listed.id with
  | some story =>
    let emitted := (heldStories kept listed).foldl ContinuationState.emit
      ((state.adopt story listed).emit listed.id)
    if freshTasks kept listed = [] then emitted
    else
      let id := nextFreeID "US" (emitted.used ++ ledger.ids)
      placeStory ledger { emitted with used := id :: emitted.used }
        (continuationStory kept id listed)
  | none =>
    let emitted := (heldStories kept listed).foldl ContinuationState.emit state
    if freshTasks kept listed = [] then
      match (heldStories kept listed).head? with
      | none => emitted
      | some first => { emitted with refs := assign emitted.refs listed.id first }
    else placeStory ledger emitted { listed with tasks := freshTasks kept listed }

/-- `slices.Compact`. -/
def compact : List String → List String
  | [] => []
  | [id] => [id]
  | first :: second :: rest =>
    if first = second then compact (second :: rest) else first :: compact (second :: rest)

def sortIDs (ids : List String) : List String :=
  ids.insertionSort (· ≤ ·)

/-- Carry the persisted copy of every listed goal that `chosen` selects. -/
def continueGoals (chosen : Goal → Bool) (goals : List Goal) : List Goal :=
  goals.map fun goal => if chosen goal then (ledgerGoal ledger goal.id).getD goal else goal

def continuedGoalIDs (chosen : Goal → Bool) (goals : List Goal) : List String :=
  (goals.filter fun goal => chosen goal && (ledgerGoal ledger goal.id).isSome).map Goal.id

def initialContinuation (kept : Kept) : ContinuationState where
  continued := kept
  used := plan.ids
  refs := []
  emitted := []
  stories := []

def continuationPass : ContinuationState :=
  let kept := keptStories ledger plan
  plan.stories.foldl (continueStory ledger kept) (initialContinuation plan kept)

/-- The identifier changes of the pass; none when no story is continued. -/
def continuationRefs : Refs :=
  if keptStories ledger plan = [] then [] else (continuationPass ledger plan).refs

def servesGoal (continued : Kept) (goal : Goal) : Bool :=
  continued.any fun story => story.goalID = goal.id

def Kept.rowIDs (continued : Kept) : List String :=
  continued.flatMap fun story => story.id :: story.tasks.map Task.id

def continueRetainedWork : ProjectPlan :=
  let changed := fun goal : Goal => incomingConflicts ledger plan goal.id
  let changedGoals := continuedGoalIDs ledger changed plan.goals
  let goals := continueGoals ledger changed plan.goals
  if keptStories ledger plan = [] then
    { plan with goals := goals, continues := sortIDs changedGoals }
  else
    let pass := continuationPass ledger plan
    let served := servesGoal pass.continued
    rewritePlanRefs
      { plan with
        goals := continueGoals ledger served goals
        stories := pass.stories
        continues := compact (sortIDs (changedGoals ++ pass.continued.rowIDs ++
          continuedGoalIDs ledger served goals)) }
      pass.refs

/-- `preparePlanIDs`: refuse ambiguous identifiers, continue retained work,
then remap what still collides. -/
def preparePlanIDs : Option ProjectPlan :=
  if uniquePlanIDs plan then some (remapContentIDs ledger (continueRetainedWork ledger plan))
  else none

end OpenExec.Planner
