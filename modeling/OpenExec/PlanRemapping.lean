import OpenExec.BoundedLoop
import OpenExec.PlanIdentifiers
import OpenExec.PlanIdentity

/-!
# Remapping colliding identifiers

`remapContentIDs` of `internal/planner/remap_content.go` gives new identifiers
to plan rows that differ from the persisted rows of the same identifier.  Every
round renders the original plan with the substitution found so far, looks for a
row that still conflicts, and extends the substitution; moving a story takes
its tasks along.
-/

namespace OpenExec.Planner

open FiniteRenaming Release GoStrings List

variable (refs : Refs)

def Goal.rewrite (goal : Goal) : Goal :=
  { goal with
    id := rename refs goal.id
    description := rewriteIDRefs goal.description refs
    successCriteria := rewriteIDRefs goal.successCriteria refs
    verificationMethod := rewriteIDRefs goal.verificationMethod refs }

def Task.rewrite (task : Task) : Task :=
  { task with
    id := rename refs task.id
    dependsOn := task.dependsOn.map (rename refs)
    description := rewriteIDRefs task.description refs
    technicalStrategy := rewriteIDRefs task.technicalStrategy refs
    verificationScript := rewriteIDRefs task.verificationScript refs }

def Story.rewrite (story : Story) : Story :=
  { story with
    id := rename refs story.id
    goalID := rename refs story.goalID
    dependsOn := story.dependsOn.map (rename refs)
    description := rewriteIDRefs story.description refs
    contract := rewriteIDRefs story.contract refs
    verificationScript := rewriteIDRefs story.verificationScript refs
    acceptanceCriteria := story.acceptanceCriteria.map (rewriteIDRefs · refs)
    tasks := story.tasks.map (Task.rewrite refs) }

/-- Rows a plan continues are persisted content and stay as they are. -/
def Goal.render (continues : List String) (refs : Refs) (goal : Goal) : Goal :=
  if goal.id ∈ continues then goal else goal.rewrite refs

def Story.render (continues : List String) (refs : Refs) (story : Story) : Story :=
  if story.id ∈ continues then story else story.rewrite refs

def rewritePlanRefs (plan : ProjectPlan) (refs : Refs) : ProjectPlan :=
  { plan with
    goals := plan.goals.map (Goal.render plan.continues refs)
    stories := plan.stories.map (Story.render plan.continues refs) }

@[simp]
theorem Goal.rewrite_id (goal : Goal) : (goal.rewrite refs).id = rename refs goal.id :=
  rfl

@[simp]
theorem Task.rewrite_id (task : Task) : (task.rewrite refs).id = rename refs task.id :=
  rfl

variable (story : Story)

@[simp]
theorem Story.rewrite_id : (story.rewrite refs).id = rename refs story.id :=
  rfl

@[simp]
theorem Story.rewrite_tasks : (story.rewrite refs).tasks = story.tasks.map (Task.rewrite refs) :=
  rfl

@[simp]
theorem Goal.rewrite_nil (goal : Goal) : goal.rewrite [] = goal := by
  simp [Goal.rewrite]

@[simp]
theorem Task.rewrite_nil (task : Task) : task.rewrite [] = task := by
  simp [Task.rewrite]

@[simp]
theorem Story.rewrite_nil : story.rewrite [] = story := by
  simp [Story.rewrite, map_id'' Task.rewrite_nil]

@[simp]
theorem rewritePlanRefs_nil (plan : ProjectPlan) : rewritePlanRefs plan [] = plan := by
  have goals (goal : Goal) : goal.render plan.continues [] = goal := by
    simp [Goal.render]
  have stories (story : Story) : story.render plan.continues [] = story := by
    simp [Story.render]
  simp [rewritePlanRefs, map_id'' goals, map_id'' stories]

@[simp]
theorem rewritePlanRefs_continues (plan : ProjectPlan) (refs : Refs) :
    (rewritePlanRefs plan refs).continues = plan.continues :=
  rfl

section

variable {refs other : Refs} (same : rename refs = rename other)
include same

theorem rewriteTokens_congr (skip : Nat) (text : List Char) :
    rewriteTokens refs skip text = rewriteTokens other skip text := by
  induction text generalizing skip with
  | nil => simp [rewriteTokens]
  | cons head rest ih =>
    cases skip with
    | succ skip => simp [rewriteTokens, ih]
    | zero => simp only [rewriteTokens, ih, same]

theorem Goal.rewrite_congr (goal : Goal) : goal.rewrite refs = goal.rewrite other := by
  simp only [Goal.rewrite, rewriteIDRefs, rewriteTokens_congr same, same]

theorem Task.rewrite_congr (task : Task) : task.rewrite refs = task.rewrite other := by
  simp only [Task.rewrite, rewriteIDRefs, rewriteTokens_congr same, same]

theorem Story.rewrite_congr (story : Story) : story.rewrite refs = story.rewrite other := by
  have tasks : Task.rewrite refs = Task.rewrite other := funext (Task.rewrite_congr same)
  simp only [Story.rewrite, rewriteIDRefs, rewriteTokens_congr same, same, tasks]

end

structure RemapState where
  refs : Refs
  used : List String

/-- The identifier of the first conflicting row, goals before stories before
tasks, and the free identifier it moves to.  The empty identifier is the
source's sentinel for "none found". -/
def pickConflict (conflicts : String → Bool) (plan : ProjectPlan) (taken : List String) :
    Option (String × String) :=
  match ((plan.goals.find? fun goal => conflicts goal.id).map Goal.id).filter (· ≠ "") with
  | some old => some (old, nextFreeID "G" taken)
  | none =>
    match ((plan.stories.find? fun story => conflicts story.id).map Story.id).filter (· ≠ "") with
    | some old => some (old, nextFreeID "US" taken)
    | none =>
      (plan.stories.findSome? fun story =>
        ((story.tasks.find? fun task => conflicts task.id).map Task.id).filter (· ≠ "")).map
          fun old => (old, nextFreeTaskID old taken)

variable (ledger : Ledger)

def draggedTaskID (used : List String) (old next id : String) : String :=
  let moved :=
    if hasPrefix id ("T-" ++ old ++ "-") then "T-" ++ next ++ trimPrefix id ("T-" ++ old) else id
  if (moved ≠ id ∧ moved ∈ used) ∨ (ledger.getTask moved).isSome then
    nextFreeTaskID moved (used ++ ledger.ids)
  else moved

def dragTask (old next : String) (state : RemapState) (task : Task) : RemapState :=
  let id := draggedTaskID ledger state.used old next task.id
  if id = task.id then state
  else
    { used := id :: state.used
      refs := assign state.refs (source state.refs task.id) id }

/-- One round of the loop; `none` when no row conflicts any more. -/
def remapRound (raw : ProjectPlan) (state : RemapState) : Option RemapState :=
  let plan := rewritePlanRefs raw state.refs
  match pickConflict (reviewedIdentityConflicts ledger plan) plan (state.used ++ ledger.ids) with
  | none => none
  | some (old, next) =>
    let moved := ((plan.stories.filter fun story => story.id = old).flatMap Story.tasks)
    some (moved.foldl (dragTask ledger old next)
      { used := next :: state.used, refs := assign state.refs old next })

variable (plan : ProjectPlan)

/-- Where the loop of `remapContentIDs` ends.  Every round moves an identifier
that had not moved before, so a round for each listed identifier and a last one
that finds nothing are enough. -/
def remapFinal : RemapState :=
  BoundedLoop.run (remapRound ledger plan) (plan.ids.length + 1) { refs := [], used := plan.ids }

def remapRefs : Refs :=
  (remapFinal ledger plan).refs

def remapContentIDs : ProjectPlan :=
  rewritePlanRefs plan (remapRefs ledger plan)

end OpenExec.Planner
