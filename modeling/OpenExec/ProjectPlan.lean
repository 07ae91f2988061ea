import Mathlib.Data.List.Nodup
import Mathlib.Data.List.Pairwise
import Mathlib.Data.List.Perm.Basic

/-!
# Plans

The plan schema of `internal/planner/planner.go`.  `PersistedGoals` is left out: it is
not serialized and only shown to a reviewer.
-/

namespace OpenExec.Planner

open List

structure Goal where
  id : String
  title : String := ""
  description : String := ""
  successCriteria : String := ""
  verificationMethod : String := ""
deriving DecidableEq

structure Task where
  id : String
  title : String := ""
  description : String := ""
  technicalStrategy : String := ""
  dependsOn : List String := []
  mode : String := ""
  decisionReason : String := ""
  decisionRef : String := ""
  verificationScript : String := ""
  allowedPaths : List String := []
deriving DecidableEq

structure Story where
  id : String
  title : String := ""
  description : String := ""
  requirementID : String := ""
  goalID : String := ""
  dependsOn : List String := []
  acceptanceCriteria : List String := []
  verificationScript : String := ""
  contract : String := ""
  tasks : List Task := []
  role : String := ""
  roleReason : String := ""
  realExample : String := ""
deriving DecidableEq

structure Baseline where
  approach : String
  result : String
  bar : String
  verdict : String
  source : String
deriving DecidableEq

structure ProjectPlan where
  schemaVersion : String := ""
  baseline : Option Baseline := none
  goals : List Goal := []
  stories : List Story := []
  continues : List String := []
deriving DecidableEq

namespace ProjectPlan

def goalIDs (plan : ProjectPlan) : List String :=
  plan.goals.map Goal.id

/-- The identifiers of stories and tasks in the order a plan lists them. -/
def storyRowIDs (stories : List Story) : List String :=
  stories.flatMap fun story => story.id :: story.tasks.map Task.id

def ids (plan : ProjectPlan) : List String :=
  plan.goalIDs ++ storyRowIDs plan.stories

variable {stories : List Story} {id : String}

theorem mem_storyRowIDs : id ∈ storyRowIDs stories ↔
      ∃ story ∈ stories, story.id = id ∨ ∃ task ∈ story.tasks, task.id = id := by
  simp [storyRowIDs, eq_comm]

theorem storyRowIDs_perm (stories : List Story) : (storyRowIDs stories).Perm
      (stories.map Story.id ++ stories.flatMap fun story => story.tasks.map Task.id) :=
  (map_append_flatMap_perm stories Story.id fun story => story.tasks.map Task.id).symm

theorem storyRow_owner (unique : (storyRowIDs stories).Nodup)
    {first second : Story} (firstMem : first ∈ stories) (secondMem : second ∈ stories)
    (inFirst : id ∈ first.id :: first.tasks.map Task.id)
    (inSecond : id ∈ second.id :: second.tasks.map Task.id) : first = second := by
  by_contra different
  have symmetric : Std.Symm (Function.onFun List.Disjoint
      fun story : Story => story.id :: story.tasks.map Task.id) :=
    ⟨fun _ _ disjoint _ inSecond inFirst => disjoint inFirst inSecond⟩
  have disjoint := (nodup_flatMap.mp unique).2.forall firstMem secondMem different
  exact disjoint inFirst inSecond

variable {plan : ProjectPlan} {story : Story}

theorem goal_mem_ids {goal : Goal} (listed : goal ∈ plan.goals) : goal.id ∈ plan.ids :=
  mem_append_left _ (mem_map_of_mem listed)

theorem story_mem_ids (listed : story ∈ plan.stories) : story.id ∈ plan.ids :=
  mem_append_right _ (mem_storyRowIDs.mpr ⟨story, listed, .inl rfl⟩)

theorem task_mem_ids {task : Task}
    (listed : story ∈ plan.stories) (owned : task ∈ story.tasks) : task.id ∈ plan.ids :=
  mem_append_right _ (mem_storyRowIDs.mpr ⟨story, listed, .inr ⟨task, owned, rfl⟩⟩)

end ProjectPlan

/-- `uniquePlanIDs` of `pkg/manager/planner_identity.go` accepts the plan: no
identifier is empty or listed twice. -/
def uniquePlanIDs (plan : ProjectPlan) : Bool :=
  plan.ids.all (· ≠ "") && decide plan.ids.Nodup

theorem uniquePlanIDs_iff (plan : ProjectPlan) :
    uniquePlanIDs plan = true ↔ (∀ id ∈ plan.ids, id ≠ "") ∧ plan.ids.Nodup := by
  simp [uniquePlanIDs]

end OpenExec.Planner
