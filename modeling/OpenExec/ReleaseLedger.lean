import OpenExec.KeyedRows

/-!
# The release ledger

Rows of `internal/release/models.go` with the columns the planner and the task queue
read, and the ledger itself: goals, stories and their ordered tasks.
-/

namespace OpenExec.Release

structure Goal where
  id : String
  title : String := ""
  description : String := ""
  successCriteria : String := ""
  verificationMethod : String := ""
deriving DecidableEq

inductive StoryType where
  | feature | bugfix | chore | refactor
  | other (text : String)
deriving DecidableEq

structure Story where
  id : String
  goalID : String := ""
  title : String := ""
  description : String := ""
  acceptanceCriteria : List String := []
  verificationScript : String := ""
  contract : String := ""
  tasks : List String := []
  dependsOn : List String := []
  storyType : StoryType := .feature
  priority : Int := 0
deriving DecidableEq

/-- The keys of a task's metadata map that the planner writes and reads. -/
structure PlanMetadata where
  mode : Option String := none
  decisionReason : Option String := none
  decisionRef : Option String := none
  allowedPaths : List String := []
deriving DecidableEq

/-- The statuses a task row holds; `blank` is the empty text, read as pending. -/
inductive TaskStatus where
  | blank | pending | inProgress | needsReview | approved | done | failed | error
deriving DecidableEq

structure Task where
  id : String
  storyID : String
  title : String := ""
  description : String := ""
  verificationScript : String := ""
  dependsOn : List String := []
  priority : Int := 0
  maxAttempts : Int := 3
  metadata : PlanMetadata := {}

/-- The maps of the release manager, each keyed by identifier.  Nothing ties the task lists of
the stories to the task rows. -/
structure Ledger where
  goals : List Goal := []
  stories : List Story := []
  tasks : List Task := []
  goalsUnique : (goals.map Goal.id).Nodup
  storiesUnique : (stories.map Story.id).Nodup
  tasksUnique : (tasks.map Task.id).Nodup

/-- A ledger in which the task lists of the stories and the task rows name each other, as a
reviewed import leaves them. -/
class Ledger.Consistent (ledger : Ledger) : Prop where
  listedTasks : ∀ story ∈ ledger.stories, ∀ id ∈ story.tasks,
    ∃ task ∈ ledger.tasks, task.id = id ∧ task.storyID = story.id
  ownedTasks : ∀ task ∈ ledger.tasks,
    ∃ story ∈ ledger.stories, story.id = task.storyID ∧ task.id ∈ story.tasks

variable {ledger : Ledger} {id : String}

namespace Ledger

open KeyedRows Option List

def empty : Ledger where
  goalsUnique := by simp
  storiesUnique := by simp
  tasksUnique := by simp

def getGoal (ledger : Ledger) (id : String) : Option Goal :=
  row? Goal.id ledger.goals id

def getStory (ledger : Ledger) (id : String) : Option Story :=
  row? Story.id ledger.stories id

def getTask (ledger : Ledger) (id : String) : Option Task :=
  row? Task.id ledger.tasks id

def ids (ledger : Ledger) : List String :=
  ledger.goals.map Goal.id ++ ledger.stories.map Story.id ++ ledger.tasks.map Task.id

theorem mem_ids_of_getGoal (persisted : (ledger.getGoal id).isSome) : id ∈ ledger.ids := by
  simp only [ids, mem_append]
  exact .inl (.inl (row?_isSome_iff.mp persisted))

theorem mem_ids_of_getStory (persisted : (ledger.getStory id).isSome) : id ∈ ledger.ids := by
  simp only [ids, mem_append]
  exact .inl (.inr (row?_isSome_iff.mp persisted))

theorem mem_ids_of_getTask (persisted : (ledger.getTask id).isSome) : id ∈ ledger.ids := by
  simp only [ids, mem_append]
  exact .inr (row?_isSome_iff.mp persisted)

theorem getGoal_eq_none (absent : id ∉ ledger.ids) : ledger.getGoal id = none := by
  rw [← not_isSome_iff_eq_none]
  exact fun persisted => absent (mem_ids_of_getGoal persisted)

theorem getStory_eq_none (absent : id ∉ ledger.ids) : ledger.getStory id = none := by
  rw [← not_isSome_iff_eq_none]
  exact fun persisted => absent (mem_ids_of_getStory persisted)

theorem getTask_eq_none (absent : id ∉ ledger.ids) : ledger.getTask id = none := by
  rw [← not_isSome_iff_eq_none]
  exact fun persisted => absent (mem_ids_of_getTask persisted)

theorem getStory_of_getTask [ledger.Consistent] {task : Task}
    (found : ledger.getTask id = some task) :
    ∃ story, ledger.getStory task.storyID = some story ∧ id ∈ story.tasks := by
  obtain ⟨story, member, storyEq, listed⟩ := Consistent.ownedTasks task (row?_mem found)
  refine ⟨story, ?_, row?_key found ▸ listed⟩
  exact storyEq ▸ row?_of_mem ledger.storiesUnique member

theorem getTask_of_getStory [ledger.Consistent] {taskID : String} {story : Story}
    (found : ledger.getStory id = some story) (listed : taskID ∈ story.tasks) :
    ∃ task, ledger.getTask taskID = some task ∧ task.storyID = id := by
  obtain ⟨task, member, taskEq, owner⟩ :=
    Consistent.listedTasks story (row?_mem found) taskID listed
  refine ⟨task, taskEq ▸ row?_of_mem ledger.tasksUnique member, ?_⟩
  rw [owner, row?_key found]

end Ledger

end OpenExec.Release
