import OpenExec.FailureRepair
import OpenExec.PartialWrites

/-!
# The backlog store

The values `release.Manager` caches, the columns `SQLiteStore` writes for them and what
it reads back.
-/

namespace OpenExec.ReleaseManager

open Release KeyedRows TaskQueue PartialWrites Table

structure TaskGitInfo where
  commits : List String := []
  branch : String := ""
  prNumber : Option Int := none
  prURL : String := ""
deriving DecidableEq

structure Task where
  id : String
  storyID : String
  title : String := ""
  description : String := ""
  verificationScript : String := ""
  dependsOn : List String := []
  taskType : String := ""
  priority : Int := 0
  assignedAgent : String := ""
  attemptCount : Int := 0
  maxAttempts : Int := 3
  git : Option TaskGitInfo := none
  approval : Option ApprovalInfo := none
  needsReview : Bool := false
  reviewNotes : String := ""
  status : TaskStatus := .pending
  createdAt : Nat := 0
  startedAt : Option Nat := none
  completedAt : Option Nat := none
  errorMessage : String := ""
  metadata : TaskMetadata := {}
deriving DecidableEq

structure StoryGitInfo where
  branch : String := ""
  baseBranch : String := ""
  mergedTo : String := ""
  mergeCommit : String := ""
  mergedAt : Option Nat := none
deriving DecidableEq

structure Story where
  id : String
  goalID : String := ""
  tasks : List String := []
  dependsOn : List String := []
  git : Option StoryGitInfo := none
  approval : Option ApprovalInfo := none
  status : StoryStatus := .pending
  createdAt : Nat := 0
  completedAt : Option Nat := none
deriving DecidableEq

structure ReleaseRecord where
  version : String
  stories : List String := []
  branch : String := ""
  tag : String := ""
  approval : Option ApprovalInfo := none
deriving DecidableEq

/-- The columns an `INSERT` binds; an `UPDATE` leaves the creation time. -/
def Task.columns (task : Task) (existing : Option TaskRow) : TaskRow where
  id := task.id
  storyID := task.storyID
  title := task.title
  description := task.description
  verificationScript := task.verificationScript
  dependsOn := task.dependsOn
  taskType := task.taskType
  priority := task.priority
  assignedAgent := task.assignedAgent
  attemptCount := task.attemptCount
  maxAttempts := task.maxAttempts
  gitCommits := (task.git.getD {}).commits
  branch := (task.git.getD {}).branch
  prNumber := (task.git.getD {}).prNumber
  prURL := (task.git.getD {}).prURL
  approval := task.approval.getD {}
  needsReview := task.needsReview
  reviewNotes := task.reviewNotes
  status := task.status
  createdAt := (existing.map TaskRow.createdAt).getD task.createdAt
  startedAt := task.startedAt
  completedAt := task.completedAt
  errorMessage := task.errorMessage
  metadata := task.metadata

def Story.columns (story : Story) (existing : Option StoryRow) : StoryRow where
  id := story.id
  goalID := story.goalID
  status := story.status
  dependsOn := story.dependsOn
  branch := (story.git.getD {}).branch
  baseBranch := (story.git.getD {}).baseBranch
  mergedTo := (story.git.getD {}).mergedTo
  mergeCommit := (story.git.getD {}).mergeCommit
  mergedAt := (story.git.getD {}).mergedAt
  approval := story.approval.getD {}
  tasks := story.tasks
  createdAt := (existing.map StoryRow.createdAt).getD story.createdAt
  completedAt := story.completedAt

def parseApproval (columns : ApprovalInfo) : Option ApprovalInfo :=
  if columns.status = .blank then none else some columns

/-- `getTaskInternal`; without a commit or a branch the pull request columns are
not read. -/
def scanTask (row : TaskRow) : Task where
  id := row.id
  storyID := row.storyID
  title := row.title
  description := row.description
  verificationScript := row.verificationScript
  dependsOn := row.dependsOn
  taskType := row.taskType
  priority := row.priority
  assignedAgent := row.assignedAgent
  attemptCount := row.attemptCount
  maxAttempts := row.maxAttempts
  git :=
    if row.gitCommits ≠ [] ∨ row.branch ≠ "" then
      some
        { commits := row.gitCommits, branch := row.branch, prNumber := row.prNumber
          prURL := row.prURL }
    else none
  approval := parseApproval row.approval
  needsReview := row.needsReview
  reviewNotes := row.reviewNotes
  status := row.status
  createdAt := row.createdAt
  startedAt := row.startedAt
  completedAt := row.completedAt
  errorMessage := row.errorMessage
  metadata := row.metadata

/-- `getStoryInternal`. -/
def scanStory (row : StoryRow) : Story where
  id := row.id
  goalID := row.goalID
  tasks := row.tasks
  dependsOn := row.dependsOn
  git :=
    if row.branch ≠ "" then
      some
        { branch := row.branch, baseBranch := row.baseBranch, mergedTo := row.mergedTo
          mergeCommit := row.mergeCommit, mergedAt := row.mergedAt }
    else none
  approval := parseApproval row.approval
  status := row.status
  createdAt := row.createdAt
  completedAt := row.completedAt

/-- The tables of the ledger: those the queue works on, the goals and the
current release. -/
structure Backlog extends TaskLedger where
  goals : Table Release.Goal.id := Table.empty
  release : Option ReleaseRecord := none

def Backlog.goal? (backlog : Backlog) (id : String) : Option Release.Goal :=
  backlog.goals.get? id

section

variable (backlog : Backlog)

def Backlog.taskTable : Table TaskRow.id := ⟨backlog.tasks, backlog.tasksUnique⟩

def Backlog.storyTable : Table StoryRow.id := ⟨backlog.stories, backlog.storiesUnique⟩

def Backlog.putTask (row : TaskRow) : Backlog :=
  { backlog with
    tasks := (backlog.taskTable.put row).rows
    tasksUnique := (backlog.taskTable.put row).unique }

def Backlog.putStory (row : StoryRow) : Backlog :=
  { backlog with
    stories := (backlog.storyTable.put row).rows
    storiesUnique := (backlog.storyTable.put row).unique }

/-- `CreateGoal` of a goal that is absent, `UpdateGoal` of one that is there. -/
def writeGoal (goal : Release.Goal) : Option Backlog :=
  if goal.id = "" ∧ backlog.goal? goal.id = none then none
  else some { backlog with goals := backlog.goals.put goal }

/-- `CreateStory` or `UpdateStory`; the goal reference is a foreign key. -/
def writeStory (story : Story) : Option Backlog :=
  if story.id = "" ∧ backlog.story? story.id = none then none
  else if story.goalID ≠ "" ∧ backlog.goal? story.goalID = none then none
  else some (backlog.putStory (story.columns (backlog.story? story.id)))

/-- `CreateTask` or `UpdateTask`; the story reference is a foreign key. -/
def writeTask (task : Task) : Option Backlog :=
  if task.id = "" ∧ backlog.task? task.id = none then none
  else if backlog.story? task.storyID = none then none
  else some (backlog.putTask (task.columns (backlog.task? task.id)))

end

section

variable {backlog next : Backlog} {id : String} {goal : Release.Goal} {story : Story} {task : Task}

@[simp] theorem task?_putTask (row : TaskRow) :
    (backlog.putTask row).task? id = if row.id = id then some row else backlog.task? id := by
  exact get?_put

@[simp] theorem story?_putStory (row : StoryRow) :
    (backlog.putStory row).story? id = if row.id = id then some row else backlog.story? id := by
  exact get?_put

theorem writeGoal_reads (written : writeGoal backlog goal = some next) :
    (∀ id, next.goal? id = if goal.id = id then some goal else backlog.goal? id) ∧
      next.story? = backlog.story? ∧ next.task? = backlog.task? := by
  unfold writeGoal at written
  split at written
  · cases written
  · cases written
    exact ⟨fun id => get?_put, rfl, rfl⟩

theorem writeStory_reads (written : writeStory backlog story = some next) : (∀ id, next.story? id =
      if story.id = id then some (story.columns (backlog.story? id)) else backlog.story? id) ∧
      next.goal? = backlog.goal? ∧ next.task? = backlog.task? := by
  unfold writeStory at written
  split at written
  · cases written
  split at written
  · cases written
  cases written
  refine ⟨fun id => ?_, rfl, rfl⟩
  by_cases named : story.id = id <;> simp [Story.columns, named]

theorem writeTask_reads (written : writeTask backlog task = some next) : (∀ id, next.task? id =
      if task.id = id then some (task.columns (backlog.task? id)) else backlog.task? id) ∧
      next.goal? = backlog.goal? ∧ next.story? = backlog.story? := by
  unfold writeTask at written
  split at written
  · cases written
  split at written
  · cases written
  cases written
  refine ⟨fun id => ?_, rfl, rfl⟩
  by_cases named : task.id = id <;> simp [Task.columns, named]

end

variable {backlog : Backlog} {goals : Table Release.Goal.id} {stories : Table Story.id}
  {tasks : Table Task.id}

theorem writeGoals_others : (writeAll writeGoal goals.rows backlog).1.story? = backlog.story? ∧
      (writeAll writeGoal goals.rows backlog).1.task? = backlog.task? :=
  ⟨writeAll_keeps fun written => (writeGoal_reads written).2.1,
    writeAll_keeps fun written => (writeGoal_reads written).2.2⟩

theorem writeStories_others : (writeAll writeStory stories.rows backlog).1.goal? = backlog.goal? ∧
      (writeAll writeStory stories.rows backlog).1.task? = backlog.task? :=
  ⟨writeAll_keeps fun written => (writeStory_reads written).2.1,
    writeAll_keeps fun written => (writeStory_reads written).2.2⟩

theorem writeTasks_others : (writeAll writeTask tasks.rows backlog).1.goal? = backlog.goal? ∧
      (writeAll writeTask tasks.rows backlog).1.story? = backlog.story? :=
  ⟨writeAll_keeps fun written => (writeTask_reads written).2.1,
    writeAll_keeps fun written => (writeTask_reads written).2.2⟩

theorem writeGoals_goal? (accepted : (writeAll writeGoal goals.rows backlog).2) (id : String) :
    (writeAll writeGoal goals.rows backlog).1.goal? id = (goals.get? id).or (backlog.goal? id) := by
  have reads := @read_writeAll_accepted _ _ _ _ _ writeGoal goals.rows backlog Release.Goal.id
    Backlog.goal? (fun _ goal => goal) goals.unique (fun written => (writeGoal_reads written).1)
    accepted id
  rw [reads, Option.map_id']
  rfl

theorem writeStories_story? (accepted : (writeAll writeStory stories.rows backlog).2)
    (id : String) : (writeAll writeStory stories.rows backlog).1.story? id =
      ((stories.get? id).map fun story => story.columns (backlog.story? id)).or
        (backlog.story? id) :=
  @read_writeAll_accepted _ _ _ _ _ writeStory stories.rows backlog Story.id
    (fun backlog => backlog.story?) (fun existing story => story.columns existing) stories.unique
    (fun written => (writeStory_reads written).1) accepted id

theorem writeTasks_task? (accepted : (writeAll writeTask tasks.rows backlog).2) (id : String) :
    (writeAll writeTask tasks.rows backlog).1.task? id =
      ((tasks.get? id).map fun task => task.columns (backlog.task? id)).or (backlog.task? id) :=
  @read_writeAll_accepted _ _ _ _ _ writeTask tasks.rows backlog Task.id
    (fun backlog => backlog.task?) (fun existing task => task.columns existing) tasks.unique
    (fun written => (writeTask_reads written).1) accepted id

theorem writeTasks_task?_or (id : String) :
    (writeAll writeTask tasks.rows backlog).1.task? id = backlog.task? id ∨
      ∃ task, tasks.get? id = some task ∧
        (writeAll writeTask tasks.rows backlog).1.task? id =
          some (task.columns (backlog.task? id)) := by
  rcases @read_writeAll _ _ _ _ _ writeTask tasks.rows backlog Task.id
    (fun backlog => backlog.task?) (fun existing task => task.columns existing) tasks.unique
    (fun written => (writeTask_reads written).1) id with same | ⟨task, member, named, reads⟩
  · exact .inl same
  · exact .inr ⟨task, named ▸ get?_of_mem member, reads⟩

end OpenExec.ReleaseManager
