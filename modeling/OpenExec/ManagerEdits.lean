import OpenExec.ReleaseManager

/-!
# What the operations of the release manager change

Before it saves, an operation that deletes nothing puts goals, stories and the
tasks it names into the cache.  The save then writes the cache over the ledger.
-/

namespace OpenExec.ReleaseManager

open Release KeyedRows TaskQueue PartialWrites ReleaseManager.Manager Table

variable {task old : Task} {α : Type} {name : String} {accepted : Bool}
  {step : Manager → α → Manager}

section

variable {manager : Manager} {backlog : Backlog} {id : String}

@[simp] theorem refreshCache_story? :
    (refreshCache manager backlog).story? id = (backlog.story? id).map scanStory := by
  exact get?_map fun _ => rfl

@[simp] theorem refreshCache_task? :
    (refreshCache manager backlog).task? id = (backlog.task? id).map scanTask := by
  exact get?_map fun _ => rfl

@[simp] theorem refreshCache_goals :
    ((refreshCache manager backlog).goals.get? id) = backlog.goal? id :=
  rfl

theorem saveUnlocked_task? (id : String) :
    (saveUnlocked manager backlog).1.task? id = backlog.task? id ∨
      ∃ task, manager.task? id = some task ∧
        (saveUnlocked manager backlog).1.task? id = some (task.columns (backlog.task? id)) := by
  unfold saveUnlocked
  simp only
  generalize released : ({ backlog with release := manager.release.or backlog.release } : Backlog) =
    start
  have isStart : start.task? = backlog.task? := by rw [← released]
  obtain ⟨_, goalsTasks⟩ := @writeGoals_others start manager.goals
  split
  · exact .inl (congrFun (goalsTasks.trans isStart) id)
  generalize (writeAll writeGoal manager.goals.rows start).1 = goals at goalsTasks ⊢
  obtain ⟨_, storiesTasks⟩ := @writeStories_others goals manager.stories
  have sameTasks := congrFun (storiesTasks.trans (goalsTasks.trans isStart)) id
  split
  · exact .inl sameTasks
  · rw [← sameTasks]
    exact writeTasks_task?_or id

theorem saveUnlocked_accepted (accepted : (saveUnlocked manager backlog).2) (id : String) :
    (saveUnlocked manager backlog).1.goal? id = (manager.goals.get? id).or (backlog.goal? id) ∧
      (saveUnlocked manager backlog).1.story? id =
        ((manager.story? id).map fun story => story.columns (backlog.story? id)).or
          (backlog.story? id) ∧
      (saveUnlocked manager backlog).1.task? id =
        ((manager.task? id).map fun task => task.columns (backlog.task? id)).or
          (backlog.task? id) := by
  unfold saveUnlocked at accepted ⊢
  simp only at accepted ⊢
  generalize released : ({ backlog with release := manager.release.or backlog.release } : Backlog) =
    start at accepted ⊢
  have isStart : start.goal? = backlog.goal? ∧ start.story? = backlog.story? ∧
      start.task? = backlog.task? := by
    rw [← released]
    exact ⟨rfl, rfl, rfl⟩
  obtain ⟨goalsStories, goalsTasks⟩ := @writeGoals_others start manager.goals
  split at accepted
  · next refused => exact absurd (refused.symm.trans accepted) (by simp)
  next goalsAccepted =>
  rw [if_neg goalsAccepted]
  have goals := writeGoals_goal? (by simpa using goalsAccepted) id
  generalize (writeAll writeGoal manager.goals.rows start).1 = afterGoals at *
  obtain ⟨storiesGoals, storiesTasks⟩ := @writeStories_others afterGoals manager.stories
  split at accepted
  · next refused => exact absurd (refused.symm.trans accepted) (by simp)
  next storiesAccepted =>
  rw [if_neg storiesAccepted]
  have stories := writeStories_story? (by simpa using storiesAccepted) id
  generalize (writeAll writeStory manager.stories.rows afterGoals).1 = afterStories at *
  obtain ⟨tasksGoals, tasksStories⟩ := @writeTasks_others afterStories manager.tasks
  have tasks := writeTasks_task? accepted id
  refine ⟨?_, ?_, ?_⟩
  · rw [tasksGoals, storiesGoals, goals, isStart.1]
  · rw [tasksStories, stories, goalsStories, isStart.2.1]
    rfl
  · rw [tasks, storiesTasks, goalsTasks, isStart.2.2]
    rfl

end

structure Keeps (before after : Manager) : Prop where
  goals : ∀ id, (before.goals.get? id).isSome → (after.goals.get? id).isSome
  stories : ∀ id, (before.story? id).isSome → (after.story? id).isSome
  tasks : ∀ id, (before.task? id).isSome → (after.task? id).isSome

/-- The tasks an operation may write into the cache. -/
def Operation.Names : Operation → String → Prop
  | .createTask task _ | .updateTask task _ => fun id => id = task.id
  | .reassignTask taskID _ _ | .setTaskStatus taskID _ _ | .linkCommitToTask taskID _ _
  | .setTaskPR taskID _ _ | .approveTask taskID _ _ _ | .rejectTask taskID _ _ _
  | .completeTask taskID _ _ _ => fun id => id = taskID
  | .resetStatuses | .autoLinkCommits _ => fun _ => True
  | _ => fun _ => False

def Deletes (manager : Manager) : Operation → Prop
  | .deleteTask taskID => (manager.task? taskID).isSome
  | .deleteStory storyID => (manager.story? storyID).isSome
  | _ => False

instance (manager : Manager) (operation : Operation) : Decidable (Deletes manager operation) := by
  cases operation <;> unfold Deletes <;> infer_instance

inductive CacheEdits (names : String → Prop) (start : Manager) : Manager → Prop
  | initial : CacheEdits names start start
  | release {manager : Manager} (earlier : CacheEdits names start manager)
      (release : Option ReleaseRecord) : CacheEdits names start { manager with release }
  | goal {manager : Manager} (earlier : CacheEdits names start manager) (goal : Release.Goal) :
      CacheEdits names start { manager with goals := manager.goals.put goal }
  | story {manager : Manager} (earlier : CacheEdits names start manager) (story : Story) :
      CacheEdits names start (manager.putStory story)
  | task {manager : Manager} (earlier : CacheEdits names start manager) (task : Task)
      (named : names task.id) : CacheEdits names start (manager.putTask task)
  | rewritten {manager next : Manager} (earlier : CacheEdits names start manager)
      (all : ∀ id, names id) (keeps : Keeps manager next) : CacheEdits names start next

section

variable {names : String → Prop} {start manager after : Manager} {id : String}

theorem Manager.task?_id (cached : manager.task? id = some task) : task.id = id :=
  get?_key cached

theorem Manager.story?_putStory (story : Story) :
    (manager.putStory story).story? id = if story.id = id then some story else manager.story? id :=
  get?_put

theorem Manager.task?_putTask (task : Task) :
    (manager.putTask task).task? id = if task.id = id then some task else manager.task? id :=
  get?_put

variable (edits : CacheEdits names start manager)
include edits

theorem CacheEdits.editStory (storyID : String)
    (edit : Story → Story) : CacheEdits names start (manager.editStory storyID edit) := by
  unfold Manager.editStory
  split
  · exact edits
  · exact edits.story _

theorem CacheEdits.mergeStory (storyID : String) (merge : MergeAnswer) (now : Nat) :
    CacheEdits names start (mergeStory manager storyID merge now) := by
  unfold ReleaseManager.mergeStory
  split
  · exact edits
  simp only
  split
  · exact edits
  split
  · exact edits.story _
  split
  · exact edits.story _
  · split
    · exact edits.story _
    · exact edits

theorem CacheEdits.foldl (kept : ∀ current item, CacheEdits names start current →
      CacheEdits names start (step current item)) (items : List α) :
    CacheEdits names start (items.foldl step manager) := by
  induction items generalizing manager with
  | nil => exact edits
  | cons item rest ih => exact ih (kept manager item edits)

theorem CacheEdits.keeps : Keeps start manager := by
  induction edits with
  | initial => exact ⟨fun _ cached => cached, fun _ cached => cached, fun _ cached => cached⟩
  | release _ _ ih => exact { ih with }
  | goal _ goal ih =>
    refine ⟨fun id cached => ?_, ih.stories, ih.tasks⟩
    rw [get?_put]
    split
    · rfl
    · exact ih.goals id cached
  | story _ story ih =>
    refine ⟨ih.goals, fun id cached => ?_, ih.tasks⟩
    rw [Manager.story?_putStory]
    split
    · rfl
    · exact ih.stories id cached
  | task _ task _ ih =>
    refine ⟨ih.goals, ih.stories, fun id cached => ?_⟩
    rw [Manager.task?_putTask]
    split
    · rfl
    · exact ih.tasks id cached
  | rewritten _ _ keeps ih =>
    exact ⟨fun id cached => keeps.goals id (ih.goals id cached),
      fun id cached => keeps.stories id (ih.stories id cached),
      fun id cached => keeps.tasks id (ih.tasks id cached)⟩

theorem CacheEdits.task?_unnamed (unnamed : ¬ names id) : manager.task? id = start.task? id := by
  induction edits with
  | initial => rfl
  | release _ _ ih | goal _ _ ih | story _ _ ih => exact ih
  | task _ task named ih =>
    have different : task.id ≠ id := fun isTask => unnamed (isTask ▸ named)
    rw [Manager.task?_putTask, if_neg different]
    exact ih
  | rewritten _ all _ _ => exact absurd (all id) unnamed

theorem CacheEdits.and_then
    (later : CacheEdits (fun _ => False) manager after) : CacheEdits names start after := by
  induction later with
  | initial => exact edits
  | release _ release ih => exact ih.release release
  | goal _ goal ih => exact ih.goal goal
  | story _ story ih => exact ih.story story
  | task _ _ named _ => exact named.elim
  | rewritten _ all _ _ => exact (all "").elim

end

def isDelivered (status : TaskStatus) : Bool :=
  status = .done || status = .approved

def Marks (backlog : Backlog) : Operation → String → Prop
  | .createTask task _, id => id = task.id ∧ isDelivered task.status = true
  | .updateTask task accepted, id =>
    id = task.id ∧ (task.status = .approved ∨ task.status = .done ∧
      (accepted = true ∨ ∃ row, backlog.task? id = some row ∧ row.status = .done))
  | .setTaskStatus taskID status accepted, id =>
    id = taskID ∧ (status = .approved ∨ status = .done ∧
      (accepted = true ∨ ∃ row, backlog.task? id = some row ∧ row.status = .done))
  | .approveTask taskID _ _ _, id => id = taskID
  | .completeTask taskID accepted _ _, id => id = taskID ∧ accepted = true
  | _, _ => False

def Manager.Delivered (manager : Manager) (id : String) : Prop :=
  ∃ task, manager.task? id = some task ∧ isDelivered task.status = true

section

variable {manager edited : Manager} {id : String}

theorem delivered_of_task? (same : edited.task? id = manager.task? id)
    (delivered : edited.Delivered id) : manager.Delivered id := by
  obtain ⟨task, isTask, status⟩ := delivered
  exact ⟨task, same ▸ isTask, status⟩

theorem delivered_putTask (delivered : (manager.putTask task).Delivered id) :
    id = task.id ∧ isDelivered task.status = true ∨ manager.Delivered id := by
  obtain ⟨cached, isCached, status⟩ := delivered
  rw [Manager.task?_putTask] at isCached
  split at isCached
  · next isTask =>
    cases isCached
    exact .inl ⟨isTask.symm, status⟩
  · exact .inr ⟨cached, isCached, status⟩

theorem delivered_putTask_same (delivered : (manager.putTask task).Delivered id)
    (cached : manager.task? name = some old) (named : task.id = old.id)
    (same : task.status = old.status) : manager.Delivered id := by
  rcases delivered_putTask delivered with ⟨isID, status⟩ | already
  · have isName : id = name := (isID.trans named).trans (task?_id cached)
    exact ⟨old, isName ▸ cached, same ▸ status⟩
  · exact already

theorem delivered_foldl
    (kept : ∀ current item, (step current item).Delivered id → current.Delivered id)
    (items : List α) (delivered : (items.foldl step manager).Delivered id) :
    manager.Delivered id := by
  induction items generalizing manager with
  | nil => exact delivered
  | cons item rest ih => exact kept manager item (ih delivered)

theorem get?_eraseAll {tasks : Table Task.id} {task : Task} (ids : List String)
    (found : (ids.foldl (fun tasks id => tasks.erase id) tasks).get? id = some task) :
    tasks.get? id = some task := by
  induction ids generalizing tasks with
  | nil => exact found
  | cons first rest ih =>
    have kept := ih found
    rw [get?_erase] at kept
    split at kept
    · cases kept
    · exact kept

end

section

variable (manager : Manager) (backlog : Backlog) (operation : Operation)

/-- An operation is refused, leaves everything as it was, saves the edited cache, writes one
task, or brings rows of the ledger into the cache. -/
inductive Ends : Staged → Prop
  | refused (edited : Manager) : Ends (.refuses edited backlog)
  | unchanged : Ends (.returns manager backlog)
  | loaded : Ends (.returns (refreshCache manager backlog) backlog)
  | saved {edited : Manager}
      (edits : Deletes manager operation ∨ CacheEdits operation.Names manager edited)
      (marks : ∀ id, edited.Delivered id → Marks backlog operation id ∨ manager.Delivered id) :
      Ends (.saves edited)
  | updated (task : Task) (existing : TaskRow) (named : operation.Names task.id)
      (marks : isDelivered task.status = true →
        Marks backlog operation task.id ∨ manager.Delivered task.id) :
      Ends
        (.returns (manager.putTask task) (backlog.putTask (task.columns (some existing))))
  | repaired {staged : Staged} {naming : RepairNaming} {taskID evidenceID diagnosis : String}
      {now : Nat} (isRepair : operation = .repairFailure naming taskID evidenceID diagnosis now)
      (repairs : staged = repairFailure manager backlog naming taskID evidenceID diagnosis now) :
      Ends staged
  | imported {goals : List Release.Goal} {stories : List Story} {tasks : List Task}
      {written : Backlog} (isImport : operation = .importReviewedPlan goals stories tasks)
      (imported : importRows backlog goals stories tasks = some written) :
      Ends (.returns (refreshCache manager written) written)

end

variable {manager edited after : Manager} {backlog : Backlog} {operation : Operation} {id : String}

theorem Ends.kept (edits : CacheEdits (fun _ => False) manager edited) :
    Ends manager backlog operation (.saves edited) := by
  refine .saved (.inr (CacheEdits.initial.and_then edits)) fun id delivered => .inr ?_
  exact delivered_of_task? (edits.task?_unnamed fun named => named) delivered

theorem Ends.put (edits : CacheEdits (fun _ => False) (manager.putTask task) edited)
    (named : operation.Names task.id) (marks : isDelivered task.status →
      Marks backlog operation task.id ∨ manager.Delivered task.id) :
    Ends manager backlog operation (.saves edited) := by
  refine .saved (.inr ((CacheEdits.initial.task task named).and_then edits)) fun id delivered => ?_
  have put := delivered_of_task? (edits.task?_unnamed fun named => named) delivered
  rcases delivered_putTask put with ⟨rfl, status⟩ | already
  · exact marks status
  · exact .inr already

theorem Ends.put_same (cached : manager.task? name = some old) (isOld : task.id = old.id)
    (same : task.status = old.status) (named : operation.Names old.id) :
    Ends manager backlog operation (.saves (manager.putTask task)) := by
  refine .put .initial (isOld ▸ named) fun status => .inr ⟨old, ?_, same ▸ status⟩
  rw [isOld, task?_id cached]
  exact cached

theorem marked_of_checked (checked : task.status = .done → accepted = true ∨
      ∃ row, backlog.task? task.id = some row ∧ row.status = .done)
    (status : isDelivered task.status) :
    task.status = .approved ∨ task.status = .done ∧ (accepted = true ∨
      ∃ row, backlog.task? task.id = some row ∧ row.status = .done) := by
  simp only [isDelivered, Bool.or_eq_true, decide_eq_true_eq] at status
  rcases status with done | approved
  · exact .inr ⟨done, checked done⟩
  · exact .inl approved

theorem updateTask_ends (named : operation.Names task.id)
    (marks : isDelivered task.status → (task.status = .approved ∨ task.status = .done ∧
        (accepted = true ∨ ∃ row, backlog.task? task.id = some row ∧ row.status = .done)) →
      Marks backlog operation task.id ∨ manager.Delivered task.id) :
    Ends manager backlog operation (updateTask manager backlog task accepted) := by
  unfold updateTask
  split
  · exact .refused manager
  next existing found =>
  split
  · exact .refused manager
  next passes =>
  have checked : task.status = .done → accepted = true ∨
      ∃ row, backlog.task? task.id = some row ∧ row.status = .done := by
    intro done
    by_cases wasDone : existing.status = .done
    · exact .inr ⟨existing, found, wasDone⟩
    · refine .inl ?_
      by_contra refused
      exact passes ⟨done, wasDone, by simpa using refused⟩
  have isMarked (status : isDelivered task.status) :=
    marks status (marked_of_checked checked status)
  split
  · exact .updated task existing named isMarked
  · exact .put ((CacheEdits.initial.editStory _ _).editStory _ _) named isMarked

theorem repairFailure_unsaved {naming : RepairNaming} {taskID evidenceID diagnosis : String}
    {now : Nat} :
    repairFailure manager backlog naming taskID evidenceID diagnosis now ≠ .saves edited := by
  intro saves
  unfold repairFailure at saves
  split at saves
  · cases saves
  simp only at saves
  split at saves
  · split at saves <;> cases saves
  · cases saves

theorem deleteTask_ends {taskID : String} :
    Ends manager backlog (.deleteTask taskID) (deleteTask manager backlog taskID) := by
  unfold deleteTask
  split
  · exact .unchanged
  next task cached =>
  refine .saved (.inl (by simp [Deletes, cached])) fun id delivered => .inr ?_
  obtain ⟨other, isOther, status⟩ := delivered
  have edits : CacheEdits (fun _ => False) manager (manager.editStory task.storyID fun story =>
      { story with tasks := story.tasks.filter fun id => id ≠ taskID }) :=
    CacheEdits.initial.editStory _ _
  refine ⟨other, ?_, status⟩
  exact (edits.task?_unnamed fun named => named).symm.trans
    (@get?_eraseAll id _ other [taskID] isOther)

theorem completeTask_ends {taskID : String} {merge : MergeAnswer} {now : Nat} :
    Ends manager backlog (.completeTask taskID accepted merge now)
      (completeTask manager backlog taskID accepted merge now) := by
  simp only [completeTask]
  split
  · exact .refused manager
  next task cached =>
  have named : task.id = taskID := task?_id cached
  split
  · exact .refused manager
  next granted =>
  have marked : Marks backlog (.completeTask taskID accepted merge now) task.id :=
    ⟨named, by simpa using granted⟩
  split
  · exact .put (CacheEdits.initial.mergeStory _ _ _) named fun _ => .inl marked
  · exact .put .initial named fun _ => .inl marked

theorem resetStatuses_ends : Ends manager backlog .resetStatuses (resetStatuses manager) := by
  refine .saved (.inr (.rewritten .initial (fun _ => trivial)
    ⟨fun _ cached => cached, fun id cached => ?_, fun id cached => ?_⟩)) fun id delivered => ?_
  · simpa [story?, get?_map] using cached
  · simpa [task?, get?_map] using cached
  · obtain ⟨task, isTask, status⟩ := delivered
    have mapped : (manager.task? id).map (fun task => { task with status := .pending }) =
        some task :=
      (get?_map fun _ => rfl).symm.trans isTask
    obtain ⟨_, _, rfl⟩ := Option.map_eq_some_iff.mp mapped
    simp [isDelivered] at status

theorem autoLinkCommits_ends {links : List (String × List String)} :
    Ends manager backlog (.autoLinkCommits links) (autoLinkCommits manager backlog links) := by
  unfold autoLinkCommits
  split
  · exact .refused manager
  refine .saved (.inr (CacheEdits.initial.foldl (fun current link edits => ?_) _))
    fun id delivered => .inr (delivered_foldl (fun current link linked => ?_) links delivered)
  · split
    · exact edits
    · exact edits.task _ trivial
  · split at linked
    · exact linked
    · next task cached => exact delivered_putTask_same linked cached rfl rfl

theorem stage_ends : Ends manager backlog operation (stage manager backlog operation) := by
  cases operation with
  | createRelease record => exact .kept (.release .initial _)
  | createGoal goal => exact .kept (.goal .initial goal)
  | createStory story branch now =>
    simp only [stage, createStory]
    split
    · exact .refused manager
    · exact .kept (.release (.story .initial _) _)
  | updateStory _ | setStoryStatus _ _ =>
    simp only [stage, updateStory, setStoryStatus]
    split
    · exact .refused manager
    · exact .kept (.story .initial _)
  | createTask task now =>
    refine .put (CacheEdits.initial.editStory _ _) rfl fun status => .inl ⟨rfl, ?_⟩
    by_cases blank : task.status = .blank
    · simp [blank, isDelivered] at status
    · simpa [blank] using status
  | updateTask task accepted => exact updateTask_ends rfl fun _ marked => .inl ⟨rfl, marked⟩
  | reassignTask taskID newStoryID accepted =>
    simp only [stage, reassignTask]
    split
    · exact .refused manager
    next task cached =>
    have named : task.id = taskID := task?_id cached
    exact updateTask_ends named fun status _ => .inr ⟨task, named ▸ cached, status⟩
  | setTaskStatus taskID status accepted =>
    simp only [stage, ReleaseManager.setTaskStatus]
    split
    · exact .refused manager
    next row found =>
    have named : row.id = taskID := TaskLedger.task?_id found
    exact updateTask_ends named fun _ marked => .inl ⟨named, marked⟩
  | deleteTask taskID => exact deleteTask_ends
  | deleteStory storyID =>
    simp only [stage, deleteStory]
    split
    · exact .unchanged
    next story cached =>
    refine .saved (.inl (by simp [Deletes, cached])) fun id delivered => .inr ?_
    obtain ⟨other, isOther, status⟩ := delivered
    exact ⟨other, get?_eraseAll story.tasks isOther, status⟩
  | linkCommitToTask taskID commitHash linked =>
    simp only [stage, linkCommitToTask]
    split
    · exact .refused manager
    next task cached =>
    split
    · exact .unchanged
    split
    · exact .refused _
    · exact .put_same cached rfl rfl (task?_id cached)
  | setTaskPR taskID prNumber prURL =>
    simp only [stage, setTaskPR]
    split
    · exact .refused manager
    next task cached => exact .put_same cached rfl rfl (task?_id cached)
  | approveTask taskID approverID comments now =>
    simp only [stage, approveTask]
    split
    · exact .unchanged
    split
    · exact .refused manager
    next task cached =>
    have named : task.id = taskID := task?_id cached
    exact .put .initial named fun _ => .inl named
  | rejectTask taskID approverID reason now =>
    simp only [stage, rejectTask]
    split
    · exact .unchanged
    split
    · exact .refused manager
    next task cached =>
    have named : task.id = taskID := task?_id cached
    exact .put .initial named fun status => absurd status (by simp [isDelivered])
  | approveStory storyID approverID comments now =>
    simp only [stage, approveStory]
    split
    · exact .unchanged
    split
    · exact .refused manager
    · exact .kept (.story .initial _)
  | approveRelease approverID comments now =>
    simp only [stage, approveRelease]
    split
    · exact .unchanged
    split
    · exact .refused manager
    · exact .kept (.release .initial _)
  | tagRelease tagged =>
    simp only [stage, tagRelease]
    split
    · exact .refused manager
    split
    · split
      · exact .kept (.release .initial _)
      · exact .refused manager
    · exact .kept .initial
  | mergeStoryToRelease storyID merge now =>
    simp only [stage, mergeStoryToRelease]
    iterate 4
      split
      · exact .refused manager
    · exact .kept (.story .initial _)
  | completeTask taskID accepted merge now => exact completeTask_ends
  | processApprovedStories merges now =>
    refine .kept (CacheEdits.initial.foldl (fun current story edits => ?_) _)
    split
    · exact edits.mergeStory _ _ _
    · exact edits
  | resetStatuses => exact resetStatuses_ends
  | autoLinkCommits links => exact autoLinkCommits_ends
  | repairFailure naming taskID evidenceID diagnosis now => exact .repaired rfl rfl
  | importReviewedPlan goals stories tasks =>
    simp only [stage, importReviewedPlan]
    split
    · exact .refused manager
    next written imported => exact .imported rfl imported
  | save => exact .kept .initial
  | load => exact .loaded

theorem stage_edits (staged : stage manager backlog operation = .saves after)
    (keepsAll : ¬ Deletes manager operation) : CacheEdits operation.Names manager after := by
  have ends := @stage_ends manager backlog operation
  rw [staged] at ends
  cases ends with
  | saved edits _ => exact edits.resolve_left keepsAll
  | repaired _ repairs => exact absurd repairs.symm repairFailure_unsaved

end OpenExec.ReleaseManager
