import OpenExec.LedgerEdits
import OpenExec.ManagerEdits

/-!
# Agreement of the cache and the ledger

As long as nothing is deleted, every successful operation leaves a cache that
reading the ledger again would give: the same goals, stories and tasks with the
same statuses and places.  Deletions shrink the cache only.
-/

namespace OpenExec.ReleaseManager

open Release KeyedRows TaskQueue GuardedRuns Option

def Story.standing (story : Story) : StoryStatus × List String := (story.status, story.tasks)

def Task.standing (task : Task) : TaskStatus × String := (task.status, task.storyID)

structure SameBacklog (first second : Manager) : Prop where
  goals : ∀ id, (first.goals.get? id).isSome = (second.goals.get? id).isSome
  stories : ∀ id, (first.story? id).map Story.standing = (second.story? id).map Story.standing
  tasks : ∀ id, (first.task? id).map Task.standing = (second.task? id).map Task.standing

section

variable {manager before after : Manager} {backlog : Backlog} {id : String}

theorem none_of_uncached {α β γ : Type} {cached after : Option α} {stored : Option γ} {scan : γ → α}
    {standing : α → β} (kept : cached.isSome → after.isSome)
    (same : cached.map standing = (stored.map scan).map standing) (uncached : after = none) :
    stored = none := by
  rw [uncached] at kept
  cases cached with
  | some row => exact absurd (kept rfl) (by simp)
  | none => simpa using same

theorem SameBacklog.saved (agrees : SameBacklog before (refreshCache before backlog))
    (keeps : Keeps before after) (accepted : (saveUnlocked after backlog).2) :
    SameBacklog after (refreshCache after (saveUnlocked after backlog).1) := by
  refine ⟨fun id => ?_, fun id => ?_, fun id => ?_⟩
  · obtain ⟨goals, _⟩ := saveUnlocked_accepted accepted id
    rw [refreshCache_goals, goals]
    cases cached : after.goals.get? id with
    | some goal => rfl
    | none =>
      have same := agrees.goals id
      have kept := keeps.goals id
      rw [cached] at kept
      rw [refreshCache_goals] at same
      cases found : backlog.goal? id with
      | none => rfl
      | some goal =>
        rw [found] at same
        exact absurd (kept same) (by simp)
  · obtain ⟨_, stories, _⟩ := saveUnlocked_accepted accepted id
    have same := agrees.stories id
    rw [refreshCache_story?] at same ⊢
    rw [stories]
    cases cached : after.story? id with
    | some story => rfl
    | none =>
      rw [none_of_uncached (keeps.stories id) same cached]
      rfl
  · obtain ⟨_, _, tasks⟩ := saveUnlocked_accepted accepted id
    have same := agrees.tasks id
    rw [refreshCache_task?] at same ⊢
    rw [tasks]
    cases cached : after.task? id with
    | some task => rfl
    | none =>
      rw [none_of_uncached (keeps.tasks id) same cached]
      rfl

theorem SameBacklog.putTask (agrees : SameBacklog manager (refreshCache manager backlog))
    (task : Task) (existing : Option TaskRow) : SameBacklog (manager.putTask task)
      (refreshCache (manager.putTask task) (backlog.putTask (task.columns existing))) := by
  refine ⟨agrees.goals, agrees.stories, fun id => ?_⟩
  rw [Manager.task?_putTask, refreshCache_task?, task?_putTask]
  have sameID : (task.columns existing).id = task.id := rfl
  rw [sameID]
  split
  · rfl
  · have same := agrees.tasks id
    rw [refreshCache_task?] at same
    exact same

end

section

variable {manager after : Manager} {backlog written : Backlog} {operation : Operation} {id : String}

variable (agrees : SameBacklog manager (refreshCache manager backlog))
include agrees

theorem repairFailure_agrees {naming : RepairNaming} {taskID evidenceID diagnosis : String}
    {now : Nat} (staged : repairFailure manager backlog naming taskID evidenceID diagnosis now =
      .returns after written) :
    SameBacklog after (refreshCache after written) := by
  unfold repairFailure at staged
  split at staged
  · cases staged
  next ledger created =>
  simp only at staged
  split at staged
  · next repair original isRepair isOriginal =>
    split at staged
    · next story isStory =>
      obtain ⟨rfl, rfl⟩ := Staged.returns.inj staged
      have repairID := TaskLedger.task?_id isRepair
      have storyID : story.id = repair.storyID := row?_key isStory
      have otherStories (id : String) (different : story.id ≠ id) :
          ledger.story? id = backlog.story? id := by
        rcases createFailureRepair_cases created with ⟨rfl, _⟩ |
          ⟨fix, task, root, repaired, _, _, isFix⟩
        · rfl
        · refine repaired.stories id ?_
          have isFixRow := Option.some.inj ((isFix ▸ repaired.task?_fix).symm.trans isRepair)
          rw [← repaired.sameStory, isFixRow, ← storyID]
          exact different.symm
      have otherTasks (id : String) (different : repair.id ≠ id) :
          (ledger.task? id).map (Task.standing ∘ scanTask) =
            (backlog.task? id).map (Task.standing ∘ scanTask) := by
        rcases createFailureRepair_cases created with ⟨rfl, _⟩ |
          ⟨fix, task, root, repaired, _, _, isFix⟩
        · rfl
        · rw [repaired.task?, if_neg (by rw [isFix, ← repairID]; exact different),
            or_none, map_map]
          refine map_congr fun row _ => ?_
          obtain ⟨_, sameStory, sameStatus, _⟩ := closingRow_links task fix.id row
          simp [Task.standing, scanTask, sameStory, sameStatus]
      refine ⟨agrees.goals, fun id => ?_, fun id => ?_⟩
      · rw [Manager.story?_putStory, refreshCache_story?]
        change (if story.id = id then _ else manager.story? id).map Story.standing =
          ((ledger.story? id).map scanStory).map Story.standing
        split
        · next isID =>
          have found : ledger.story? id = some story := by rw [← isID, storyID]; exact isStory
          rw [found]
          rfl
        · next different =>
          have same := agrees.stories id
          rw [refreshCache_story?] at same
          rw [otherStories id different]
          exact same
      · have cached : (((manager.putTask (scanTask original)).putTask (scanTask repair)).putStory
            (scanStory story)).task? id = if repair.id = id then some (scanTask repair)
              else if original.id = id then some (scanTask original) else manager.task? id := by
          change ((manager.putTask (scanTask original)).putTask (scanTask repair)).task? id = _
          rw [Manager.task?_putTask, Manager.task?_putTask]
          rfl
        rw [cached, refreshCache_task?]
        split
        · next isID =>
          have found : ledger.task? id = some repair := by rw [← isID, repairID]; exact isRepair
          rw [found]
          rfl
        · next different =>
          split
          · next isID =>
            have found : ledger.task? id = some original := by
              rw [← isID, TaskLedger.task?_id isOriginal]
              exact isOriginal
            rw [found]
            rfl
          · have same := agrees.tasks id
            rw [refreshCache_task?, map_map] at same
            rw [map_map, otherTasks id different]
            exact same
    · cases staged
  · cases staged

theorem stage_returns (staged : stage manager backlog operation = .returns after written) :
    SameBacklog after (refreshCache after written) := by
  have ends := @stage_ends manager backlog operation
  rw [staged] at ends
  cases ends with
  | unchanged => exact agrees
  | loaded | imported _ _ => exact ⟨fun _ => rfl, fun _ => rfl, fun _ => rfl⟩
  | updated task existing _ _ => exact agrees.putTask task _
  | repaired _ repairs => exact repairFailure_agrees agrees repairs.symm

end

def succeed (state : Manager × Backlog) (operation : Operation) : Option (Manager × Backlog) :=
  let performed := perform state.1 state.2 operation
  if performed.succeeded then some (performed.manager, performed.backlog) else none

def KeepsAll (state : Manager × Backlog) (operation : Operation) : Prop :=
  ¬ Deletes state.1 operation

instance (state : Manager × Backlog) (operation : Operation) :
    Decidable (KeepsAll state operation) := by
  unfold KeepsAll
  infer_instance

/-- Loading the cache again would change nothing, and what is not cached is
neither in the ledger nor selected to run. -/
structure CacheAgrees (state : Manager × Backlog) : Prop where
  reload : SameBacklog state.1 (refreshCache state.1 state.2)
  tasks : ∀ id, state.1.task? id = none → state.2.task? id = none ∧
    ∀ storyIDs, ∀ task ∈ runnableTasks state.2.toTaskLedger storyIDs "", task.id ≠ id
  stories : ∀ id, state.1.story? id = none → state.2.story? id = none

section

variable {state next : Manager × Backlog} {operation : Operation}

theorem SameBacklog.cacheAgrees (agrees : SameBacklog state.1 (refreshCache state.1 state.2)) :
    CacheAgrees state := by
  have absent (id : String) (uncached : state.1.task? id = none) : state.2.task? id = none := by
    have same := agrees.tasks id
    simpa [uncached] using same
  refine ⟨agrees, fun id uncached => ⟨absent id uncached, ?_⟩, fun id uncached => ?_⟩
  · intro storyIDs task selected isID
    obtain ⟨row, found, _⟩ := runnable_row selected
    rw [isID, absent id uncached] at found
    cases found
  · have same := agrees.stories id
    simpa [uncached] using same

theorem succeed_cases (succeeded : succeed state operation = some next) :
    stage state.1 state.2 operation = .returns next.1 next.2 ∨
      ∃ after, stage state.1 state.2 operation = .saves after ∧ (saveUnlocked after state.2).2 ∧
        next = (after, (saveUnlocked after state.2).1) := by
  unfold succeed perform at succeeded
  cases staged : stage state.1 state.2 operation with
  | refuses manager backlog => simp [staged] at succeeded
  | returns manager backlog =>
    simp only [staged, if_true, Option.some.injEq] at succeeded
    obtain rfl := succeeded
    exact .inl rfl
  | saves after =>
    simp only [staged] at succeeded
    split at succeeded
    · next accepted =>
      cases succeeded
      exact .inr ⟨after, rfl, accepted, rfl⟩
    · cases succeeded

theorem succeed_agrees (agrees : CacheAgrees state) (keepsAll : KeepsAll state operation)
    (succeeded : succeed state operation = some next) : CacheAgrees next := by
  rcases succeed_cases succeeded with staged | ⟨after, staged, accepted, rfl⟩
  · exact (stage_returns agrees.reload staged).cacheAgrees
  · have keeps := (stage_edits staged keepsAll).keeps
    exact (agrees.reload.saved keeps accepted).cacheAgrees

theorem succeed_deletes (agrees : CacheAgrees state) (deletes : Deletes state.1 operation)
    (succeeded : succeed state operation = some next) : ¬ CacheAgrees next := by
  intro agreesNext
  cases operation with
  | deleteTask taskID =>
    obtain ⟨task, cached⟩ := isSome_iff_exists.mp deletes
    have same := agrees.reload.tasks taskID
    rw [cached, refreshCache_task?] at same
    rcases succeed_cases succeeded with staged | ⟨after, staged, accepted, rfl⟩
    · simp [stage, deleteTask, cached] at staged
    · simp only [stage, deleteTask, cached, Staged.saves.injEq] at staged
      have erased : after.task? taskID = none := by
        rw [← staged, Manager.task?, Table.get?_erase, if_pos rfl]
      obtain ⟨absent, _⟩ := agreesNext.tasks taskID erased
      obtain ⟨_, _, left⟩ := saveUnlocked_accepted accepted taskID
      rw [erased, map_none, none_or] at left
      rw [← left, absent] at same
      cases same
  | deleteStory storyID =>
    obtain ⟨story, cached⟩ := isSome_iff_exists.mp deletes
    have same := agrees.reload.stories storyID
    rw [cached, refreshCache_story?] at same
    rcases succeed_cases succeeded with staged | ⟨after, staged, accepted, rfl⟩
    · simp [stage, deleteStory, cached] at staged
    · simp only [stage, deleteStory, cached, Staged.saves.injEq] at staged
      have erased : after.story? storyID = none := by
        rw [← staged, Manager.story?, Table.get?_erase, if_pos rfl]
      have absent := agreesNext.stories storyID erased
      obtain ⟨_, left, _⟩ := saveUnlocked_accepted accepted storyID
      rw [erased, map_none, none_or] at left
      rw [← left, absent] at same
      cases same
  | _ => exact deletes

/-- After any run of successful operations that deletes nothing, the cache of the
only manager is what reading the ledger again gives, and the next successful
operation keeps it so exactly if it deletes nothing either. -/
theorem cache_agrees_with_ledger {manager : Manager} {backlog : Backlog}
    (reachable : Reachable succeed KeepsAll (refreshCache manager backlog, backlog) state) :
    CacheAgrees state ∧ ∀ operation next, succeed state operation = some next →
        (CacheAgrees next ↔ KeepsAll state operation) := by
  have agrees : CacheAgrees state := by
    refine reachable.invariant ?_ succeed_agrees
    exact SameBacklog.cacheAgrees ⟨fun _ => rfl, fun _ => rfl, fun _ => rfl⟩
  refine ⟨agrees, fun operation next succeeded => ?_⟩
  refine ⟨fun agreesNext deletes => ?_, fun keepsAll => succeed_agrees agrees keepsAll succeeded⟩
  exact succeed_deletes agrees deletes succeeded agreesNext

end

def plannedOperations : List Operation :=
  [.createGoal { id := "G-001" }, .createStory { id := "US-001", goalID := "G-001" } none 1,
    .createStory { id := "US-002", goalID := "G-001" } none 1,
    .createTask { id := "T-US-001-001", storyID := "US-001" } 1,
    .reassignTask "T-US-001-001" "US-002" true]

def emptyBacklog : Backlog where
  tasks := []
  stories := []
  steps := []
  tasksUnique := List.nodup_nil
  storiesUnique := List.nodup_nil
  stepsUnique := List.nodup_nil

theorem cache_agrees_with_ledger_planned :
    ∃ state, Reachable succeed KeepsAll (refreshCache {} emptyBacklog, emptyBacklog) state ∧
      (state.1.task? "T-US-001-001").map Task.storyID = some "US-002" ∧ CacheAgrees state := by
  refine exists_reached (fun state => (state.1.task? "T-US-001-001").map Task.storyID =
    some "US-002")
    plannedOperations (by decide +kernel) ?_
  intro state reachable moved
  exact ⟨moved, (cache_agrees_with_ledger reachable).1⟩

/-- `DeleteTask` succeeds, and the task is still in the ledger, still selected and
cached again after a load. -/
theorem deleted_task_returns :
    ∃ state, Reachable succeed anyStep (refreshCache {} emptyBacklog, emptyBacklog) state ∧
      state.1.task? "T-US-001-001" = none ∧ (state.2.task? "T-US-001-001").isSome ∧
      (runnableTasks state.2.toTaskLedger ["US-002"] "").map TaskRow.id = ["T-US-001-001"] ∧
      ((refreshCache state.1 state.2).task? "T-US-001-001").isSome ∧ ¬ CacheAgrees state := by
  refine exists_reached (fun state => state.1.task? "T-US-001-001" = none ∧
      (state.2.task? "T-US-001-001").isSome ∧
      (runnableTasks state.2.toTaskLedger ["US-002"] "").map TaskRow.id = ["T-US-001-001"] ∧
      ((refreshCache state.1 state.2).task? "T-US-001-001").isSome)
    (plannedOperations ++ [.deleteTask "T-US-001-001"]) (by decide +kernel) ?_
  rintro state _ ⟨uncached, left, selected, loaded⟩
  refine ⟨uncached, left, selected, loaded, fun agrees => ?_⟩
  rw [(agrees.tasks _ uncached).1] at left
  cases left

end OpenExec.ReleaseManager
