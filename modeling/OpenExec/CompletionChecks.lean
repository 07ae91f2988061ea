import OpenExec.LedgerFrame
import OpenExec.ValidationPlans

/-!
# Completion over unmet obligations

`UpdateTask` and `CompleteTask` ask whether the obligations of a task are met before
they mark it done.
-/

namespace OpenExec.ReleaseManager

open Release KeyedRows TaskQueue Validation Option

structure Delivery where
  managers : Nat → Manager
  backlog : Backlog
  validation : Validation.Tables

inductive DeliveryAction
  | operate (manager : Nat) (operation : Operation)
  | validate (tables : Validation.Tables)

variable (state : Delivery)

/-- The answer of `CanCompleteTask`.  A query may also fail. -/
def Delivery.allows (taskID : String) (answered : Bool) : Bool :=
  answered && (state.validation.canCompleteTask taskID).isOk

def Delivery.answer : Operation → Operation
  | .updateTask task answered => .updateTask task (state.allows task.id answered)
  | .reassignTask taskID newStoryID answered =>
    .reassignTask taskID newStoryID (state.allows taskID answered)
  | .setTaskStatus taskID status answered =>
    .setTaskStatus taskID status (state.allows taskID answered)
  | .completeTask taskID answered merge now =>
    .completeTask taskID (state.allows taskID answered) merge now
  | operation => operation

/-- The validation tables are written by others. -/
def Delivery.step : DeliveryAction → Delivery
  | .operate manager operation =>
    let performed := perform (state.managers manager) state.backlog (state.answer operation)
    { state with
      managers := Function.update state.managers manager performed.manager
      backlog := performed.backlog }
  | .validate tables => { state with validation := tables }

def Staged.ledger (backlog : Backlog) : Staged → Backlog
  | .refuses _ written => written
  | .returns _ written => written
  | .saves _ => backlog

/-- The task is delivered where it was not: in the ledger before the save, or in the cache
that is saved. -/
def Staged.Delivers (backlog : Backlog) (staged : Staged) (id : String) : Prop :=
  (∃ row after, backlog.task? id = some row ∧ (staged.ledger backlog).task? id = some after ∧
    after.status ≠ row.status ∧ isDelivered after.status = true) ∨
  ∃ edited, staged = .saves edited ∧ edited.Delivered id

variable {row : TaskRow}

section

variable {manager : Manager} {backlog : Backlog} {operation : Operation} {id : String}

def KeepsStatuses (backlog written : Backlog) : Prop :=
  ∀ id row after, backlog.task? id = some row → written.task? id = some after →
    after.status = row.status

theorem keepsStatuses_refl : KeepsStatuses backlog backlog := by
  intro id row after isRow isAfter
  rw [isRow] at isAfter
  exact some.inj isAfter ▸ rfl

theorem not_delivers {staged : Staged} (kept : KeepsStatuses backlog (staged.ledger backlog))
    (unsaved : ∀ edited, staged ≠ .saves edited) : ¬ staged.Delivers backlog id := by
  rintro (⟨row, after, isRow, isAfter, changed, _⟩ | ⟨edited, saves, _⟩)
  · exact changed (kept id row after isRow isAfter)
  · exact unsaved edited saves

theorem delivers_saves (delivers : (Staged.saves manager).Delivers backlog id) :
    manager.Delivered id := by
  rcases delivers with ⟨row, after, isRow, isAfter, changed, _⟩ | ⟨edited, saves, cached⟩
  · rw [Staged.ledger, isRow] at isAfter
    exact absurd (some.inj isAfter ▸ rfl) changed
  · exact Staged.saves.inj saves ▸ cached

theorem repairFailure_keepsStatuses {naming : RepairNaming} {taskID evidenceID diagnosis : String}
    {now : Nat} : KeepsStatuses backlog
      ((repairFailure manager backlog naming taskID evidenceID diagnosis now).ledger backlog) := by
  have repaired {ledger : TaskLedger}
      (created : createFailureRepair backlog.toTaskLedger now naming taskID evidenceID diagnosis =
        .ok ledger) : KeepsStatuses backlog { backlog with toTaskLedger := ledger } := by
    intro other row after isRow isAfter
    rcases createFailureRepair_cases created with ⟨rfl, _⟩ | ⟨fix, task, root, repaired, _⟩
    · exact keepsStatuses_refl other row after isRow isAfter
    · have isClosed : some after = some (closingRow task fix.id row) :=
        isAfter.symm.trans (repaired.task?_old isRow)
      obtain ⟨_, _, sameStatus, _⟩ := closingRow_links task fix.id row
      rw [some.inj isClosed, sameStatus]
  unfold repairFailure
  split
  · exact keepsStatuses_refl
  next ledger created =>
  simp only
  split
  · split <;> exact repaired created
  · exact repaired created

theorem importRows_task? {goals : List Release.Goal} {stories : List Story} {tasks : List Task}
    {written : Backlog} (imported : importRows backlog goals stories tasks = some written)
    (isRow : backlog.task? id = some row) : written.task? id = some row := by
  obtain ⟨afterGoals, importedGoals, imported⟩ := bind_eq_some_iff.mp imported
  obtain ⟨afterStories, importedStories, imported⟩ := bind_eq_some_iff.mp imported
  have goalsKept : afterGoals.task? id = some row := by
    refine @PartialWrites.foldlM_invariant _ _ _ goals backlog afterGoals
      (fun store => store.task? id = some row) ?_ isRow importedGoals
    intro store goal next holds inserted
    split at inserted
    · exact some.inj inserted ▸ holds
    · split at inserted
      · exact some.inj inserted ▸ holds
      · cases inserted
  have storiesKept : afterStories.task? id = some row := by
    refine @PartialWrites.foldlM_invariant _ _ _ stories afterGoals afterStories
      (fun store => store.task? id = some row) ?_ goalsKept importedStories
    intro store story next holds inserted
    split at inserted
    · split at inserted
      · cases inserted
      · exact some.inj inserted ▸ holds
    · split at inserted
      · exact some.inj inserted ▸ holds
      · cases inserted
  refine @PartialWrites.foldlM_invariant _ _ _ tasks afterStories written
    (fun store => store.task? id = some row) ?_ storiesKept imported
  intro store task next holds inserted
  split at inserted
  · next absent =>
    split at inserted
    · cases inserted
    cases inserted
    rw [task?_putTask, if_neg]
    · exact holds
    · rintro rfl
      exact absurd (absent.symm.trans holds) (by simp)
  · split at inserted
    · exact some.inj inserted ▸ holds
    · cases inserted

theorem stage_marks (delivers : (stage manager backlog operation).Delivers backlog id) :
    Marks backlog operation id ∨ manager.Delivered id := by
  have ends := @stage_ends manager backlog operation
  generalize stage manager backlog operation = staged at delivers ends
  cases ends with
  | refused edited | unchanged | loaded =>
    exact absurd delivers (not_delivers keepsStatuses_refl fun _ => by simp)
  | saved _ marks => exact marks id (delivers_saves delivers)
  | updated task existing _ marks =>
    rcases delivers with ⟨row, after, isRow, isAfter, changed, status⟩ | ⟨edited, saves, _⟩
    · rw [Staged.ledger, task?_putTask] at isAfter
      split at isAfter
      · next isTask =>
        cases isAfter
        have isID : task.id = id := isTask
        exact isID ▸ marks status
      · rw [isRow] at isAfter
        exact absurd (some.inj isAfter ▸ rfl) changed
    · cases saves
  | repaired _ repairs =>
    rw [repairs] at delivers
    exact absurd delivers
      (not_delivers repairFailure_keepsStatuses fun _ saves => repairFailure_unsaved saves)
  | imported _ imported =>
    refine absurd delivers (not_delivers ?_ fun _ => by simp)
    intro other row after isRow isAfter
    rw [Staged.ledger, importRows_task? imported isRow] at isAfter
    exact some.inj isAfter ▸ rfl

end

def Operation.Unchecked : Operation → String → Prop
  | .createTask task _, id => id = task.id ∧ isDelivered task.status = true
  | .updateTask task _, id => id = task.id ∧ task.status = .approved
  | .setTaskStatus taskID status _, id => id = taskID ∧ status = .approved
  | .approveTask taskID _ _ _, id => id = taskID
  | _, _ => False

/-- The ledger has the task delivered already, or its obligations are met. -/
def Delivery.Clear (state : Delivery) (id : String) : Prop :=
  ∀ row, state.backlog.task? id = some row →
    isDelivered row.status = true ∨ state.validation.canCompleteTask id = .ok ()

/-- A task is clear that the manager's cache has delivered, or that the operation marks so
without a check. -/
def Delivery.Careful (state : Delivery) : DeliveryAction → Prop
  | .validate _ => True
  | .operate manager operation =>
    ∀ id, (state.managers manager).Delivered id ∨ operation.Unchecked id → state.Clear id

variable {state : Delivery}

theorem Delivery.allows_ok {taskID : String} {answered : Bool}
    (allows : state.allows taskID answered) : state.validation.canCompleteTask taskID = .ok () := by
  simp only [Delivery.allows, Bool.and_eq_true] at allows
  cases answer : state.validation.canCompleteTask taskID with
  | ok checked => rfl
  | error refusal => exact absurd allows.2 (by simp [answer, Except.isOk, Except.toBool])

variable {id : String} {operation : Operation} {before : TaskRow}

theorem Delivery.clear_of_marks (isBefore : state.backlog.task? id = some before)
    (unchecked : operation.Unchecked id → state.Clear id)
    (marks : Marks state.backlog (state.answer operation) id) :
    isDelivered before.status = true ∨ state.validation.canCompleteTask id = .ok () := by
  have wasDone {accepted : Bool} {taskID : String} (isID : id = taskID)
      (passed : state.allows taskID accepted = true ∨
        ∃ row, state.backlog.task? id = some row ∧ row.status = .done) :
      isDelivered before.status = true ∨ state.validation.canCompleteTask id = .ok () := by
    rcases passed with allows | ⟨row, isRow, done⟩
    · exact .inr (isID ▸ Delivery.allows_ok allows)
    · rw [isBefore] at isRow
      exact .inl (by simp [isDelivered, some.inj isRow, done])
  cases operation with
  | createTask task now | approveTask taskID approverID comments now =>
    exact unchecked marks before isBefore
  | updateTask task accepted | setTaskStatus taskID status accepted =>
    obtain ⟨isID, approved | ⟨_, passed⟩⟩ := marks
    · exact unchecked ⟨isID, approved⟩ before isBefore
    · exact wasDone isID passed
  | completeTask taskID accepted merge now =>
    obtain ⟨isID, allows⟩ := marks
    exact .inr (isID ▸ Delivery.allows_ok allows)
  | _ => exact marks.elim

theorem perform_marks {manager : Manager} {backlog : Backlog}
    {after : TaskRow} (isBefore : backlog.task? id = some before)
    (isAfter : (perform manager backlog operation).backlog.task? id = some after)
    (wasOpen : isDelivered before.status = false) (delivered : isDelivered after.status) :
    Marks backlog operation id ∨ manager.Delivered id := by
  have changed : after.status ≠ before.status := by
    intro same
    rw [same, wasOpen] at delivered
    cases delivered
  apply stage_marks
  unfold perform at isAfter
  cases staged : stage manager backlog operation with
  | refuses next written | returns next written =>
    rw [staged] at isAfter
    exact .inl ⟨before, after, isBefore, isAfter, changed, delivered⟩
  | saves edited =>
    rw [staged] at isAfter
    rcases @saveUnlocked_task? edited backlog id with same | ⟨task, cached, saved⟩
    · have unchanged : some after = some before := isAfter.symm.trans (same.trans isBefore)
      exact absurd (some.inj unchanged ▸ rfl) changed
    · have isSaved : some after = some (task.columns (backlog.task? id)) :=
        isAfter.symm.trans saved
      have sameStatus : after.status = task.status := by
        rw [some.inj isSaved]
        rfl
      exact .inr ⟨edited, rfl, task, cached, sameStatus ▸ delivered⟩

/-- If every task is clear that the cache has delivered or that is marked without a check,
every task row that an operation delivers has its obligations met. -/
theorem delivered_tasks_are_checked (state : Delivery) (action : DeliveryAction)
    (careful : state.Careful action) (id : String) (before after : TaskRow)
    (isBefore : state.backlog.task? id = some before)
    (isAfter : (state.step action).backlog.task? id = some after)
    (wasOpen : isDelivered before.status = false) (delivered : isDelivered after.status = true) :
    state.validation.canCompleteTask id = .ok () := by
  have stillOpen : ¬ isDelivered before.status = true := by simp [wasOpen]
  cases action with
  | validate tables =>
    have unchanged : some after = some before := isAfter.symm.trans isBefore
    exact absurd (some.inj unchanged ▸ delivered) stillOpen
  | operate manager operation =>
    rcases perform_marks isBefore isAfter wasOpen delivered with marks | cached
    · have unchecked : operation.Unchecked id → state.Clear id :=
        fun isUnchecked => careful id (.inr isUnchecked)
      exact (Delivery.clear_of_marks isBefore unchecked marks).resolve_left stillOpen
    · exact (careful id (.inl cached) before isBefore).resolve_left stillOpen

def supportedClaim : CompletionClaim where
  validationItemID := "I"
  scope := ""
  status := .supported
  repositoryStateHash := "h"
  evidenceArtifactIDs := []
  criterion := "go test ./..."
  requirement := .required

variable (claims : Table CompletionClaim.identity)

def obligingTables : Validation.Tables where
  generations := Table.empty.put
    { id := "G", repositoryID := "R", checkoutID := "C", worktreeID := "W"
      worktreeStateHash := "h", configurationDigest := "c", extractorVersion := "v"
      manifestHash := "h", status := .current, createdAt := 1, promotedAt := some 2 }
  plans := Table.empty.put
    { id := "P", taskID := "A", runID := "", revision := 2, generationID := "G"
      worktreeStateHash := "h", patchHash := "", changedSymbolIDs := ["S"], sourceRevisionID := "P0"
      status := .accepted }
  items := Table.empty.put
    { id := "I", planRevisionID := "P", source := .graph, disposition := .accepted
      requirement := .required, criterion := "go test ./...", commandArgv := [], scope := ""
      graphPaths := [], limitations := [] }
  claims := claims

def obligedDelivery : Delivery where
  managers := fun _ => refreshCache { config := { approvalEnabled := true } } singleTaskBacklog
  backlog := singleTaskBacklog
  validation := obligingTables claims

theorem singleTask_isOpen
    (found : singleTaskBacklog.task? id = some row) : row.status = .pending := by
  obtain rfl := List.mem_singleton.mp (TaskLedger.task?_mem found)
  rfl

/-- The task is completed once its one obligation is supported. -/
theorem delivered_tasks_are_checked_supported :
    ∃ before after, singleTaskBacklog.task? "A" = some before ∧
      ((obligedDelivery (Table.empty.put supportedClaim)).step
        (.operate 0 (.completeTask "A" true .failed 5))).backlog.task? "A" = some after ∧
      after.status = .done ∧
      (obligingTables (Table.empty.put supportedClaim)).canCompleteTask "A" = .ok () := by
  have careful : (obligedDelivery (Table.empty.put supportedClaim)).Careful
      (.operate 0 (.completeTask "A" true .failed 5)) := by
    rintro id (⟨task, cached, delivered⟩ | unchecked)
    · have loaded : (singleTaskBacklog.task? id).map scanTask = some task :=
        refreshCache_task?.symm.trans cached
      obtain ⟨row, found, rfl⟩ := map_eq_some_iff.mp loaded
      simp [scanTask, singleTask_isOpen found, isDelivered] at delivered
    · exact unchecked.elim
  obtain ⟨after, isAfter, done⟩ : ∃ after, ((obligedDelivery (Table.empty.put supportedClaim)).step
        (.operate 0 (.completeTask "A" true .failed 5))).backlog.task? "A" = some after ∧
      after.status = .done := by
    have completes : (((obligedDelivery (Table.empty.put supportedClaim)).step
        (.operate 0 (.completeTask "A" true .failed 5))).backlog.task? "A").any
          (fun after => after.status = .done) = true := by
      decide +kernel
    obtain ⟨after, isAfter, done⟩ := (any_eq_true _ _).mp completes
    exact ⟨after, isAfter, of_decide_eq_true done⟩
  refine ⟨_, after, rfl, isAfter, done, ?_⟩
  exact delivered_tasks_are_checked _ _ careful "A" _ after rfl isAfter rfl
    (by simp [isDelivered, done])

/-- A task is approved although its one obligation has no evidence. -/
theorem approved_task_is_unchecked :
    ∃ before after, singleTaskBacklog.task? "A" = some before ∧ before.status = .pending ∧
      ((obligedDelivery Table.empty).step (.operate 0
        (.approveTask "A" "admin" "" 5))).backlog.task? "A" =
        some after ∧
      after.status = .approved ∧
      (obligingTables Table.empty).canCompleteTask "A" = .error (.outstanding "A" 1) := by
  exact ⟨_, _, rfl, rfl, rfl, rfl, by decide +kernel⟩

end OpenExec.ReleaseManager
