import OpenExec.ClosedTasks
import OpenExec.ManagerEdits

/-!
# The frame of an addressed operation

Two managers and the queue write to one ledger.
-/

namespace OpenExec.ReleaseManager

open Release TaskQueue GuardedRuns Option

structure Shared where
  first : Manager
  second : Manager
  backlog : Backlog

inductive SharedAction
  | first (operation : Operation)
  | second (operation : Operation)
  | queue (action : LedgerAction)

/-- A failed operation is a step too: it may have changed the cache and written
some of its rows. -/
def stepShared (naming : RepairNaming) (state : Shared) : SharedAction → Option Shared
  | .first operation =>
    let performed := perform state.first state.backlog operation
    some { state with first := performed.manager, backlog := performed.backlog }
  | .second operation =>
    let performed := perform state.second state.backlog operation
    some { state with second := performed.manager, backlog := performed.backlog }
  | .queue action =>
    (stepLedger naming state.backlog.toTaskLedger action).map fun ledger =>
      { state with backlog := { state.backlog with toTaskLedger := ledger } }

def SharedAction.performs (state : Shared) : SharedAction → Option (Manager × Operation)
  | .first operation => some (state.first, operation)
  | .second operation => some (state.second, operation)
  | .queue _ => none

theorem stepShared_backlog {naming : RepairNaming} {state next : Shared} {action : SharedAction}
    {manager : Manager} {operation : Operation} (taken : stepShared naming state action = some next)
    (performs : action.performs state = some (manager, operation)) :
    next.backlog = (perform manager state.backlog operation).backlog := by
  cases action with
  | first | second =>
    cases performs
    cases taken
    rfl
  | queue => simp [SharedAction.performs] at performs

def Operation.Addressed : Operation → Prop
  | .createTask _ _ | .createStory _ _ _ | .updateStory _ | .setStoryStatus _ _
  | .reassignTask _ _ _ | .linkCommitToTask _ _ _ | .setTaskPR _ _ _ | .approveTask _ _ _ _
  | .rejectTask _ _ _ _ | .completeTask _ _ _ _ => True
  | _ => False

/-- Every task row that the operation does not name is as it was. -/
def TasksFramed (operation : Operation) (before after : Backlog) : Prop :=
  ∀ id, ¬ operation.Names id → after.task? id = before.task? id

/-- The operation ends before it saves, or the ledger has every cached task that
it does not name as the cache would write it. -/
def CacheCurrent (manager : Manager) (backlog : Backlog) (operation : Operation) : Prop :=
  (∃ edited, stage manager backlog operation = .saves edited) →
    ∀ id task, ¬ operation.Names id → manager.task? id = some task →
      backlog.task? id = some (task.columns (backlog.task? id))

section

variable {manager after : Manager} {backlog written : Backlog} {operation : Operation}

section

variable (addressed : operation.Addressed)
include addressed

theorem Operation.Addressed.keepsAll : ¬ Deletes manager operation := by
  cases operation <;> first | exact addressed.elim | exact fun deletes => deletes

theorem stage_refuses
    (staged : stage manager backlog operation = .refuses after written) : written = backlog := by
  have ends := @stage_ends manager backlog operation
  rw [staged] at ends
  cases ends with
  | refused edited => rfl
  | repaired isRepair _ => exact absurd addressed (by rw [isRepair]; exact fun named => named)

theorem stage_returns_framed (staged : stage manager backlog operation = .returns after written) :
    TasksFramed operation backlog written := by
  have ends := @stage_ends manager backlog operation
  rw [staged] at ends
  cases ends with
  | unchanged | loaded => exact fun _ _ => rfl
  | updated task existing named _ =>
    intro id unnamed
    have different : (task.columns (some existing)).id ≠ id :=
      fun isID => unnamed (isID ▸ named)
    rw [task?_putTask, if_neg different]
  | repaired isOther _ | imported isOther _ =>
    exact absurd addressed (by rw [isOther]; exact fun named => named)

theorem perform_framed (current : CacheCurrent manager backlog operation) :
    TasksFramed operation backlog (perform manager backlog operation).backlog := by
  unfold perform
  cases staged : stage manager backlog operation with
  | refuses after written =>
    rw [stage_refuses addressed staged]
    exact fun _ _ => rfl
  | returns after written => exact stage_returns_framed addressed staged
  | saves edited =>
    intro id unnamed
    have edits := stage_edits staged addressed.keepsAll
    rcases @saveUnlocked_task? edited backlog id with same | ⟨task, cached, saved⟩
    · exact same
    · rw [edits.task?_unnamed unnamed] at cached
      exact saved.trans (current ⟨edited, staged⟩ id task unnamed cached).symm

theorem current_of_framed (succeeded : (perform manager backlog operation).succeeded)
    (framed : TasksFramed operation backlog (perform manager backlog operation).backlog) :
    CacheCurrent manager backlog operation := by
  rintro ⟨edited, staged⟩ id task unnamed cached
  have edits := stage_edits staged addressed.keepsAll
  have same := framed id unnamed
  simp only [perform, staged] at succeeded same
  obtain ⟨_, _, saved⟩ := saveUnlocked_accepted succeeded id
  rw [edits.task?_unnamed unnamed, cached, map_some, some_or] at saved
  exact same.symm.trans saved

end

/-- The store reads the row back as it wrote it: no approval columns without an
approval status, no pull request columns without a commit or a branch. -/
structure ReadBack (row : TaskRow) : Prop where
  approval : row.approval.status = .blank → row.approval = {}
  request : row.gitCommits = [] → row.branch = "" → row.prNumber = none ∧ row.prURL = ""

theorem ReadBack.columns {row : TaskRow} (readBack : ReadBack row) :
    (scanTask row).columns (some row) = row := by
  have approval : (parseApproval row.approval).getD {} = row.approval := by
    unfold parseApproval
    split
    · next blank => exact (readBack.approval blank).symm
    · rfl
  have git : ((scanTask row).git.getD {}) =
      { commits := row.gitCommits, branch := row.branch, prNumber := row.prNumber
        prURL := row.prURL } := by
    unfold scanTask
    split
    · rfl
    next blank =>
    rw [not_or, not_not, not_not] at blank
    obtain ⟨noCommits, noBranch⟩ := blank
    obtain ⟨noNumber, noURL⟩ := readBack.request noCommits noBranch
    rw [noCommits, noBranch, noNumber, noURL]
    rfl
  unfold Task.columns
  rw [git]
  simp only [scanTask, approval, map_some, getD_some]

theorem cacheCurrent_refreshCache (readBack : ∀ row ∈ backlog.tasks, ReadBack row) :
    CacheCurrent (refreshCache manager backlog) backlog operation := by
  intro _ id task _ cached
  rw [refreshCache_task?] at cached
  obtain ⟨row, found, rfl⟩ := map_eq_some_iff.mp cached
  rw [found, (readBack row (TaskLedger.task?_mem found)).columns]

end

/-- Whatever the other writers did before, a step that performs an addressed
operation leaves the task rows alone that it does not name if its cache is
current; and if it succeeds, only then. -/
theorem addressed_operation_frames (naming : RepairNaming) {state next : Shared}
    {action : SharedAction} {manager : Manager} {operation : Operation}
    (addressed : operation.Addressed) (performs : action.performs state = some (manager, operation))
    (taken : stepShared naming state action = some next) :
    (CacheCurrent manager state.backlog operation →
        TasksFramed operation state.backlog next.backlog) ∧
      ((perform manager state.backlog operation).succeeded = true →
        (TasksFramed operation state.backlog next.backlog ↔
          CacheCurrent manager state.backlog operation)) := by
  rw [stepShared_backlog taken performs]
  refine ⟨perform_framed addressed, fun succeeded => ?_⟩
  exact ⟨current_of_framed addressed succeeded, perform_framed addressed⟩

def singleTaskBacklog : Backlog where
  toTaskLedger := singleTask

def opened : Shared where
  first := refreshCache {} singleTaskBacklog
  second := refreshCache {} singleTaskBacklog
  backlog := singleTaskBacklog

theorem addressed_operation_frames_opened :
    ∃ next, stepShared spelledNaming opened (.first (.createStory { id := "T" } none 1)) =
        some next ∧
      (next.backlog.story? "T").isSome ∧
      TasksFramed (.createStory { id := "T" } none 1) opened.backlog next.backlog := by
  refine ⟨_, rfl, by decide +kernel, ?_⟩
  have readBack : ∀ row ∈ singleTaskBacklog.tasks, ReadBack row := by
    intro row member
    obtain rfl := List.mem_singleton.mp member
    exact ⟨fun _ => rfl, fun _ _ => ⟨rfl, rfl⟩⟩
  have addressed : (Operation.createStory { id := "T" } none 1).Addressed := trivial
  have performs : (SharedAction.first (.createStory { id := "T" } none 1)).performs opened =
      some (refreshCache {} singleTaskBacklog, .createStory { id := "T" } none 1) := rfl
  exact (addressed_operation_frames spelledNaming addressed performs rfl).1
    (cacheCurrent_refreshCache readBack)

/-- A story is created by a manager that loaded its cache before the queue ran
the task, and by one that loaded it before the other completed the task: the
attempt, the failed check and the completion are undone. -/
theorem addressed_operation_overwrites :
    (∃ state next, Reachable (stepShared spelledNaming) anyStep opened state ∧
      stepShared spelledNaming state (.first (.createStory { id := "T" } none 1)) = some next ∧
      (state.backlog.task? "A").any (fun row => row.attemptCount = 1 ∧ row.status = .failed ∧
        row.metadata.verificationFailureEvidence = some "v1") ∧
      (next.backlog.task? "A").any (fun row => row.attemptCount = 0 ∧ row.status = .pending ∧
        row.metadata.verificationFailureEvidence = none)) ∧
    ∃ state next, Reachable (stepShared spelledNaming) anyStep opened state ∧
      stepShared spelledNaming state (.first (.createStory { id := "T" } none 1)) = some next ∧
      (state.backlog.task? "A").any (fun row => row.status = .done) ∧
      (next.backlog.task? "A").any fun row => row.status = .pending := by
  constructor
  · exact exists_step_reached [.queue (.start ["S"] "A"),
      .queue (.recordFailure { id := "v1", runID := "A" } 1)] (by decide +kernel)
  · exact exists_step_reached [.second (.completeTask "A" true .failed 1)] (by decide +kernel)

end OpenExec.ReleaseManager
