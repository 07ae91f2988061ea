import OpenExec.AttemptEdits
import OpenExec.ClosedTasks
import OpenExec.TaskQueueInvariants

/-!
# The task queue terminates

Every iteration that goes on spends an attempt or a repair, unless a failed task
already has the fix for its receipt without being closed: then
`CreateFailureRepair` returns that fix and the sweep starts over.
-/

namespace OpenExec.TaskQueue

open GoStrings GuardedRuns TaskLedger List Option

def QueueAnswers.recordedIDs (answers : QueueAnswers) : List String :=
  (answers.attempt :: answers.recaptures.map Prod.snd).filterMap AttemptRun.recordedID

/-- The receipts an iteration records are new to the ledger's fixes. -/
def FreshEvidence (ledger : TaskLedger) (answers : QueueAnswers) : Prop :=
  ∀ evidenceID ∈ answers.recordedIDs, ∀ row ∈ ledger.tasks,
    row.metadata.failureEvidence ≠ trimSpace evidenceID

instance (ledger : TaskLedger) (answers : QueueAnswers) :
    Decidable (FreshEvidence ledger answers) := by
  unfold FreshEvidence
  infer_instance

/-- No selected task that is still open has a fix for the receipt it carries. -/
def OpenUnanswered (options : QueueOptions) (ledger : TaskLedger) : Prop :=
  ∀ row ∈ ledger.tasks, Selected options row → row.metadata.fixedBy = "" →
    ∀ evidenceID ∈ row.metadata.verificationFailureEvidence, ∀ fix ∈ ledger.tasks,
      fix.metadata.fixOf = row.id → fix.metadata.failureEvidence ≠ trimSpace evidenceID

instance (options : QueueOptions) (ledger : TaskLedger) :
    Decidable (OpenUnanswered options ledger) := by
  unfold OpenUnanswered
  infer_instance

section

variable {answers : QueueAnswers} {evidenceID : String}

theorem QueueAnswers.attempt_recorded (isRecorded : answers.attempt.recordedID = some evidenceID) :
    evidenceID ∈ answers.recordedIDs :=
  mem_filterMap.mpr ⟨answers.attempt, mem_cons_self, isRecorded⟩

theorem QueueAnswers.recapture_recorded {id : String}
    (isRecorded : (answers.recapture id).recordedID = some evidenceID) :
    evidenceID ∈ answers.recordedIDs := by
  unfold recapture at isRecorded
  cases found : answers.recaptures.find? fun entry => entry.1 = id with
  | none =>
    rw [found] at isRecorded
    simp [AttemptRun.recordedID] at isRecorded
  | some entry =>
    rw [found] at isRecorded
    have listed := mem_map_of_mem (f := Prod.snd) (mem_of_find?_eq_some found)
    exact mem_filterMap.mpr ⟨entry.2, mem_cons_of_mem _ listed, isRecorded⟩

end

section

variable {recorded known : String → Prop} {completes : Prop}
  {start ledger current next : TaskLedger}
  {options : QueueOptions} {roots : List String} {naming : RepairNaming} {answers : QueueAnswers}
  {id : String} {task row : TaskRow}

theorem Develops.weaken (develops : Develops recorded False start ledger) :
    Develops recorded completes start ledger := by
  induction develops with
  | initial => exact .initial
  | edited _ edits ih =>
    obtain ⟨change, isTasks, edited⟩ := edits
    refine ih.edited ⟨change, isTasks, fun row member => ?_⟩
    have edit := edited row member
    exact { edit with
      finished := fun done => (edit.finished done).imp_right fun impossible => impossible.elim }
  | repaired _ repaired failed trimmed ih => exact ih.repaired repaired failed trimmed

/-- The sweep has spent work as soon as it has handled a failure. -/
structure Swept (recorded : String → Prop) (roots : List String) (start current : TaskLedger)
    (processed : Bool) : Prop where
  develops : Develops recorded False start current
  spent : current = start ∧ processed = false ∨
    processed = true ∧ queueWork roots current < queueWork roots start

def SweepResult.Spends (recorded : String → Prop) (roots : List String) (start : TaskLedger) :
    SweepResult → Prop
  | swept next processed => Swept recorded roots start next processed
  | ended next => Develops recorded False start next

theorem sweepRetained_spends (ready : QueueReady options roots known start)
    (fresh : ∀ evidenceID ∈ answers.recordedIDs, ¬ known (trimSpace evidenceID))
    {rows : List TaskRow} {processed : Bool}
    (listed : ∀ task ∈ rows, task ∈ start.tasks ∧ task.storyID ∈ options.storyIDs)
    (swept : Swept (· ∈ answers.recordedIDs) roots start current processed) :
    (sweepRetained naming options answers rows current processed).Spends
      (· ∈ answers.recordedIDs) roots start := by
  induction rows generalizing current processed with
  | nil => exact swept
  | cons task rest ih =>
    have later := fun task member => listed task (mem_cons_of_mem _ member)
    unfold sweepRetained
    split
    · next handled =>
      simp only [hasRetainedFailure, Bool.and_eq_true, decide_eq_true_eq] at handled
      obtain ⟨⟨⟨failed, bound⟩, isOpen⟩, kept⟩ := handled
      obtain ⟨inStart, inStory⟩ := listed task mem_cons_self
      have trimmed := ready.trimmed task inStart
      have notDone (row : TaskRow) (found : current.task? task.id = some row) :
          row.status ≠ .done := by
        intro done
        obtain ⟨before, isBefore, wasDone⟩ := swept.develops.done_before found done
        obtain rfl := Option.some.inj ((task?_of_mem inStart).symm.trans isBefore)
        exact absurd (failed.symm.trans wasDone) (by simp)
      have covered (evidenceID : String)
          (isRecorded : (answers.recapture task.id).recordedID = some evidenceID) :
          evidenceID ∈ answers.recordedIDs := QueueAnswers.recapture_recorded isRecorded
      have leavesDeveloped {next : TaskLedger} (leaves : (repairTaskFromRetainedFailure naming
          current answers.now task.id (task.metadata.verificationFailureEvidence.getD "")
          (answers.recapture task.id)).Leaves next) :
          Develops (· ∈ answers.recordedIDs) False start next :=
        swept.develops.trans
          (repairTaskFromRetainedFailure_develops covered trimmed notDone leaves)
      split
      · next next proceeds =>
        refine ih later ⟨leavesDeveloped (.inl proceeds), .inr ⟨rfl, ?_⟩⟩
        have rooted := (ready.develops fresh swept.develops).rooted
        rcases repairTaskFromRetainedFailure_queueWork covered trimmed notDone rooted proceeds
          with spends | ⟨rfl, fix, isFix, fixes, evidence⟩
        · rcases swept.spent with ⟨rfl, _⟩ | ⟨_, spent⟩
          · exact spends
          · exact spends.trans spent
        · rcases swept.spent with ⟨rfl, _⟩ | ⟨_, spent⟩
          · refine absurd evidence ?_
            refine ready.unanswered task inStart ⟨inStory, kept⟩ isOpen _ ?_ fix isFix fixes
            cases carried : task.metadata.verificationFailureEvidence with
            | none => exact absurd (by simp [carried]) bound
            | some evidenceID => rfl
          · exact spent
      · exact ih later swept
      · next next refuses => exact leavesDeveloped (.inr refuses)
    · exact ih later swept

theorem setTaskStatus_failed_row {accepted : Bool}
    (found : ((setTaskStatus ledger id .failed accepted).getD ledger).task? id = some row) :
    row.status = .failed := by
  unfold setTaskStatus at found
  cases before : ledger.task? id with
  | none =>
    simp only [before, getD_none] at found
    cases found
  | some task =>
    simp only [before] at found
    rw [if_neg (by simp), getD_some, changeTask, task?_mapTasks,
      before] at found
    cases found
    simp [task?_id before]

theorem disposeFailure_develops {attempt : Int} {evidence? : Option String} {reason : String}
    (trimmed : trimSpace id = id) : Develops (· ∈ answers.recordedIDs) completes ledger
      (disposeFailure naming ledger answers id attempt evidence? reason).ledger := by
  have fails : Develops (· ∈ answers.recordedIDs) completes ledger
      ((setTaskStatus ledger id .failed true).getD ledger) :=
    .edited .initial setTaskStatus_failed_edits
  have failedRow (row : TaskRow)
      (found : ((setTaskStatus ledger id .failed true).getD ledger).task? id = some row) :
      row.status = .failed := setTaskStatus_failed_row found
  unfold disposeFailure
  simp only
  generalize (setTaskStatus ledger id .failed true).getD ledger = failed at fails failedRow ⊢
  have stops {next : TaskLedger}
      (handled : fixProviderStop naming failed answers.now id attempt (trimSpace reason) =
          .fixed next ∨
        fixProviderStop naming failed answers.now id attempt (trimSpace reason) = .refused next) :
      Develops (· ∈ answers.recordedIDs) completes ledger next := by
    rcases fixProviderStop_cases handled with same | ⟨fix, task, root, _, repaired, isTask, isFix⟩
    · exact fails.edited (Edits.sameTasks same)
    · rw [trimmed] at isTask
      refine fails.repaired repaired (failedRow task (isTask ▸ repaired.found)) ?_
      exact isFix ▸ naming.trimSpace_repairID _ _
  split
  · next evidenceID =>
    have repairs {next : TaskLedger} (leaves : (repairTaskFromRetainedFailure naming failed
        answers.now id evidenceID (answers.recapture id)).Leaves next) :
        Develops (· ∈ answers.recordedIDs) completes ledger next := by
      refine fails.trans (repairTaskFromRetainedFailure_develops
        (fun _ => QueueAnswers.recapture_recorded) trimmed ?_ leaves)
      intro row found done
      exact absurd ((failedRow row found).symm.trans done) (by simp)
    split
    · next next proceeds => exact repairs (.inl proceeds)
    · exact fails
    · next next refuses => exact repairs (.inr refuses)
  · split
    · exact fails
    · split
      · next next isFixed => exact stops (.inl isFixed)
      · next next isRefused => exact stops (.inr isRefused)
      · exact fails

theorem attemptTask_develops (trimmed : trimSpace task.id = task.id) :
    Develops (· ∈ answers.recordedIDs) True (beginAttempt ledger task.id)
      (attemptTask naming ledger answers task).ledger := by
  have runs : Develops (· ∈ answers.recordedIDs) True (beginAttempt ledger task.id)
      (runAttempt (beginAttempt ledger task.id) task.id (task.attemptCount + 1)
        answers.attempt).1 :=
    .edited .initial (runAttempt_edits (fun _ => QueueAnswers.attempt_recorded) _)
  unfold attemptTask
  simp only
  split
  · exact .edited .initial setTaskStatus_failed_edits
  · split
    · exact runs
    · next finished => exact runs.edited (finishDone_edits trivial finished)
  · exact runs.trans (disposeFailure_develops trimmed)
  · exact runs

theorem beginAttempt_queueWork (found : ledger.task? id = some row)
    (unfixed : row.metadata.fixedBy = "") (left : row.attemptCount < row.maxAttempts) :
    queueWork roots (beginAttempt ledger id) < queueWork roots ledger := by
  have begins : Edits (fun _ => False) False ledger (beginAttempt ledger id) :=
    beginAttempt_edits found unfixed left
  obtain ⟨after, isAfter, _⟩ := begins.task? found
  refine begins.queueWork_lt found isAfter left ?_
  rw [beginAttempt, changeTask, task?_mapTasks, found] at isAfter
  cases isAfter
  simp [task?_id found]

theorem attemptTask_spends (naming : RepairNaming) (ready : QueueReady options roots known ledger)
    (fresh : ∀ evidenceID ∈ answers.recordedIDs, ¬ known (trimSpace evidenceID))
    (selected : task ∈ runnableTasks ledger options.storyIDs "") :
    Develops (· ∈ answers.recordedIDs) True ledger (attemptTask naming ledger answers task).ledger ∧
      queueWork roots (attemptTask naming ledger answers task).ledger < queueWork roots ledger := by
  obtain ⟨row, found, unfixed, left⟩ := runnable_row selected
  have trimmed : trimSpace task.id = task.id := by
    rw [← task?_id found]
    exact ready.trimmed row (task?_mem found)
  have begins : Edits (· ∈ answers.recordedIDs) True ledger (beginAttempt ledger task.id) :=
    beginAttempt_edits found unfixed left
  have develops : Develops (· ∈ answers.recordedIDs) True (beginAttempt ledger task.id)
      (attemptTask naming ledger answers task).ledger := attemptTask_develops trimmed
  refine ⟨(Develops.edited .initial begins).trans develops, ?_⟩
  calc queueWork roots (attemptTask naming ledger answers task).ledger
      ≤ queueWork roots (beginAttempt ledger task.id) :=
        (ready.edits fresh begins).queueWork_le fresh develops
    _ < queueWork roots ledger := beginAttempt_queueWork found unfixed left

theorem continueQueue_continues
    (continued : continueQueue naming options ledger answers = some next) :
    queueIteration naming options ledger answers = .continues next := by
  unfold continueQueue at continued
  split at continued
  · next continues => rw [continues, Option.some.inj continued]
  · cases continued

theorem drainQueue_returns (options : QueueOptions) (ledger : TaskLedger) :
    ∃ verdict, drainQueue options ledger = .returns ledger verdict := by
  unfold drainQueue
  split
  · exact ⟨_, rfl⟩
  · simp only
    split <;> exact ⟨_, rfl⟩

theorem queueIteration_spends (naming : RepairNaming)
    (ready : QueueReady options roots known ledger)
    (fresh : ∀ evidenceID ∈ answers.recordedIDs, ¬ known (trimSpace evidenceID)) :
    Develops (· ∈ answers.recordedIDs) True ledger
        (queueIteration naming options ledger answers).ledger ∧
      ∀ next, queueIteration naming options ledger answers = .continues next →
        queueWork roots next < queueWork roots ledger := by
  unfold queueIteration
  iterate 3
    split
    · exact ⟨.initial, by simp⟩
  next retained isRetained =>
  have spends := @sweepRetained_spends _ ledger ledger options roots naming answers ready fresh
    retained false (fun task member => (mem_tasksInStories isRetained).mp member)
    ⟨.initial, .inl ⟨rfl, rfl⟩⟩
  split
  · next next isEnded =>
    rw [isEnded] at spends
    exact ⟨Develops.weaken spends, by simp⟩
  · next next isSwept =>
    rw [isSwept] at spends
    refine ⟨spends.develops.weaken, ?_⟩
    rintro _ ⟨⟩
    exact (spends.spent.resolve_left (by simp)).2
  · next next isSwept =>
    rw [isSwept] at spends
    obtain ⟨rfl, _⟩ := spends.spent.resolve_right (by simp)
    split
    · obtain ⟨verdict, drains⟩ := drainQueue_returns options next
      rw [drains]
      exact ⟨.initial, by simp⟩
    · next task _ isReady =>
      have selected : task ∈ (runnableTasks next options.storyIDs "").filter options.keep := by
        rw [isReady]
        exact mem_cons_self
      obtain ⟨develops, lower⟩ :=
        attemptTask_spends naming ready fresh (mem_filter.mp selected).1
      refine ⟨develops, fun later continues => ?_⟩
      rw [continues] at lower
      exact lower

def TaskLedger.HasFixFor (ledger : TaskLedger) (evidenceID : String) : Prop :=
  ∃ fix ∈ ledger.tasks, fix.metadata.failureEvidence = evidenceID

variable {stored : TaskLedger}

theorem QueueReady.renew (ready : QueueReady options roots known ledger) :
    QueueReady options roots ledger.HasFixFor ledger :=
  { ready with answered := fun fix isFix => .inl ⟨fix, isFix, rfl⟩ }

theorem FreshEvidence.unknown (fresh : FreshEvidence ledger answers) :
    ∀ evidenceID ∈ answers.recordedIDs, ¬ ledger.HasFixFor (trimSpace evidenceID) := by
  rintro evidenceID isRecorded ⟨fix, isFix, same⟩
  exact fresh evidenceID isRecorded fix isFix same

theorem reconcileInterruptedTasks_edits {recorded : String → Prop} {completes : Prop}
    (reconciled : reconcileInterruptedTasks options stored = some start) :
    Edits recorded completes stored start := by
  obtain ⟨tasks, isTasks, isStart⟩ := map_eq_some_iff.mp reconciled
  rw [← isStart]
  generalize tasks.filter options.keep = selected
  clear isTasks isStart reconciled
  induction selected generalizing stored with
  | nil => exact Edits.refl stored
  | cons task rest ih => exact (reconcileTask_edits task).trans ih

theorem OpenUnanswered.ready (trimmed : ∀ row ∈ stored.tasks, trimSpace row.id = row.id)
    (unanswered : OpenUnanswered options stored)
    (reconciled : reconcileInterruptedTasks options stored = some start) :
    QueueReady options (stored.tasks.map TaskRow.rootID) start.HasFixFor start := by
  have edits : Edits (fun _ => False) False stored start :=
    reconcileInterruptedTasks_edits reconciled
  have ready : QueueReady options (stored.tasks.map TaskRow.rootID) stored.HasFixFor stored :=
    ⟨trimmed, fun row member => mem_map_of_mem member,
      fun fix isFix => .inl ⟨fix, isFix, rfl⟩, unanswered⟩
  exact (ready.edits (fun _ impossible => impossible.elim) edits).renew

/-- What every iteration of a run starts from. -/
structure QueueKept (options : QueueOptions) (stored ledger : TaskLedger) : Prop where
  ready : QueueReady options (stored.tasks.map TaskRow.rootID) ledger.HasFixFor ledger
  within : WithinAttempts stored → WithinAttempts ledger
  budgeted : RepairsBudgeted stored ledger

theorem QueueKept.iteration (kept : QueueKept options stored ledger)
    (fresh : FreshEvidence ledger answers) (naming : RepairNaming) :
    QueueKept options stored (queueIteration naming options ledger answers).ledger := by
  obtain ⟨develops, _⟩ := queueIteration_spends naming kept.ready fresh.unknown
  refine ⟨(kept.ready.develops fresh.unknown develops).renew, ?_, kept.budgeted.develops develops⟩
  intro within
  exact (kept.within within).develops develops

theorem queueKept_of_reachable (trimmed : ∀ row ∈ stored.tasks, trimSpace row.id = row.id)
    (unanswered : OpenUnanswered options stored)
    (reconciled : reconcileInterruptedTasks options stored = some start)
    (reachable : Reachable (continueQueue naming options) FreshEvidence start ledger) :
    QueueKept options stored ledger := by
  have edits : Edits (fun _ => False) False stored start :=
    reconcileInterruptedTasks_edits reconciled
  have develops : Develops (fun _ => False) False stored start := .edited .initial edits
  refine reachable.invariant ?_ ?_
  · exact ⟨unanswered.ready trimmed reconciled, fun within => within.develops develops,
      (RepairsBudgeted.refl stored).develops develops⟩
  · intro ledger answers next kept fresh continued
    have iteration := kept.iteration fresh naming
    rw [continueQueue_continues continued] at iteration
    exact iteration

/-- The loop goes round at most as often as there is work in the stored ledger,
no attempt count passes its limit, and the fixes created for failures of a root
stay within the root's limit. -/
theorem taskQueue_terminates (naming : RepairNaming) {options : QueueOptions}
    {stored start : TaskLedger} (trimmed : ∀ row ∈ stored.tasks, trimSpace row.id = row.id)
    (unanswered : OpenUnanswered options stored)
    (reconciled : reconcileInterruptedTasks options stored = some start) :
    (∀ rounds last, run (continueQueue naming options) FreshEvidence start rounds = some last →
      rounds.length ≤ queueWork (stored.tasks.map TaskRow.rootID) stored) ∧
    ∀ ledger answers, Reachable (continueQueue naming options) FreshEvidence start ledger →
      FreshEvidence ledger answers →
      (WithinAttempts stored →
        WithinAttempts (queueIteration naming options ledger answers).ledger) ∧
      RepairsBudgeted stored (queueIteration naming options ledger answers).ledger := by
  refine ⟨?_, ?_⟩
  · intro rounds last runs
    have bound := length_le_of_run (queueWork (stored.tasks.map TaskRow.rootID)) ?_ runs
    · have edits : Edits (fun _ => False) False stored start :=
        reconcileInterruptedTasks_edits reconciled
      have reconciledWork : queueWork (stored.tasks.map TaskRow.rootID) start ≤
          queueWork (stored.tasks.map TaskRow.rootID) stored := edits.queueWork_le
      omega
    · intro ledger answers next reachable fresh continued
      have kept := queueKept_of_reachable trimmed unanswered reconciled reachable
      obtain ⟨_, lower⟩ := queueIteration_spends naming kept.ready fresh.unknown
      exact lower next (continueQueue_continues continued)
  · intro ledger answers reachable fresh
    have kept := queueKept_of_reachable trimmed unanswered reconciled reachable
    have iteration := kept.iteration fresh naming
    exact ⟨iteration.within, iteration.budgeted⟩

end

def failsThenFixed : List QueueAnswers :=
  [{ attempt := { recorded := some ("v1", { text := "broken" }), ending := .failed "check" } },
    { attempt := { ending := .complete true } }]

theorem taskQueue_terminates_singleTask :
    reconcileInterruptedTasks { storyIDs := ["S"] } singleTask = some singleTask ∧
      ∃ last, run (continueQueue spelledNaming { storyIDs := ["S"] }) FreshEvidence singleTask
          failsThenFixed = some last ∧
        last.tasks.map (fun row => (row.id, row.attemptCount)) = [("A", 1), ("repair-A.v1", 1)] ∧
        failsThenFixed.length ≤ queueWork ["A"] singleTask ∧ WithinAttempts last := by
  have reconciled : reconcileInterruptedTasks { storyIDs := ["S"] } singleTask =
    some singleTask := by
    decide +kernel
  have runs : ((run (continueQueue spelledNaming { storyIDs := ["S"] }) FreshEvidence singleTask
      failsThenFixed).any fun last =>
        last.tasks.map (fun row => (row.id, row.attemptCount)) =
          [("A", 1), ("repair-A.v1", 1)]) = true := by
    decide +kernel
  obtain ⟨last, isLast, counts⟩ := (any_eq_true _ _).mp runs
  obtain ⟨bounded, keeps⟩ := taskQueue_terminates spelledNaming
    (by decide +kernel) (by decide +kernel) reconciled
  refine ⟨reconciled, last, isLast, of_decide_eq_true counts, bounded _ _ isLast, ?_⟩
  exact (keeps last { cancelled := true } (reachable_of_run isLast)
    (fun _ impossible => absurd impossible not_mem_nil)).1 (by decide)

/-- A failed task that is still open although the fix for its receipt exists. -/
def unclosedFailure : TaskLedger where
  tasks :=
    [{ id := "A", storyID := "S", status := .failed, attemptCount := 1
       metadata := { verificationFailureEvidence := some "v1" } },
      { id := "repair-A.v1", storyID := "S", maxAttempts := 2
        metadata :=
          { fixOf := "A"
            repairOf := some "A"
            failureEvidence := "v1"
            failureKind := some .check
            diagnosis := "Fix task for A after A: v1" } }]
  stories := [{ id := "S", tasks := ["A", "repair-A.v1"] }]
  steps := [{ id := "v1", runID := "A" }]
  tasksUnique := by decide
  storiesUnique := by decide
  stepsUnique := nodup_singleton "v1"

theorem unclosedFailure_runs_forever :
    reconcileInterruptedTasks { storyIDs := ["S"] } unclosedFailure = some unclosedFailure ∧
      ∀ rounds, run (continueQueue spelledNaming { storyIDs := ["S"] }) anyStep unclosedFailure
        (List.replicate rounds {}) = some unclosedFailure := by
  refine ⟨by decide +kernel, ?_⟩
  have repeats : continueQueue spelledNaming { storyIDs := ["S"] } unclosedFailure {} =
      some unclosedFailure := by
    decide +kernel
  intro rounds
  induction rounds with
  | zero => rfl
  | succ rounds ih =>
    exact ih

end OpenExec.TaskQueue
