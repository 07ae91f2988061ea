import OpenExec.TaskQueueWork

/-!
# Attempts, recaptures and repairs as edits

What handling one failed task leaves: an edited ledger, or one with a fix for
it.  A recapture and a new fix spend some of the ledger's work.
-/

namespace OpenExec.TaskQueue

open GoStrings TaskLedger

def AttemptRun.recordedID (run : AttemptRun) : Option String :=
  run.recorded.map Prod.fst

def Handled.Leaves (handled : Handled) (next : TaskLedger) : Prop :=
  handled = .proceeds next ∨ handled = .refuses next

variable {recorded : String → Prop} {completes : Prop} {ledger next : TaskLedger}
  {id evidenceID : String} {run : AttemptRun} {roots : List String} {naming : RepairNaming}
  {now : Nat} {row : TaskRow} {attempt : Int}

theorem leaves_proceeds : (Handled.proceeds ledger).Leaves next ↔ ledger = next := by
  simp [Handled.Leaves]

theorem leaves_refuses : (Handled.refuses ledger).Leaves next ↔ ledger = next := by
  simp [Handled.Leaves]

theorem runAttempt_edits (covered : ∀ evidenceID, run.recordedID = some evidenceID →
    recorded evidenceID) (attempt : Int) :
    Edits recorded completes ledger (runAttempt ledger id attempt run).1 := by
  have ended {reached : TaskLedger} {evidence : Option String}
      (edits : Edits recorded completes ledger reached) :
      Edits recorded completes ledger
        (if run.ending = .paused then (pauseAttempt reached id attempt, evidence)
          else (reached, evidence)).1 := by
    split
    · exact edits.trans (guardedStatus_edits (by simp) (by simp))
    · exact edits
  unfold runAttempt
  cases isRecorded : run.recorded with
  | none => exact ended (Edits.refl ledger)
  | some step =>
    obtain ⟨stepID, receipt⟩ := step
    by_cases valid : receipt.valid
    · cases taken : recordTaskFailureStep ledger { id := stepID, runID := id, receipt } attempt with
      | none =>
        simp only [if_pos valid, taken]
        exact ended (Edits.refl ledger)
      | some next =>
        simp only [if_pos valid, taken]
        exact ended (recordTaskFailureStep_edits
          (covered stepID (by simp [AttemptRun.recordedID, isRecorded])) taken)
    · simp only [if_neg valid]
      exact ended (Edits.refl ledger)

theorem finishRecapture_getD_edits {outcome : RecaptureOutcome} :
    Edits recorded completes ledger ((finishRecapture ledger id attempt outcome).getD ledger) := by
  cases finished : finishRecapture ledger id attempt outcome with
  | none => exact Edits.refl ledger
  | some next => exact finishRecapture_edits finished

theorem setTaskStatus_failed_edits {accepted : Bool} :
    Edits recorded completes ledger ((setTaskStatus ledger id .failed accepted).getD ledger) := by
  cases isSet : setTaskStatus ledger id .failed accepted with
  | none => exact Edits.refl ledger
  | some next => exact setTaskStatus_edits (by simp) (by simp) isSet

theorem runRecapture_edits (covered : ∀ evidenceID, run.recordedID = some evidenceID →
    recorded evidenceID) {maxAttempts : Int}
    (leaves : (runRecapture ledger id attempt maxAttempts run).Leaves next) :
    Edits recorded completes ledger next := by
  have ran : Edits recorded completes ledger (runAttempt ledger id attempt run).1 :=
    runAttempt_edits covered attempt
  have terminal {before : TaskLedger} {outcome : RecaptureOutcome}
      (leaves : (terminalRecapture before id attempt outcome).Leaves next) :
      Edits recorded completes before next := by
    obtain rfl := leaves_refuses.mp leaves
    exact finishRecapture_getD_edits
  unfold runRecapture at leaves
  simp only at leaves
  split at leaves
  · exact terminal leaves
  · exact ran.trans (terminal leaves)
  · split at leaves
    · obtain rfl := leaves_refuses.mp leaves
      exact ran
    · next finished =>
      obtain rfl := leaves_proceeds.mp leaves
      exact ran.trans (finishRecapture_edits finished)
  · split at leaves
    · exact ran.trans (terminal leaves)
    · split at leaves
      · obtain rfl := leaves_refuses.mp leaves
        exact ran
      · next finished =>
        split at leaves
        · exact (ran.trans (finishRecapture_edits finished)).trans (terminal leaves)
        obtain rfl := leaves_proceeds.mp leaves
        exact ran.trans (finishRecapture_edits finished)

theorem claimRecapture_counts (taken : claimRecapture ledger id evidenceID = some next) :
    ∃ row after, ledger.task? id = some row ∧ next.task? id = some after ∧
      row.attemptCount < row.maxAttempts ∧ row.attemptCount < after.attemptCount := by
  unfold claimRecapture at taken
  split at taken
  · cases taken
  next task found =>
  obtain ⟨admitted, ⟨⟩⟩ := Option.ite_none_right_eq_some.mp taken
  have named := task?_id found
  rw [TaskLedger.changeTask, task?_mapTasks, found]
  refine ⟨task, _, rfl, rfl, admitted.2.2.1, ?_⟩
  simp [named]

theorem recaptureTaskFailure_cases {receipt : Receipt} :
    recaptureTaskFailure ledger id evidenceID receipt run = .waits ∨
      (∃ next, recaptureTaskFailure ledger id evidenceID receipt run = .refuses next ∧
        Edits recorded completes ledger next) ∨
      ∃ claimed attempt maxAttempts, claimRecapture ledger id evidenceID = some claimed ∧
        recaptureTaskFailure ledger id evidenceID receipt run =
          runRecapture claimed id attempt maxAttempts run := by
  unfold recaptureTaskFailure
  split
  · exact .inr (.inl ⟨ledger, rfl, Edits.refl ledger⟩)
  next task _ =>
  split
  · exact .inr (.inl ⟨ledger, rfl, Edits.refl ledger⟩)
  iterate 3
    split
    · exact .inr (.inl ⟨_, rfl, finishRecapture_getD_edits⟩)
  split
  · exact .inl rfl
  · split
    · exact .inr (.inl ⟨ledger, rfl, Edits.refl ledger⟩)
    · next claimed taken => exact .inr (.inr ⟨claimed, _, _, taken, rfl⟩)

section

variable (covered : ∀ evidenceID, run.recordedID = some evidenceID → recorded evidenceID)
include covered

variable {receipt : Receipt}

theorem recaptureTaskFailure_edits
    (leaves : (recaptureTaskFailure ledger id evidenceID receipt run).Leaves next) :
    Edits recorded completes ledger next := by
  rcases @recaptureTaskFailure_cases recorded completes ledger id evidenceID run receipt with
    waits | ⟨other, refuses, edits⟩ | ⟨claimed, attempt, maxAttempts, taken, isRun⟩
  · rcases leaves with isNext | isNext <;> exact absurd (waits.symm.trans isNext) (by simp)
  · obtain rfl := leaves_refuses.mp (refuses ▸ leaves)
    exact edits
  · rw [isRun] at leaves
    exact (claimRecapture_edits taken).trans (runRecapture_edits covered leaves)

theorem recaptureTaskFailure_queueWork
    (proceeds : recaptureTaskFailure ledger id evidenceID receipt run = .proceeds next) :
    queueWork roots next < queueWork roots ledger := by
  rcases @recaptureTaskFailure_cases recorded False ledger id evidenceID run receipt with
    waits | ⟨other, refuses, _⟩ | ⟨claimed, attempt, maxAttempts, taken, isRun⟩
  · exact absurd (waits.symm.trans proceeds) (by simp)
  · exact absurd (refuses.symm.trans proceeds) (by simp)
  · obtain ⟨row, after, found, isAfter, left, counted⟩ := claimRecapture_counts taken
    have claims : Edits recorded False ledger claimed := claimRecapture_edits taken
    have runs : Edits recorded False claimed next :=
      runRecapture_edits covered (.inl (isRun.symm.trans proceeds))
    exact runs.queueWork_le.trans_lt (claims.queueWork_lt found isAfter left counted)

end

theorem repairTaskFromRetainedFailure_cases
    (leaves : (repairTaskFromRetainedFailure naming ledger now id evidenceID run).Leaves next) :
    repairTaskFromRetainedFailure naming ledger now id evidenceID run = .refuses ledger ∨
      (∃ receipt, repairTaskFromRetainedFailure naming ledger now id evidenceID run =
        recaptureTaskFailure ledger id evidenceID receipt run) ∨
      ∃ diagnosis, createFailureRepair ledger now naming id evidenceID diagnosis = .ok next := by
  unfold repairTaskFromRetainedFailure at leaves ⊢
  split
  · exact .inl rfl
  next step found =>
  simp only [found] at leaves
  split
  · exact .inl rfl
  next accepted =>
  rw [if_neg accepted] at leaves
  split
  · exact .inr (.inl ⟨step.receipt, rfl⟩)
  next diagnosed =>
  rw [if_neg diagnosed] at leaves
  split
  · exact .inl rfl
  next failed isFailed =>
  simp only [isFailed] at leaves
  split
  · exact .inl rfl
  next original isOriginal =>
  simp only [isOriginal] at leaves
  split
  · exact .inl rfl
  next repaired created =>
  simp only [created] at leaves
  obtain rfl := leaves_proceeds.mp leaves
  exact .inr (.inr ⟨_, created⟩)

variable (covered : ∀ evidenceID, run.recordedID = some evidenceID → recorded evidenceID)
include covered

theorem repairTaskFromRetainedFailure_develops (trimmed : trimSpace id = id)
    (notDone : ∀ row, ledger.task? id = some row → row.status ≠ .done)
    (leaves : (repairTaskFromRetainedFailure naming ledger now id evidenceID run).Leaves next) :
    Develops recorded completes ledger next := by
  rcases repairTaskFromRetainedFailure_cases leaves with refuses | ⟨receipt, recaptures⟩ |
    ⟨diagnosis, created⟩
  · obtain rfl := leaves_refuses.mp (refuses ▸ leaves)
    exact .initial
  · rw [recaptures] at leaves
    exact .edited .initial (recaptureTaskFailure_edits covered leaves)
  · rcases createFailureRepair_cases created with ⟨rfl, _⟩ |
      ⟨fix, task, root, repaired, isTask, _, isFix⟩
    · exact .initial
    · rw [trimmed] at isTask
      have failed := repaired.status.resolve_right (notDone task (isTask ▸ repaired.found))
      exact .repaired .initial repaired failed (isFix ▸ naming.trimSpace_repairID _ _)

theorem repairTaskFromRetainedFailure_queueWork (trimmed : trimSpace id = id)
    (notDone : ∀ row, ledger.task? id = some row → row.status ≠ .done)
    (rooted : ∀ row ∈ ledger.tasks, row.rootID ∈ roots)
    (proceeds : repairTaskFromRetainedFailure naming ledger now id evidenceID run =
      .proceeds next) :
    queueWork roots next < queueWork roots ledger ∨
      next = ledger ∧ ∃ fix ∈ ledger.tasks, fix.metadata.fixOf = id ∧
        fix.metadata.failureEvidence = trimSpace evidenceID := by
  rcases repairTaskFromRetainedFailure_cases (.inl proceeds) with refuses |
    ⟨receipt, recaptures⟩ | ⟨diagnosis, created⟩
  · exact absurd (refuses.symm.trans proceeds) (by simp)
  · exact .inl (recaptureTaskFailure_queueWork covered (recaptures.symm.trans proceeds))
  · rcases createFailureRepair_cases created with existing | ⟨fix, task, root, repaired, isTask, _⟩
    · rw [trimmed] at existing
      exact .inr existing
    · rw [trimmed] at isTask
      have failed := repaired.status.resolve_right (notDone task (isTask ▸ repaired.found))
      exact .inl (repaired.queueWork_lt failed (rooted task (task?_mem repaired.found)))

end OpenExec.TaskQueue
