import OpenExec.TaskQueueWork

/-!
# What a developing ledger keeps

Along edits in place and fixes for failed tasks: the attempt counts stay within
their limits, the fixes made for failures of a root stay within the root's
limit, and a selected open task has no fix for the receipt it carries.
-/

namespace OpenExec.TaskQueue

open GoStrings TaskLedger List Option Function

def WithinAttempts (ledger : TaskLedger) : Prop :=
  ∀ row ∈ ledger.tasks, row.attemptCount ≤ row.maxAttempts

instance (ledger : TaskLedger) : Decidable (WithinAttempts ledger) := by
  unfold WithinAttempts
  infer_instance

def TaskLedger.isFailureFix (ledger : TaskLedger) (fix : TaskRow) : Bool :=
  (ledger.task? fix.metadata.fixOf).any fun task =>
    task.metadata.fixedBy ≠ "" && task.metadata.fixedBy = fix.id

/-- How many fixes were created since `start` for failures of a root. -/
def failureFixes (start ledger : TaskLedger) (rootID : String) : Nat :=
  ledger.tasks.countP fun fix =>
    fix.id ∉ start.tasks.map TaskRow.id && fix.metadata.repairOf = some rootID &&
      ledger.isFailureFix fix

/-- The failures of a root were fixed no more often than its limit allows. -/
def RepairsBudgeted (start ledger : TaskLedger) : Prop :=
  ∀ rootID, failureFixes start ledger rootID = 0 ∨ ∃ root, ledger.task? rootID = some root ∧
      (failureFixes start ledger rootID : Int) ≤ root.maxAttempts

def Selected (options : QueueOptions) (row : TaskRow) : Prop :=
  row.storyID ∈ options.storyIDs ∧ options.keep row = true

instance (options : QueueOptions) (row : TaskRow) : Decidable (Selected options row) := by
  unfold Selected
  infer_instance

structure QueueReady (options : QueueOptions) (roots : List String) (known : String → Prop)
    (ledger : TaskLedger) : Prop where
  trimmed : ∀ row ∈ ledger.tasks, trimSpace row.id = row.id
  rooted : ∀ row ∈ ledger.tasks, row.rootID ∈ roots
  answered : ∀ fix ∈ ledger.tasks, known fix.metadata.failureEvidence ∨
    ∃ row ∈ ledger.tasks, row.id = fix.metadata.fixOf ∧ row.metadata.fixedBy ≠ ""
  unanswered : ∀ row ∈ ledger.tasks, Selected options row → row.metadata.fixedBy = "" →
    ∀ evidenceID, row.metadata.verificationFailureEvidence = some evidenceID →
      ∀ fix ∈ ledger.tasks, fix.metadata.fixOf = row.id →
        fix.metadata.failureEvidence ≠ trimSpace evidenceID

variable {recorded known : String → Prop} {completes : Prop} {start ledger next : TaskLedger}
  {options : QueueOptions} {roots : List String} {fix task root row before after : TaskRow}

theorem WithinAttempts.develops (within : WithinAttempts start)
    (develops : Develops recorded completes start ledger) : WithinAttempts ledger := by
  induction develops with
  | initial => exact within
  | edited _ edits ih =>
    intro row member
    obtain ⟨before, isBefore, edit⟩ := edits.mem member
    have limit := ih before isBefore
    have budgeted := edit.budgeted
    rw [edit.maxAttempts]
    omega
  | @repaired _ _ fix task _ _ repaired _ _ ih =>
    intro row member
    rcases repaired.mem member with rfl | ⟨before, isBefore, rfl⟩
    · rw [repaired.fresh.2.2.2.1, repaired.fresh.2.2.2.2]
      decide
    · obtain ⟨limit, count, _⟩ := closingRow_limits task fix.id before
      rw [limit, count]
      exact ih before isBefore

theorem failureFixes_le_fixCount (start ledger : TaskLedger) (rootID : String) :
    failureFixes start ledger rootID ≤ ledger.fixCount rootID := by
  refine countP_mono_left fun fix _ counted => ?_
  simp only [Bool.and_eq_true] at counted
  exact counted.1.2

theorem Edits.failureFixes (edits : Edits recorded completes ledger next) (rootID : String) :
    TaskQueue.failureFixes start next rootID = TaskQueue.failureFixes start ledger rootID := by
  obtain ⟨change, isTasks, edited, lookup⟩ := edits.task?_map
  rw [TaskQueue.failureFixes, TaskQueue.failureFixes, isTasks, countP_map]
  refine countP_congr fun fix member => ?_
  have edit := edited fix member
  have same : next.isFailureFix (change fix) = ledger.isFailureFix fix := by
    rw [isFailureFix, isFailureFix, edit.fixOf, lookup]
    cases found : ledger.task? fix.metadata.fixOf with
    | none => rfl
    | some task => simp [(edited task (task?_mem found)).fixedBy, edit.id]
  simp only [comp_apply, edit.id, edit.repairOf, same]

theorem Repaired.isFailureFix_old (repaired : Repaired ledger next fix task root)
    (member : row ∈ ledger.tasks) (counted : next.isFailureFix (closingRow task fix.id row)) :
    ledger.isFailureFix row := by
  obtain ⟨sameID, _, _, sameFixOf, _⟩ := closingRow_links task fix.id row
  rw [isFailureFix, sameFixOf, sameID] at counted
  obtain ⟨closed, isClosed, named⟩ := (any_eq_true _ _).mp counted
  rw [repaired.task?] at isClosed
  have notFix : fix.id ≠ row.id := by
    intro same
    have absent := repaired.absent
    rw [same, task?_of_mem member] at absent
    cases absent
  cases found : ledger.task? row.metadata.fixOf with
  | some before =>
    rw [found] at isClosed
    cases isClosed
    rw [isFailureFix, found]
    rcases repaired.closingRow_fixedBy (task?_mem found) with same | ⟨_, closes⟩
    · rw [same] at named
      exact named
    · rw [closes] at named
      simp only [Bool.and_eq_true, decide_eq_true_eq] at named
      exact absurd named.2 notFix
  | none =>
    rw [found] at isClosed
    by_cases isFix : fix.id = row.metadata.fixOf
    · simp only [isFix, if_true, none_or, map_some, Option.some.injEq] at isClosed
      rw [← isClosed, ← isFix, repaired.closingRow_fix, repaired.fresh.1] at named
      cases named
    · simp [isFix] at isClosed

theorem Repaired.failureFixes_le (repaired : Repaired ledger next fix task root) (rootID : String) :
    TaskQueue.failureFixes start next rootID ≤
      TaskQueue.failureFixes start ledger rootID + if task.rootID = rootID then 1 else 0 := by
  rw [TaskQueue.failureFixes, TaskQueue.failureFixes, repaired.tasks, countP_map, countP_append]
  refine Nat.add_le_add ?_ ?_
  · refine countP_mono_left fun row member counted => ?_
    obtain ⟨sameID, _, _, _, sameRepairOf⟩ := closingRow_links task fix.id row
    simp only [comp_apply, sameID, sameRepairOf, Bool.and_eq_true] at counted ⊢
    exact ⟨counted.1, repaired.isFailureFix_old member counted.2⟩
  · simp only [countP_cons, countP_nil, comp_apply, repaired.closingRow_fix,
      repaired.repairOf, Option.some.injEq]
    by_cases isRoot : task.rootID = rootID
    · simp only [isRoot, if_true]
      split <;> omega
    · simp [isRoot]

theorem RepairsBudgeted.refl (start : TaskLedger) : RepairsBudgeted start start := by
  intro rootID
  left
  refine countP_eq_zero.mpr fun fix member => ?_
  have listed := mem_map_of_mem (f := TaskRow.id) member
  simp [listed]

section

variable (budgeted : RepairsBudgeted start ledger)
include budgeted

theorem RepairsBudgeted.edits
    (edits : Edits recorded completes ledger next) : RepairsBudgeted start next := by
  intro rootID
  rw [edits.failureFixes]
  rcases budgeted rootID with none | ⟨root, found, within⟩
  · exact .inl none
  · obtain ⟨after, isAfter, edit⟩ := edits.task? found
    exact .inr ⟨after, isAfter, edit.maxAttempts ▸ within⟩

theorem RepairsBudgeted.repaired (repaired : Repaired ledger next fix task root)
    (failed : task.status = .failed) : RepairsBudgeted start next := by
  intro rootID
  have bound := @Repaired.failureFixes_le start ledger next fix task root repaired rootID
  by_cases isRoot : task.rootID = rootID
  · have room := repaired.budget failed
    have below := failureFixes_le_fixCount start ledger rootID
    rw [isRoot] at room
    refine .inr ⟨_, repaired.task?_old (isRoot ▸ repaired.rootFound), ?_⟩
    rw [(closingRow_limits task fix.id root).1]
    simp only [isRoot, if_true] at bound
    omega
  · simp only [isRoot, if_false, Nat.add_zero] at bound
    rcases budgeted rootID with none | ⟨other, found, within⟩
    · exact .inl (by omega)
    · refine .inr ⟨_, repaired.task?_old found, ?_⟩
      rw [(closingRow_limits task fix.id other).1]
      omega

theorem RepairsBudgeted.develops
    (develops : Develops recorded completes ledger next) : RepairsBudgeted start next := by
  induction develops with
  | initial => exact budgeted
  | edited _ edits ih => exact ih.edits edits
  | repaired _ repaired failed _ ih => exact ih.repaired repaired failed

end

theorem RowEdit.rootID (edit : RowEdit recorded completes before after) :
    after.rootID = before.rootID := by
  rw [TaskRow.rootID, TaskRow.rootID, edit.repairOf, edit.id]

theorem RowEdit.selected (edit : RowEdit recorded completes before after)
    (selected : Selected options after) : Selected options before := by
  have same : options.keep after = options.keep before := by
    rw [QueueOptions.keep, QueueOptions.keep]
    unfold selectedWork
    cases options.taskIDs <;> simp [edit.id, edit.repairOf]
  exact ⟨edit.storyID ▸ selected.1, same ▸ selected.2⟩

theorem QueueReady.known_of_open (ready : QueueReady options roots known ledger)
    (member : row ∈ ledger.tasks) (isOpen : row.metadata.fixedBy = "")
    (isFix : fix ∈ ledger.tasks) (fixes : fix.metadata.fixOf = row.id) :
    known fix.metadata.failureEvidence := by
  rcases ready.answered fix isFix with isKnown | ⟨closed, isRow, named, isClosed⟩
  · exact isKnown
  · have found := task?_of_mem isRow
    rw [named, fixes, task?_of_mem member] at found
    cases found
    exact absurd isOpen isClosed

theorem QueueReady.edits (ready : QueueReady options roots known ledger)
    (fresh : ∀ evidenceID, recorded evidenceID → ¬ known (trimSpace evidenceID))
    (edits : Edits recorded completes ledger next) : QueueReady options roots known next := by
  refine ⟨?_, ?_, ?_, ?_⟩
  · intro row member
    obtain ⟨before, isBefore, edit⟩ := edits.mem member
    rw [edit.id]
    exact ready.trimmed before isBefore
  · intro row member
    obtain ⟨before, isBefore, edit⟩ := edits.mem member
    rw [edit.rootID]
    exact ready.rooted before isBefore
  · intro fix isFix
    obtain ⟨before, isBefore, fixEdit⟩ := edits.mem isFix
    rw [fixEdit.failureEvidence, fixEdit.fixOf]
    rcases ready.answered before isBefore with isKnown | ⟨row, member, fixed, isClosed⟩
    · exact .inl isKnown
    · obtain ⟨after, isAfter, edit⟩ := edits.task? (task?_of_mem member)
      refine .inr ⟨after, task?_mem isAfter, edit.id.trans fixed, ?_⟩
      rw [edit.fixedBy]
      exact isClosed
  · intro row member selected isOpen evidenceID isBound fix isFix fixes
    obtain ⟨before, isBefore, edit⟩ := edits.mem member
    obtain ⟨beforeFix, isBeforeFix, fixEdit⟩ := edits.mem isFix
    rw [fixEdit.failureEvidence]
    rw [fixEdit.fixOf, edit.id] at fixes
    have wasOpen : before.metadata.fixedBy = "" := edit.fixedBy ▸ isOpen
    rcases edit.bound evidenceID isBound with earlier | isRecorded
    · exact ready.unanswered before isBefore (edit.selected selected) wasOpen evidenceID earlier
        beforeFix isBeforeFix fixes
    · intro same
      refine fresh evidenceID isRecorded (same ▸ ?_)
      exact ready.known_of_open isBefore wasOpen isBeforeFix fixes

theorem TaskRow.rootID_ne_empty (named : row.id ≠ "") : row.rootID ≠ "" := by
  unfold TaskRow.rootID
  split
  · exact named
  · assumption

theorem Repaired.rootID_fix (repaired : Repaired ledger next fix task root) :
    fix.rootID = task.rootID := by
  have shape : fix.rootID = if task.rootID = "" then fix.id else task.rootID := by
    rw [TaskRow.rootID, repaired.repairOf]
    rfl
  rw [shape, if_neg (TaskRow.rootID_ne_empty repaired.named.1)]

theorem closingRow_selected (selected : Selected options (closingRow task fix.id row)) :
    Selected options row := by
  obtain ⟨sameID, sameStory, _, _, sameRepairOf⟩ := closingRow_links task fix.id row
  have same : options.keep (closingRow task fix.id row) = options.keep row := by
    rw [QueueOptions.keep, QueueOptions.keep]
    unfold selectedWork
    cases options.taskIDs <;> simp [sameID, sameRepairOf]
  exact ⟨sameStory ▸ selected.1, same ▸ selected.2⟩

theorem Repaired.open_row (repaired : Repaired ledger next fix task root)
    (failed : task.status = .failed) (isOpen : (closingRow task fix.id row).metadata.fixedBy = "") :
    row.metadata.fixedBy = "" ∧ task.id ≠ row.id := by
  have different : task.id ≠ row.id := by
    intro same
    rw [closingRow, if_pos ⟨failed, same.symm⟩] at isOpen
    exact repaired.named.2 isOpen
  rw [closingRow, if_neg fun closes => different closes.2.symm] at isOpen
  exact ⟨isOpen, different⟩

section

variable (ready : QueueReady options roots known ledger)
include ready

theorem QueueReady.repaired
    (repaired : Repaired ledger next fix task root) (failed : task.status = .failed)
    (trimmed : trimSpace fix.id = fix.id) : QueueReady options roots known next := by
  refine ⟨?_, ?_, ?_, ?_⟩
  · intro row member
    rcases repaired.mem member with rfl | ⟨before, isBefore, rfl⟩
    · exact trimmed
    · rw [(closingRow_links task fix.id before).1]
      exact ready.trimmed before isBefore
  · intro row member
    rcases repaired.mem member with rfl | ⟨before, isBefore, rfl⟩
    · rw [repaired.rootID_fix]
      exact ready.rooted task (task?_mem repaired.found)
    · obtain ⟨sameID, _, _, _, sameRepairOf⟩ := closingRow_links task fix.id before
      rw [TaskRow.rootID, sameID, sameRepairOf]
      exact ready.rooted before isBefore
  · intro other isOther
    rcases repaired.mem isOther with rfl | ⟨before, isBefore, rfl⟩
    · refine .inr ⟨_, task?_mem (repaired.task?_old repaired.found), ?_, ?_⟩
      · rw [(closingRow_links task other.id task).1, repaired.fixOf]
      · rw [closingRow, if_pos ⟨failed, rfl⟩]
        exact repaired.named.2
    · rw [(closingRow_limits task fix.id before).2.2.1,
        (closingRow_links task fix.id before).2.2.2.1]
      rcases ready.answered before isBefore with isKnown | ⟨row, member, fixed, isClosed⟩
      · exact .inl isKnown
      · have found := repaired.task?_old (task?_of_mem member)
        refine .inr ⟨_, task?_mem found, ?_, ?_⟩
        · rw [(closingRow_links task fix.id row).1, fixed]
        · intro isOpen
          exact isClosed (repaired.open_row failed isOpen).1
  · intro row member selected isOpen evidenceID isBound other isOther fixes
    rcases repaired.mem member with rfl | ⟨before, isBefore, rfl⟩
    · exact absurd (repaired.fresh.2.1.symm.trans isBound) (by simp)
    · rw [(closingRow_links task fix.id before).1] at fixes
      rw [(closingRow_limits task fix.id before).2.2.2] at isBound
      obtain ⟨wasOpen, different⟩ := repaired.open_row failed isOpen
      rcases repaired.mem isOther with rfl | ⟨old, isOld, rfl⟩
      · exact absurd (repaired.fixOf.symm.trans fixes) different
      · rw [(closingRow_links task fix.id old).2.2.2.1] at fixes
        rw [(closingRow_limits task fix.id old).2.2.1]
        exact ready.unanswered before isBefore (closingRow_selected selected) wasOpen evidenceID
          isBound old isOld fixes

variable (fresh : ∀ evidenceID, recorded evidenceID → ¬ known (trimSpace evidenceID))
include fresh

theorem QueueReady.develops (develops : Develops recorded completes ledger next) :
    QueueReady options roots known next := by
  induction develops with
  | initial => exact ready
  | edited _ edits ih => exact ih.edits fresh edits
  | repaired _ repaired failed trimmed ih => exact ih.repaired repaired failed trimmed

theorem QueueReady.queueWork_le (develops : Develops recorded completes ledger next) :
    queueWork roots next ≤ queueWork roots ledger := by
  induction develops with
  | initial => exact le_refl _
  | edited _ edits ih => exact edits.queueWork_le.trans ih
  | repaired earlier repaired failed _ ih =>
    have rooted := (ready.develops fresh earlier).rooted _ (task?_mem repaired.found)
    exact (repaired.queueWork_lt failed rooted).le.trans ih

end

theorem Develops.done_before (develops : Develops recorded False ledger next) {id : String}
    (found : next.task? id = some row) (done : row.status = .done) :
    ∃ before, ledger.task? id = some before ∧ before.status = .done := by
  induction develops generalizing row with
  | initial => exact ⟨row, found, done⟩
  | edited _ edits ih =>
    obtain ⟨before, isBefore, edit⟩ := edits.mem (task?_mem found)
    have wasDone := (edit.finished done).resolve_right (fun impossible => impossible)
    refine ih ?_ wasDone
    rw [← task?_id found, edit.id]
    exact task?_of_mem isBefore
  | @repaired _ _ fix task _ _ repaired _ _ ih =>
    rcases repaired.mem (task?_mem found) with rfl | ⟨before, isBefore, rfl⟩
    · exact absurd (repaired.fresh.2.2.1.symm.trans done) (by simp)
    · obtain ⟨sameID, _, sameStatus, _⟩ := closingRow_links task fix.id before
      refine ih ?_ (sameStatus.symm.trans done)
      rw [← task?_id found, sameID]
      exact task?_of_mem isBefore

end OpenExec.TaskQueue
