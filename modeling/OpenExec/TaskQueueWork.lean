import OpenExec.LedgerEdits
import OpenExec.TaskQueueLoop
import Mathlib.Algebra.GroupWithZero.Nat
import Mathlib.Algebra.Order.BigOperators.Group.List

/-!
# What is left to do in a task ledger

Attempts left on the tasks and repairs left on their roots.  An edit in place
never adds to them; a fix for a failed task spends one repair for two attempts.
-/

namespace OpenExec.TaskQueue

open GoStrings List

/-- The attempt limit of a root; a root that does not exist can only be inserted
as a fix. -/
def TaskLedger.budget (ledger : TaskLedger) (rootID : String) : Int :=
  ((ledger.task? rootID).map TaskRow.maxAttempts).getD 2

def TaskRow.attemptsLeft (row : TaskRow) : Nat :=
  (row.maxAttempts - row.attemptCount).toNat

def TaskLedger.repairsLeft (ledger : TaskLedger) (rootID : String) : Nat :=
  (ledger.budget rootID - ledger.fixCount rootID).toNat

def queueWork (roots : List String) (ledger : TaskLedger) : Nat :=
  3 * (roots.map ledger.repairsLeft).sum + (ledger.tasks.map TaskRow.attemptsLeft).sum

inductive Develops (recorded : String → Prop) (completes : Prop) (start : TaskLedger) :
    TaskLedger → Prop
  | initial : Develops recorded completes start start
  | edited {ledger next : TaskLedger} (earlier : Develops recorded completes start ledger)
      (edits : Edits recorded completes ledger next) : Develops recorded completes start next
  | repaired {ledger next : TaskLedger} {fix task root : TaskRow}
      (earlier : Develops recorded completes start ledger)
      (repaired : Repaired ledger next fix task root) (failed : task.status = .failed)
      (trimmed : trimSpace fix.id = fix.id) : Develops recorded completes start next

variable {recorded : String → Prop} {completes : Prop} {start ledger next : TaskLedger}
  {roots : List String} {fix task root row after : TaskRow} {rootID : String}

theorem Develops.trans (first : Develops recorded completes start ledger)
    (second : Develops recorded completes ledger next) :
    Develops recorded completes start next := by
  induction second with
  | initial => exact first
  | edited _ edits ih => exact ih.edited edits
  | repaired _ repaired failed trimmed ih => exact ih.repaired repaired failed trimmed

section

variable (edits : Edits recorded completes ledger next)
include edits

theorem Edits.fixCount (rootID : String) : next.fixCount rootID = ledger.fixCount rootID := by
  obtain ⟨change, isTasks, edited⟩ := edits
  rw [TaskLedger.fixCount, TaskLedger.fixCount, isTasks, countP_map]
  refine countP_congr fun row member => ?_
  simp [(edited row member).repairOf]

theorem Edits.budget (rootID : String) : next.budget rootID = ledger.budget rootID := by
  obtain ⟨change, _, edited, lookup⟩ := edits.task?_map
  rw [TaskLedger.budget, TaskLedger.budget, lookup]
  cases found : ledger.task? rootID with
  | none => rfl
  | some row => simp [(edited row (TaskLedger.task?_mem found)).maxAttempts]

theorem Edits.repairsLeft : next.repairsLeft = ledger.repairsLeft := by
  funext rootID
  rw [TaskLedger.repairsLeft, TaskLedger.repairsLeft, edits.budget, edits.fixCount]

end

theorem RowEdit.attemptsLeft_le {before : TaskRow}
    (edit : RowEdit recorded completes before after) :
    after.attemptsLeft ≤ before.attemptsLeft := by
  have counted := edit.counted
  simp only [TaskRow.attemptsLeft, edit.maxAttempts]
  omega

theorem Edits.queueWork_le (edits : Edits recorded completes ledger next) :
    queueWork roots next ≤ queueWork roots ledger := by
  have repairs := edits.repairsLeft
  obtain ⟨change, isTasks, edited⟩ := edits
  rw [queueWork, queueWork, repairs, isTasks, map_map]
  have attempts : (ledger.tasks.map (TaskRow.attemptsLeft ∘ change)).sum ≤
      (ledger.tasks.map TaskRow.attemptsLeft).sum :=
    sum_le_sum fun row member => (edited row member).attemptsLeft_le
  omega

theorem Edits.queueWork_lt (edits : Edits recorded completes ledger next) {id : String}
    (found : ledger.task? id = some row) (isAfter : next.task? id = some after)
    (left : row.attemptCount < row.maxAttempts) (counted : row.attemptCount < after.attemptCount) :
    queueWork roots next < queueWork roots ledger := by
  have repairs := edits.repairsLeft
  obtain ⟨change, isTasks, edited, lookup⟩ := edits.task?_map
  have member := TaskLedger.task?_mem found
  have isChanged : change row = after := by
    rw [lookup, found] at isAfter
    exact Option.some.inj isAfter
  rw [queueWork, queueWork, repairs, isTasks, map_map]
  have attempts : (ledger.tasks.map (TaskRow.attemptsLeft ∘ change)).sum <
      (ledger.tasks.map TaskRow.attemptsLeft).sum := by
    refine sum_lt_sum _ _ (fun row member => (edited row member).attemptsLeft_le) ?_
    refine ⟨row, member, ?_⟩
    have same := (edited row member).maxAttempts
    rw [isChanged] at same
    simp only [Function.comp_apply, isChanged, TaskRow.attemptsLeft, same]
    omega
  omega

theorem closingRow_limits (task : TaskRow) (fixID : String) (row : TaskRow) :
    (closingRow task fixID row).maxAttempts = row.maxAttempts ∧
    (closingRow task fixID row).attemptCount = row.attemptCount ∧
    (closingRow task fixID row).metadata.failureEvidence = row.metadata.failureEvidence ∧
    (closingRow task fixID row).metadata.verificationFailureEvidence =
    row.metadata.verificationFailureEvidence := by
  unfold closingRow
  split <;> exact ⟨rfl, rfl, rfl, rfl⟩

variable (repaired : Repaired ledger next fix task root)
include repaired

theorem Repaired.fixCount (rootID : String) :
    next.fixCount rootID = ledger.fixCount rootID + if task.rootID = rootID then 1 else 0 := by
  have same : ((fun row : TaskRow => decide (row.metadata.repairOf = some rootID)) ∘
      closingRow task fix.id) = fun row => decide (row.metadata.repairOf = some rootID) := by
    funext row
    simp [(closingRow_links task fix.id row).2.2.2.2]
  rw [TaskLedger.fixCount, TaskLedger.fixCount, repaired.tasks, countP_map, same, countP_append]
  simp [countP_cons, repaired.repairOf]

theorem Repaired.sameBudget (rootID : String) : next.budget rootID = ledger.budget rootID := by
  rw [TaskLedger.budget, TaskLedger.budget, repaired.task?]
  cases found : ledger.task? rootID with
  | some row => simp [(closingRow_limits task fix.id row).1]
  | none =>
    by_cases isFix : fix.id = rootID
    · simp [isFix, (closingRow_limits task rootID fix).1, repaired.fresh.2.2.2.2]
    · simp [isFix]

theorem Repaired.attemptsLeft : (next.tasks.map TaskRow.attemptsLeft).sum =
      (ledger.tasks.map TaskRow.attemptsLeft).sum + 2 := by
  have same : TaskRow.attemptsLeft ∘ closingRow task fix.id = TaskRow.attemptsLeft := by
    funext row
    obtain ⟨limit, count, _⟩ := closingRow_limits task fix.id row
    simp [TaskRow.attemptsLeft, limit, count]
  have fresh : fix.attemptsLeft = 2 := by
    simp [TaskRow.attemptsLeft, repaired.fresh.2.2.2]
  rw [repaired.tasks, map_map, same]
  simp [fresh]

theorem Repaired.budget_room (failed : task.status = .failed) :
    (ledger.fixCount task.rootID : Int) < ledger.budget task.rootID := by
  have room := repaired.budget failed
  simpa [TaskLedger.budget, repaired.rootFound] using room

theorem Repaired.queueWork_lt (failed : task.status = .failed) (rooted : task.rootID ∈ roots) :
    queueWork roots next < queueWork roots ledger := by
  have room := repaired.budget_room failed
  have fewer : (roots.map next.repairsLeft).sum < (roots.map ledger.repairsLeft).sum := by
    refine sum_lt_sum _ _ ?_ ⟨task.rootID, rooted, ?_⟩
    · intro rootID _
      simp only [TaskLedger.repairsLeft, repaired.sameBudget, repaired.fixCount]
      split <;> omega
    · simp only [TaskLedger.repairsLeft, repaired.sameBudget, repaired.fixCount, if_true]
      omega
  rw [queueWork, queueWork, repaired.attemptsLeft]
  omega

end OpenExec.TaskQueue
