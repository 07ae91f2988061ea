import OpenExec.ClosedTasks
import OpenExec.QueueVerdict

/-!
# How far `Delivered` follows a chain of fixes

`Delivered` of `internal/release/failure_repair.go` gives up after 65 tasks.
The attempt limit of the original task bounds how long a chain of fixes gets.
-/

namespace OpenExec.TaskQueue

open GuardedRuns TaskLedger Option List

/-- The chain of fixes ends in a done or approved task. -/
def ReachesDelivery (ledger : TaskLedger) (task : TaskRow) : Prop :=
  ∃ links, LeadsToDelivery ledger links task

/-- `rank` numbers the fixes of a chain; a fix of a failed task was made when
fewer than its root's attempts had been used up. -/
structure Ranked (ledger : TaskLedger) (rank : String → Nat) : Prop where
  counted : ∀ row ∈ ledger.tasks,
    rank row.id ≤ ledger.fixCount row.rootID ∧ rank row.id ≤ (ledger.budget row.rootID).toNat
  closed : ∀ row ∈ ledger.tasks, row.metadata.fixedBy ≠ "" →
    ∃ fix, ledger.task? row.metadata.fixedBy = some fix ∧ rank fix.id = rank row.id + 1 ∧
      fix.rootID = row.rootID

section

variable {ledger next : TaskLedger} {rank : String → Nat} {fix task root : TaskRow}
  {recorded : String → Prop} {completes : Prop}

theorem Ranked.edits (ranked : Ranked ledger rank)
    (edits : Edits recorded completes ledger next) : Ranked next rank := by
  refine ⟨?_, ?_⟩
  · intro row member
    obtain ⟨before, isBefore, edit⟩ := edits.mem member
    rw [edit.id, edit.rootID, edits.fixCount, edits.budget]
    exact ranked.counted before isBefore
  · intro row member isClosed
    obtain ⟨before, isBefore, edit⟩ := edits.mem member
    rw [edit.fixedBy] at isClosed ⊢
    obtain ⟨fix, found, above, sameRoot⟩ := ranked.closed before isBefore isClosed
    obtain ⟨after, isAfter, fixEdit⟩ := edits.task? found
    refine ⟨after, isAfter, ?_, ?_⟩
    · rw [fixEdit.id, edit.id, above]
    · rw [fixEdit.rootID, edit.rootID, sameRoot]

theorem closingRow_rootID (task : TaskRow) (fixID : String) (row : TaskRow) :
    (closingRow task fixID row).rootID = row.rootID := by
  obtain ⟨sameID, _, _, _, sameRoot⟩ := closingRow_links task fixID row
  rw [TaskRow.rootID, TaskRow.rootID, sameID, sameRoot]

theorem Repaired.ne_fix (repaired : Repaired ledger next fix task root) {row : TaskRow}
    (member : row ∈ ledger.tasks) : row.id ≠ fix.id := by
  intro same
  have found := task?_of_mem member
  rw [same, repaired.absent] at found
  cases found

/-- A new fix ranks above the failed task that it closes. -/
def rankFix (rank : String → Nat) (fix task : TaskRow) (id : String) : Nat :=
  if id = fix.id then if task.status = .failed then rank task.id + 1 else 0 else rank id

theorem Ranked.repaired (ranked : Ranked ledger rank)
    (repaired : Repaired ledger next fix task root) : Ranked next (rankFix rank fix task) := by
  have old {row : TaskRow} (member : row ∈ ledger.tasks) :
      rankFix rank fix task row.id = rank row.id :=
    if_neg (repaired.ne_fix member)
  have taskMember := task?_mem repaired.found
  have fixRank : rankFix rank fix task fix.id = if task.status = .failed then
    rank task.id + 1 else 0 :=
    if_pos rfl
  have counted := ranked.counted task taskMember
  refine ⟨?_, ?_⟩
  · intro row member
    rw [repaired.fixCount, repaired.sameBudget]
    rcases repaired.mem member with rfl | ⟨before, isBefore, rfl⟩
    · rw [fixRank, repaired.rootID_fix, if_pos rfl]
      split
      · next failed =>
        have room := repaired.budget_room failed
        omega
      · omega
    · rw [(closingRow_links task fix.id before).1, closingRow_rootID, old isBefore]
      have before := ranked.counted before isBefore
      omega
  · intro row member isClosed
    rcases repaired.mem member with rfl | ⟨before, isBefore, rfl⟩
    · exact absurd repaired.fresh.1 isClosed
    · rw [(closingRow_links task fix.id before).1, closingRow_rootID, old isBefore]
      rcases repaired.closingRow_fixedBy isBefore with same | ⟨rfl, closes⟩
      · rw [same] at isClosed ⊢
        obtain ⟨earlier, found, above, sameRoot⟩ := ranked.closed before isBefore isClosed
        refine ⟨_, repaired.task?_old found, ?_, (closingRow_rootID ..).trans sameRoot⟩
        rw [(closingRow_links task fix.id earlier).1, old (task?_mem found), above]
      · rw [closes]
        refine ⟨fix, repaired.task?_fix, ?_, repaired.rootID_fix⟩
        have failed : before.status = .failed := by
          by_contra notFailed
          rw [closingRow, if_neg fun both => notFailed both.1, repaired.unfixed] at closes
          exact repaired.named.2 closes.symm
        rw [fixRank, if_pos failed]

theorem exists_ranked {naming : RepairNaming} {start : TaskLedger} (unrepaired : Unrepaired start)
    (reachable : Reachable (stepLedger naming) anyStep start ledger) :
    ∃ rank, Ranked ledger rank := by
  induction reachable with
  | initial =>
    refine ⟨fun _ => 0, fun _ _ => ⟨Nat.zero_le _, Nat.zero_le _⟩, ?_⟩
    intro row member isClosed
    exact absurd (unrepaired row member).1 isClosed
  | after _ _ taken ih =>
    obtain ⟨rank, ranked⟩ := ih
    rcases stepLedger_cases taken with edits | ⟨fix, task, root, repaired⟩
    · exact ⟨rank, ranked.edits edits⟩
    · exact ⟨_, ranked.repaired repaired⟩

theorem Ranked.leads (ranked : Ranked ledger rank) {links : Nat}
    (leads : LeadsToDelivery ledger links task) (member : task ∈ ledger.tasks) {bound : Nat}
    (enough : (ledger.budget task.rootID).toNat ≤ rank task.id + bound) :
    LeadsToDelivery ledger bound task := by
  induction leads generalizing bound with
  | finished done => exact .finished done
  | fixed failed closed found _ ih =>
    obtain ⟨fix, isFix, above, sameRoot⟩ := ranked.closed _ member closed
    obtain rfl := mem_unique found isFix
    have fixMember := task?_mem found
    have counted := (ranked.counted _ fixMember).2
    rw [sameRoot] at counted
    obtain ⟨fewer, rfl⟩ : ∃ fewer, bound = fewer + 1 := ⟨bound - 1, by omega⟩
    exact .fixed failed closed found (ih fixMember (by rw [sameRoot]; omega))

end

/-- A naming after the receipt alone. -/
def receiptNaming : RepairNaming :=
  { spelledNaming with
    digest := fun _ => spelledNaming.digest ""
    digestPlain := fun _ => spelledNaming.digestPlain "" }

def patientTask : TaskLedger where
  tasks := [{ id := "A", storyID := "S", maxAttempts := 65 }]
  stories := [{ id := "S", tasks := ["A"] }]
  steps := []
  tasksUnique := nodup_singleton _
  storiesUnique := nodup_singleton _
  stepsUnique := nodup_nil

/-- A task and its fixes fail so many times before the last fix is done. -/
def failsBeforeDone : Nat → Nat → String → List LedgerAction
  | 0, _, id => [.start ["S"] id, .complete id true]
  | failures + 1, receipt, id =>
    let evidenceID := String.singleton (Char.ofNat receipt)
    [.start ["S"] id, .fail id, .repair id evidenceID "broken" 1] ++
      failsBeforeDone failures (receipt + 1) (receiptNaming.repairID id evidenceID)

theorem long_chain_reached :
    ∃ ledger task, Reachable (stepLedger receiptNaming) anyStep patientTask ledger ∧
      task ∈ ledger.tasks ∧ ledger.budget task.rootID = 65 ∧ delivered ledger.task? task = false ∧
      ReachesDelivery ledger task := by
  have runs : ((run (stepLedger receiptNaming) anyStep patientTask (failsBeforeDone 65 33 "A")).any
      fun ledger => (ledger.task? "A").any fun task => ledger.budget task.rootID = 65 ∧
        delivered ledger.task? task = false ∧
        deliveredWithin ledger.task? 66 (some task) = true) = true := by
    decide +kernel
  obtain ⟨ledger, isLedger, holds⟩ := (any_eq_true _ _).mp runs
  obtain ⟨task, found, property⟩ := (any_eq_true _ _).mp holds
  obtain ⟨budget, missed, reaches⟩ := of_decide_eq_true property
  exact ⟨ledger, task, reachable_of_run isLedger, task?_mem found, budget, missed, 65,
    deliveredWithin_iff.mp reaches⟩

/-- In the ledgers that task runs and repairs lead to, `Delivered` follows every
chain to its end exactly for attempt limits of at most 64. -/
theorem delivered_exact_iff (limit : Int) :
    (∀ (naming : RepairNaming) (start ledger : TaskLedger) (task : TaskRow), Unrepaired start →
      Reachable (stepLedger naming) anyStep start ledger → task ∈ ledger.tasks →
      ledger.budget task.rootID ≤ limit →
      (delivered ledger.task? task = true ↔ ReachesDelivery ledger task)) ↔
    limit ≤ 64 := by
  constructor
  · intro exact
    by_contra above
    obtain ⟨ledger, task, reachable, member, budget, missed, reaches⟩ := long_chain_reached
    have holds := (exact _ _ ledger task (by decide) reachable member (by omega)).mpr reaches
    simp [missed] at holds
  · intro bounded naming start ledger task unrepaired reachable member within
    rw [delivered_iff]
    refine ⟨fun leads => ⟨64, leads⟩, ?_⟩
    rintro ⟨links, leads⟩
    obtain ⟨rank, ranked⟩ := exists_ranked unrepaired reachable
    exact ranked.leads leads member (by omega)

/-- A task with 65 attempts whose 65th fix is done is not delivered. -/
theorem delivered_misses_long_chain : ∃ ledger task,
    Reachable (stepLedger receiptNaming) anyStep patientTask ledger ∧ task ∈ ledger.tasks ∧
      delivered ledger.task? task = false ∧ ReachesDelivery ledger task := by
  obtain ⟨ledger, task, reachable, member, _, missed, reaches⟩ := long_chain_reached
  exact ⟨ledger, task, reachable, member, missed, reaches⟩

/-- Every fix has the number after the one of the task it closes, and the numbers stay within the
attempts of the root that both have. -/
def NumbersFixes (ledger : TaskLedger) (number : String → Nat) : Prop :=
  ∀ row ∈ ledger.tasks, row.metadata.fixedBy ≠ "" → ∃ fix,
    ledger.task? row.metadata.fixedBy = some fix ∧ fix.rootID = row.rootID ∧
      number fix.id = number row.id + 1 ∧ number fix.id ≤ (ledger.budget row.rootID).toNat

/-- Whatever is run and repaired, no chain of fixes leads back to its tasks or gets too long. -/
theorem fix_chains_are_bounded {naming : RepairNaming} {start ledger : TaskLedger}
    (unrepaired : Unrepaired start)
    (reachable : Reachable (stepLedger naming) anyStep start ledger) :
    ∃ number, NumbersFixes ledger number := by
  obtain ⟨rank, ranked⟩ := exists_ranked unrepaired reachable
  refine ⟨rank, fun row member closed => ?_⟩
  obtain ⟨fix, found, above, sameRoot⟩ := ranked.closed row member closed
  exact ⟨fix, found, sameRoot, above, sameRoot ▸ (ranked.counted fix (task?_mem found)).2⟩

theorem fix_chains_are_bounded_long :
    ∃ ledger task, Reachable (stepLedger receiptNaming) anyStep patientTask ledger ∧
      ReachesDelivery ledger task ∧ ∃ number, NumbersFixes ledger number := by
  obtain ⟨ledger, task, reachable, _, _, _, reaches⟩ := long_chain_reached
  exact ⟨ledger, task, reachable, reaches, fix_chains_are_bounded (by decide) reachable⟩

end OpenExec.TaskQueue
