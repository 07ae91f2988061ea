import OpenExec.TaskQueueInvariants

/-!
# The verdict of a drained queue

`retainedTaskBoundary` judges a task by its status and its `fixed_by` alone, where
`Delivered` follows the chain of fixes.
-/

namespace OpenExec.TaskQueue

open Release List

/-- At most so many links `fixed_by` lead from the task to a done or approved
one. -/
inductive LeadsToDelivery (ledger : TaskLedger) : Nat → TaskRow → Prop
  | finished {links : Nat} {task : TaskRow} (done : task.status = .done ∨ task.status = .approved) :
      LeadsToDelivery ledger links task
  | fixed {links : Nat} {task fix : TaskRow} (failed : task.status = .failed)
      (closed : task.metadata.fixedBy ≠ "") (found : ledger.task? task.metadata.fixedBy = some fix)
      (leads : LeadsToDelivery ledger links fix) : LeadsToDelivery ledger (links + 1) task

def OpenWork (row : TaskRow) : Prop :=
  row.status ≠ .done ∧ ¬ (row.status = .failed ∧ row.metadata.fixedBy ≠ "")

instance (row : TaskRow) : Decidable (OpenWork row) := by
  unfold OpenWork
  infer_instance

/-- What the verdict of a drained queue should say: no error exactly when every
selected task is delivered, and otherwise a boundary of undelivered tasks. -/
def VerdictSound (options : QueueOptions) (ledger : TaskLedger) : QueueEnd → Prop
  | .drained boundary =>
    (boundary = [] ↔
      ∀ row ∈ ledger.tasks, Selected options row → delivered ledger.task? row = true) ∧
    (boundary ≠ [] → (∃ item ∈ boundary, ∃ row, ledger.task? item.taskID = some row ∧
        delivered ledger.task? row = false) ∧
      ∀ item ∈ boundary, ∀ row, ledger.task? item.taskID = some row →
        delivered ledger.task? row = false)
  | _ => False

/-- When the verdict can be trusted. -/
structure VerdictAgrees (options : QueueOptions) (ledger : TaskLedger) : Prop where
  selected : ∃ row ∈ ledger.tasks, Selected options row
  unapproved : ∀ row ∈ ledger.tasks, Selected options row → row.status ≠ .approved
  fixed : (∃ row ∈ ledger.tasks, Selected options row ∧ OpenWork row) ∨
    ∀ row ∈ ledger.tasks, Selected options row → row.status = .failed →
      LeadsToDelivery ledger 64 row

/-- The iteration neither is interrupted nor finds a failure to handle or a task
to run. -/
structure Drains (naming : RepairNaming) (options : QueueOptions) (ledger : TaskLedger)
    (answers : QueueAnswers) : Prop where
  uninterrupted : answers.cancelled = false ∧ answers.yields = false
  swept : ∃ retained, tasksInStories ledger options.storyIDs = some retained ∧
    sweepRetained naming options answers retained ledger false = .swept ledger false
  idle : (runnableTasks ledger options.storyIDs "").filter options.keep = []

section

variable {ledger : TaskLedger} {links : Nat} {task row : TaskRow} {options : QueueOptions}

theorem deliveredWithin_succ_iff : deliveredWithin ledger.task? (links + 1) (some task) = true ↔
      (task.status = .done ∨ task.status = .approved) ∨ task.status = .failed ∧
        task.metadata.fixedBy ≠ "" ∧
        deliveredWithin ledger.task? links (ledger.task? task.metadata.fixedBy) = true := by
  rw [deliveredWithin]
  split <;> simp_all

theorem deliveredWithin_iff : deliveredWithin ledger.task? (links + 1) (some task) = true ↔
      LeadsToDelivery ledger links task := by
  induction links generalizing task with
  | zero =>
    rw [deliveredWithin_succ_iff]
    constructor
    · rintro (done | ⟨_, _, later⟩)
      · exact .finished done
      · simp [deliveredWithin] at later
    · rintro ⟨done⟩
      exact .inl done
  | succ links ih =>
    rw [deliveredWithin_succ_iff]
    constructor
    · rintro (done | ⟨failed, closed, later⟩)
      · exact .finished done
      · cases found : ledger.task? task.metadata.fixedBy with
        | none => simp [found, deliveredWithin] at later
        | some fix => exact .fixed failed closed found (ih.mp (found ▸ later))
    · rintro (⟨done⟩ | ⟨failed, closed, found, leads⟩)
      · exact .inl done
      · exact .inr ⟨failed, closed, found ▸ ih.mpr leads⟩

theorem delivered_iff : delivered ledger.task? task = true ↔ LeadsToDelivery ledger 64 task :=
  deliveredWithin_iff

theorem OpenWork.undelivered (isOpen : OpenWork row) (unapproved : row.status ≠ .approved) :
    delivered ledger.task? row = false := by
  rw [← Bool.not_eq_true, delivered_iff]
  rintro (⟨done | approved⟩ | ⟨failed, closed, _, _⟩)
  · exact isOpen.1 done
  · exact unapproved approved
  · exact isOpen.2 ⟨failed, closed⟩

theorem OpenWork.iff_listed : OpenWork row ↔ (row.status ≠ .done && !closedWithFix row) := by
  simp [OpenWork, closedWithFix, imp_iff_not_or]

theorem taskBoundary_taskID (task : TaskRow) : (taskBoundary task).taskID = task.id := by
  unfold taskBoundary
  split
  · rfl
  · rfl
  · split
    · rfl
    · split <;> rfl
  · rfl

theorem mem_retainedTaskBoundary {listed : List TaskRow} {item : TaskBoundary}
    (isListed : tasksInStories ledger options.storyIDs = some listed) :
    item ∈ retainedTaskBoundary (listed.filter options.keep) ↔
      ∃ row ∈ ledger.tasks, Selected options row ∧ OpenWork row ∧ taskBoundary row = item := by
  rw [retainedTaskBoundary, mem_insertionSort, mem_map]
  constructor
  · rintro ⟨row, member, rfl⟩
    obtain ⟨inScope, isOpen⟩ := mem_filter.mp member
    obtain ⟨inStories, kept⟩ := mem_filter.mp inScope
    obtain ⟨inLedger, inStory⟩ := (mem_tasksInStories isListed).mp inStories
    exact ⟨row, inLedger, ⟨inStory, kept⟩, OpenWork.iff_listed.mpr isOpen, rfl⟩
  · rintro ⟨row, inLedger, ⟨inStory, kept⟩, isOpen, rfl⟩
    have inStories := (mem_tasksInStories isListed).mpr ⟨inLedger, inStory⟩
    refine ⟨row, mem_filter.mpr ⟨?_, OpenWork.iff_listed.mp isOpen⟩, rfl⟩
    exact mem_filter.mpr ⟨inStories, kept⟩

theorem retainedTaskBoundary_eq_nil_iff {listed : List TaskRow}
    (isListed : tasksInStories ledger options.storyIDs = some listed) :
    retainedTaskBoundary (listed.filter options.keep) = [] ↔
      ¬ ∃ row ∈ ledger.tasks, Selected options row ∧ OpenWork row := by
  rw [eq_nil_iff_forall_not_mem]
  constructor
  · rintro empty ⟨row, inLedger, selected, isOpen⟩
    exact empty _ ((mem_retainedTaskBoundary isListed).mpr ⟨row, inLedger, selected, isOpen, rfl⟩)
  · rintro noneOpen item listedItem
    obtain ⟨row, inLedger, selected, isOpen, _⟩ := (mem_retainedTaskBoundary isListed).mp listedItem
    exact noneOpen ⟨row, inLedger, selected, isOpen⟩

variable {naming : RepairNaming} {answers : QueueAnswers} {listed : List TaskRow}

theorem Drains.iteration (drains : Drains naming options ledger answers) :
    queueIteration naming options ledger answers = drainQueue options ledger := by
  obtain ⟨⟨uncancelled, unyielded⟩, ⟨retained, isRetained, swept⟩, idle⟩ := drains
  simp [queueIteration, uncancelled, unyielded, isRetained, swept, idle]

theorem verdictSound_boundary_iff (isListed : tasksInStories ledger options.storyIDs = some listed)
    (selected : ∃ row ∈ ledger.tasks, Selected options row) :
    VerdictSound options ledger (.drained (retainedTaskBoundary (listed.filter options.keep))) ↔
      VerdictAgrees options ledger := by
  have isEmpty := retainedTaskBoundary_eq_nil_iff isListed
  constructor
  · rintro ⟨agrees, undelivered⟩
    refine ⟨selected, ?_, ?_⟩
    · intro row inLedger isSelected approved
      have isOpen : OpenWork row := ⟨by simp [approved], by simp [approved]⟩
      have member := (mem_retainedTaskBoundary isListed).mpr
        ⟨row, inLedger, isSelected, isOpen, rfl⟩
      have found : ledger.task? (taskBoundary row).taskID = some row := by
        rw [taskBoundary_taskID]
        exact TaskLedger.task?_of_mem inLedger
      have notDelivered := (undelivered (ne_nil_of_mem member)).2 _ member row found
      have isDelivered : delivered ledger.task? row :=
        delivered_iff.mpr (.finished (.inr approved))
      exact absurd (notDelivered.symm.trans isDelivered) (by simp)
    · by_cases someOpen : ∃ row ∈ ledger.tasks, Selected options row ∧ OpenWork row
      · exact .inl someOpen
      · right
        intro row inLedger isSelected _
        exact delivered_iff.mp (agrees.mp (isEmpty.mpr someOpen) row inLedger isSelected)
  · intro agrees
    have listedUndelivered : ∀ item ∈ retainedTaskBoundary (listed.filter options.keep),
        ∃ row, ledger.task? item.taskID = some row ∧ delivered ledger.task? row = false := by
      intro item member
      obtain ⟨row, inLedger, isSelected, isOpen, rfl⟩ :=
        (mem_retainedTaskBoundary isListed).mp member
      refine ⟨row, ?_, isOpen.undelivered (agrees.unapproved row inLedger isSelected)⟩
      rw [taskBoundary_taskID]
      exact TaskLedger.task?_of_mem inLedger
    refine ⟨⟨?_, ?_⟩, ?_⟩
    · intro empty row inLedger isSelected
      have noneOpen := isEmpty.mp empty
      have leads := agrees.fixed.resolve_left noneOpen row inLedger isSelected
      have closed : ¬ OpenWork row := fun isOpen => noneOpen ⟨row, inLedger, isSelected, isOpen⟩
      by_cases done : row.status = .done
      · exact delivered_iff.mpr (.finished (.inl done))
      · refine delivered_iff.mpr (leads ?_)
        by_contra notFailed
        exact closed ⟨done, fun isClosed => notFailed isClosed.1⟩
    · intro allDelivered
      refine isEmpty.mpr ?_
      rintro ⟨row, inLedger, isSelected, isOpen⟩
      have notDelivered : delivered ledger.task? row = false :=
        isOpen.undelivered (agrees.unapproved row inLedger isSelected)
      exact absurd (notDelivered.symm.trans (allDelivered row inLedger isSelected)) (by simp)
    · intro nonempty
      obtain ⟨item, member⟩ := exists_mem_of_ne_nil _ nonempty
      refine ⟨⟨item, member, listedUndelivered item member⟩, ?_⟩
      intro other isOther row found
      obtain ⟨same, isSame, undelivered⟩ := listedUndelivered other isOther
      obtain rfl := Option.mem_unique found isSame
      exact undelivered

/-- The verdict of a drained queue is sound exactly when the selection is not
empty, has no approved task, and has open work unless the fixes of its closed
tasks are delivered. -/
theorem drained_verdict_iff (drains : Drains naming options ledger answers) :
    ∃ verdict, queueIteration naming options ledger answers = .returns ledger verdict ∧
      (VerdictSound options ledger verdict ↔ VerdictAgrees options ledger) := by
  rw [drains.iteration]
  obtain ⟨listed, isListed, _⟩ := drains.swept
  unfold drainQueue
  simp only [isListed]
  split
  · next isEmpty =>
    refine ⟨_, rfl, ⟨fun impossible => impossible.elim, ?_⟩⟩
    intro agrees
    obtain ⟨row, inLedger, inStory, kept⟩ := agrees.selected
    have member : row ∈ listed.filter options.keep :=
      mem_filter.mpr ⟨(mem_tasksInStories isListed).mpr ⟨inLedger, inStory⟩, kept⟩
    rw [isEmpty_iff.mp isEmpty] at member
    exact absurd member not_mem_nil
  · next nonempty =>
    refine ⟨_, rfl, verdictSound_boundary_iff isListed ?_⟩
    obtain ⟨row, member⟩ := exists_mem_of_ne_nil _ fun empty =>
      nonempty (isEmpty_iff.mpr empty)
    obtain ⟨inStories, kept⟩ := mem_filter.mp member
    obtain ⟨inLedger, inStory⟩ := (mem_tasksInStories isListed).mp inStories
    exact ⟨row, inLedger, inStory, kept⟩

end

def fixedTask (fixStatus : TaskStatus) : TaskLedger where
  tasks :=
    [{ id := "A", storyID := "S", status := .failed, attemptCount := 1
       metadata := { fixedBy := "B", verificationFailureEvidence := some "v1" } },
      { id := "B", storyID := "S", status := fixStatus, attemptCount := 1, maxAttempts := 2
        metadata := { fixOf := "A", repairOf := some "A", failureEvidence := "v1" } }]
  stories := [{ id := "S", tasks := ["A", "B"] }]
  steps := [{ id := "v1", runID := "A" }]
  tasksUnique := by simp
  storiesUnique := by decide
  stepsUnique := by decide

def fixOfFix : TaskLedger where
  tasks :=
    [{ id := "A", storyID := "S", status := .failed, attemptCount := 1
       metadata := { fixedBy := "B", verificationFailureEvidence := some "v1" } },
      { id := "B", storyID := "S", status := .failed, attemptCount := 1, maxAttempts := 2
        metadata :=
          { fixedBy := "C", fixOf := "A", repairOf := some "A", failureEvidence := "v1"
            verificationFailureEvidence := some "v2" } },
      { id := "C", storyID := "S", maxAttempts := 2
        metadata := { fixOf := "B", repairOf := some "A", failureEvidence := "v2" } }]
  stories := [{ id := "S", tasks := ["A", "B", "C"] }]
  steps := [{ id := "v1", runID := "A" }, { id := "v2", runID := "B" }]
  tasksUnique := by decide
  storiesUnique := by decide
  stepsUnique := by decide

theorem drained_verdict_iff_fixedTask :
    ∃ verdict, queueIteration spelledNaming { storyIDs := ["S"] } (fixedTask .done) {} =
        .returns (fixedTask .done) verdict ∧
      VerdictSound { storyIDs := ["S"] } (fixedTask .done) verdict := by
  have drains : Drains spelledNaming { storyIDs := ["S"] } (fixedTask .done) {} :=
    ⟨⟨rfl, rfl⟩, ⟨(fixedTask .done).tasks, by decide +kernel, by decide +kernel⟩,
      by decide +kernel⟩
  obtain ⟨verdict, returns, sound⟩ := drained_verdict_iff drains
  refine ⟨verdict, returns, sound.mpr ⟨by decide, by decide, .inr ?_⟩⟩
  have delivers : ∀ row ∈ (fixedTask .done).tasks,
      delivered (fixedTask .done).task? row = true := by
    decide +kernel
  intro row member _ _
  exact delivered_iff.mp (delivers row member)

/-- An approved fix is delivered and listed as retained work; a selected fix that
was closed with another fix is not delivered, and the queue reports no error. -/
theorem drained_verdict_unsound :
    (queueIteration spelledNaming { storyIDs := ["S"] } (fixedTask .approved) {} =
        .returns (fixedTask .approved)
          (.drained [{ taskID := "B", status := .approved, kind := .retained }]) ∧
      ∀ row ∈ (fixedTask .approved).tasks, delivered (fixedTask .approved).task? row = true) ∧
    queueIteration spelledNaming { storyIDs := ["S"], taskIDs := some ["B"] } fixOfFix {} =
        .returns fixOfFix (.drained []) ∧
      ∃ row ∈ fixOfFix.tasks, Selected { storyIDs := ["S"], taskIDs := some ["B"] } row ∧
        delivered fixOfFix.task? row = false := by
  refine ⟨⟨?_, ?_⟩, ?_, ?_⟩ <;> decide +kernel

end OpenExec.TaskQueue
