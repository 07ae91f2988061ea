import OpenExec.TaskQueueOperations

/-!
# What the ledger operations can do

Every operation either edits rows in place, keeping what links a task to its
fixes, or inserts one fix task and closes the task it fixes.
-/

namespace OpenExec.TaskQueue

open Release KeyedRows GoStrings TaskLedger List

variable {status : TaskStatus} {step : RunStep} {attempt : Int} {storyIDs : List String}
  {accepted : Bool}

/-- An edit in place.  `recorded` are the receipts the edit may bind and
`completes` says whether it may finish a task. -/
structure RowEdit (recorded : String → Prop) (completes : Prop) (before after : TaskRow) :
    Prop where
  id : after.id = before.id
  storyID : after.storyID = before.storyID
  maxAttempts : after.maxAttempts = before.maxAttempts
  fixedBy : after.metadata.fixedBy = before.metadata.fixedBy
  fixOf : after.metadata.fixOf = before.metadata.fixOf
  repairOf : after.metadata.repairOf = before.metadata.repairOf
  failureEvidence : after.metadata.failureEvidence = before.metadata.failureEvidence
  started : after.status = .inProgress → before.status = .inProgress ∨ before.metadata.fixedBy = ""
  finished : after.status = .done → before.status = .done ∨ completes
  counted : before.attemptCount ≤ after.attemptCount
  budgeted : after.attemptCount = before.attemptCount ∨ after.attemptCount ≤ before.maxAttempts
  bound : ∀ evidenceID, after.metadata.verificationFailureEvidence = some evidenceID →
    before.metadata.verificationFailureEvidence = some evidenceID ∨ recorded evidenceID

section

variable {recorded : String → Prop} {completes : Prop} {before between after row : TaskRow}

theorem RowEdit.refl (row : TaskRow) : RowEdit recorded completes row row :=
  ⟨rfl, rfl, rfl, rfl, rfl, rfl, rfl, .inl, .inl, le_refl _, .inl rfl, fun _ => .inl⟩

theorem RowEdit.trans (first : RowEdit recorded completes before between)
    (second : RowEdit recorded completes between after) :
    RowEdit recorded completes before after where
  id := second.id.trans first.id
  storyID := second.storyID.trans first.storyID
  maxAttempts := second.maxAttempts.trans first.maxAttempts
  fixedBy := second.fixedBy.trans first.fixedBy
  fixOf := second.fixOf.trans first.fixOf
  repairOf := second.repairOf.trans first.repairOf
  failureEvidence := second.failureEvidence.trans first.failureEvidence
  started := by
    intro started
    rcases second.started started with earlier | unfixed
    · exact first.started earlier
    · exact .inr (first.fixedBy ▸ unfixed)
  finished := by
    intro finished
    rcases second.finished finished with earlier | allowed
    · exact first.finished earlier
    · exact .inr allowed
  counted := first.counted.trans second.counted
  budgeted := by
    have early := first.budgeted
    have late := second.budgeted
    have counted := first.counted
    have same := first.maxAttempts
    omega
  bound := by
    intro evidenceID isBound
    rcases second.bound evidenceID isBound with earlier | isRecorded
    · exact first.bound evidenceID earlier
    · exact .inr isRecorded

theorem RowEdit.setStatus (row : TaskRow) (notStarted : status ≠ .inProgress)
    (allowed : status = .done → completes) : RowEdit recorded completes row { row with status } :=
  ⟨rfl, rfl, rfl, rfl, rfl, rfl, rfl, fun started => absurd started notStarted,
    fun done => .inr (allowed done), le_refl _, .inl rfl, fun _ => .inl⟩

/-- The rows of `ledger`, each edited in its place. -/
def Edits (recorded : String → Prop) (completes : Prop) (ledger next : TaskLedger) : Prop :=
  ∃ change, next.tasks = ledger.tasks.map change ∧
    ∀ row ∈ ledger.tasks, RowEdit recorded completes row (change row)

variable {ledger next later : TaskLedger} {id : String} {change : TaskRow → TaskRow}

theorem Edits.refl (ledger : TaskLedger) : Edits recorded completes ledger ledger :=
  ⟨fun row => row, (map_id' _).symm, fun row _ => RowEdit.refl row⟩

theorem Edits.trans (first : Edits recorded completes ledger next)
    (second : Edits recorded completes next later) : Edits recorded completes ledger later := by
  obtain ⟨early, earlyTasks, earlyEdits⟩ := first
  obtain ⟨late, lateTasks, lateEdits⟩ := second
  refine ⟨fun row => late (early row), ?_, ?_⟩
  · rw [lateTasks, earlyTasks, map_map]
    rfl
  · intro row member
    refine (earlyEdits row member).trans (lateEdits _ ?_)
    rw [earlyTasks]
    exact mem_map_of_mem member

section

variable (edits : Edits recorded completes ledger next)
include edits

theorem Edits.mem (member : row ∈ next.tasks) :
    ∃ before ∈ ledger.tasks, RowEdit recorded completes before row := by
  obtain ⟨change, isTasks, edited⟩ := edits
  rw [isTasks] at member
  obtain ⟨before, isBefore, rfl⟩ := mem_map.mp member
  exact ⟨before, isBefore, edited before isBefore⟩

theorem Edits.task?_map : ∃ change, next.tasks = ledger.tasks.map change ∧
    (∀ row ∈ ledger.tasks, RowEdit recorded completes row (change row)) ∧ ∀ id, next.task? id =
    (ledger.task? id).map change := by
  obtain ⟨change, isTasks, edited⟩ := edits
  refine ⟨change, isTasks, edited, fun id => ?_⟩
  rw [task?, isTasks]
  exact row?_map fun row member => (edited row member).id

theorem Edits.task? (found : ledger.task? id = some row) :
    ∃ after, next.task? id = some after ∧ RowEdit recorded completes row after := by
  obtain ⟨change, _, edited, lookup⟩ := edits.task?_map
  refine ⟨change row, ?_, edited row (task?_mem found)⟩
  rw [lookup, found]
  rfl

end

theorem Edits.changeTask
    (edited : ∀ row ∈ ledger.tasks, row.id = id → RowEdit recorded completes row (change row)) :
    Edits recorded completes ledger (ledger.changeTask id change) := by
  refine ⟨_, rfl, ?_⟩
  intro row member
  by_cases named : row.id = id
  · have edit := edited row member named
    simp only [named, if_true]
    exact { edit with id := named.symm }
  · simp only [named, if_false]
    exact RowEdit.refl row

theorem Edits.sameTasks (tasks : next.tasks = ledger.tasks) :
    Edits recorded completes ledger next :=
  ⟨fun row => row, by rw [tasks, map_id'], fun row _ => RowEdit.refl row⟩

theorem insertStep_edits (inserted : ledger.insertStep step = some next) :
    Edits recorded completes ledger next := by
  unfold insertStep at inserted
  split at inserted
  · cases inserted
  · cases inserted
    exact Edits.sameTasks rfl

theorem guardedStatus_edits {before after : TaskStatus} (notStarted : after ≠ .inProgress)
    (notDone : after ≠ .done) :
    Edits recorded completes ledger (guardedStatus ledger id before attempt after) := by
  refine Edits.changeTask ?_
  intro row _ _
  split
  · exact RowEdit.setStatus row notStarted fun done => absurd done notDone
  · exact RowEdit.refl row

theorem runnable_row {recaptureID : String} {task : TaskRow}
    (selected : task ∈ runnableTasks ledger storyIDs recaptureID) :
    ∃ row, ledger.task? task.id = some row ∧ row.metadata.fixedBy = "" ∧
      row.attemptCount < row.maxAttempts := by
  rw [runnableTasks, mem_insertionSort, mem_filter] at selected
  obtain ⟨listed, runnable⟩ := selected
  simp only [isRunnable, Bool.and_eq_true, decide_eq_true_eq] at runnable
  obtain ⟨⟨⟨_, left⟩, unfixed⟩, _⟩ := runnable
  obtain ⟨row, member, rfl⟩ := mem_map.mp listed
  refine ⟨row, ?_, ?_⟩
  · have same : (if row.id = recaptureID ∧ row.status = .failed then
        { row with status := .pending } else row).id = row.id := by
      split <;> rfl
    rw [same]
    exact task?_of_mem member
  · split at left <;> split at unfixed <;> exact ⟨unfixed, left⟩

theorem Edits.changeFound (found : ledger.task? id = some row)
    (edited : RowEdit recorded completes row (change row)) :
    Edits recorded completes ledger (ledger.changeTask id change) := by
  refine Edits.changeTask ?_
  intro other member named
  have same : ledger.task? id = some other := named ▸ task?_of_mem member
  obtain rfl := Option.mem_unique found same
  exact edited

theorem beginAttempt_edits (found : ledger.task? id = some row)
    (unfixed : row.metadata.fixedBy = "") (left : row.attemptCount < row.maxAttempts) :
    Edits recorded completes ledger (beginAttempt ledger id) := by
  refine Edits.changeFound found ⟨rfl, rfl, rfl, rfl, rfl, rfl, rfl, fun _ => .inr unfixed,
    by simp, ?_, .inr ?_, by simp⟩ <;>
  · simp only
    omega

theorem startAttempt_edits (taken : startAttempt ledger storyIDs id = some next) :
    Edits recorded completes ledger next := by
  unfold startAttempt at taken
  split at taken
  · next selected =>
    cases taken
    obtain ⟨task, isSelected, named⟩ := any_eq_true.mp selected
    obtain rfl := of_decide_eq_true named
    obtain ⟨row, found, unfixed, left⟩ := runnable_row isSelected
    exact beginAttempt_edits found unfixed left
  · cases taken

theorem setTaskStatus_edits (notStarted : status ≠ .inProgress)
    (allowed : status = .done → completes)
    (taken : setTaskStatus ledger id status accepted = some next) :
    Edits recorded completes ledger next := by
  unfold setTaskStatus at taken
  split at taken
  · cases taken
  next task found =>
  split at taken
  · cases taken
  · cases taken
    exact Edits.changeFound found (RowEdit.setStatus task notStarted allowed)

theorem finishDone_edits (allowed : completes) (taken : finishDone ledger id accepted = some next) :
    Edits recorded completes ledger next := by
  unfold finishDone at taken
  split at taken
  · cases taken
  split at taken
  · cases taken
    exact Edits.refl ledger
  · split at taken
    · cases taken
    · exact setTaskStatus_edits (by simp) (fun _ => allowed) taken

theorem recordTaskFailureStep_edits (isRecorded : recorded step.id)
    (taken : recordTaskFailureStep ledger step attempt = some next) :
    Edits recorded completes ledger next := by
  unfold recordTaskFailureStep at taken
  split at taken
  · cases taken
  split at taken
  · cases taken
  next task found =>
  split at taken
  · refine (Edits.changeFound found ?_).trans (insertStep_edits taken)
    refine ⟨rfl, rfl, rfl, rfl, rfl, rfl, rfl, by simp, by simp, le_refl _, .inl rfl, ?_⟩
    intro evidenceID isBound
    cases isBound
    exact .inr isRecorded
  · cases taken

theorem reconcileTask_edits (task : TaskRow) :
    Edits recorded completes ledger (reconcileTask ledger task) := by
  unfold reconcileTask
  split
  · split
    · exact guardedStatus_edits (by simp) (by simp)
    · exact Edits.refl ledger
  · split
    · exact guardedStatus_edits (by simp) (by simp)
    · split
      · exact guardedStatus_edits (by simp) (by simp)
      · split
        · exact guardedStatus_edits (by simp) (by simp)
        · exact Edits.refl ledger

theorem recaptureEligible_row {task : TaskRow} (found : ledger.task? id = some task)
    (eligible : recaptureEligible ledger task) : task.metadata.fixedBy = "" := by
  obtain ⟨next, selected, named⟩ := any_eq_true.mp eligible
  obtain ⟨row, isRow, unfixed, _⟩ := runnable_row selected
  rw [of_decide_eq_true named, task?_id found] at isRow
  obtain rfl := Option.mem_unique found isRow
  exact unfixed

theorem claimRecapture_edits {evidenceID : String}
    (taken : claimRecapture ledger id evidenceID = some next) :
    Edits recorded completes ledger next := by
  unfold claimRecapture at taken
  split at taken
  · cases taken
  next task found =>
  split at taken
  · next admitted =>
    obtain ⟨_, _, left, eligible⟩ := admitted
    cases taken
    have unfixed := recaptureEligible_row found eligible
    refine Edits.changeFound found ⟨rfl, rfl, rfl, rfl, rfl, rfl, rfl, fun _ => .inr unfixed,
      by simp, ?_, .inr ?_, fun _ => .inl⟩ <;>
    · simp only
      omega
  · cases taken

theorem finishRecapture_edits {outcome : RecaptureOutcome}
    (taken : finishRecapture ledger id attempt outcome = some next) :
    Edits recorded completes ledger next := by
  unfold finishRecapture at taken
  split at taken
  · cases taken
  next task found =>
  split at taken
  · cases taken
  next owned =>
  cases taken
  refine Edits.changeFound found ⟨rfl, rfl, rfl, rfl, rfl, rfl, rfl, ?_, ?_, le_refl _,
    .inl rfl, ?_⟩
  · cases outcome <;> simp [RecaptureOutcome.status] at owned ⊢
  · cases outcome <;> simp [RecaptureOutcome.status]
  · intro evidenceID isBound
    split at isBound
    · cases isBound
    · exact .inl isBound

end

def closingRow (task : TaskRow) (fixID : String) (row : TaskRow) : TaskRow :=
  if task.status = .failed ∧ row.id = task.id then
    { row with metadata := { row.metadata with fixedBy := fixID } }
  else row

/-- What `RepairFailure` requires and writes: `fix` repairs `task` of the line of `root`. -/
structure Repaired (ledger next : TaskLedger) (fix task root : TaskRow) : Prop where
  named : task.id ≠ "" ∧ fix.id ≠ ""
  absent : ledger.task? fix.id = none
  found : ledger.task? task.id = some task
  rootFound : ledger.task? task.rootID = some root
  sameStory : fix.storyID = task.storyID
  unfixed : task.metadata.fixedBy = ""
  status : task.status = .failed ∨ task.status = .done
  budget : task.status = .failed → (ledger.fixCount task.rootID : Int) < root.maxAttempts
  fixOf : fix.metadata.fixOf = task.id
  repairOf : fix.metadata.repairOf = some task.rootID
  fresh : fix.metadata.fixedBy = "" ∧ fix.metadata.verificationFailureEvidence = none ∧
    fix.status = .pending ∧ fix.attemptCount = 0 ∧ fix.maxAttempts = 2
  tasks : next.tasks = (ledger.tasks ++ [fix]).map (closingRow task fix.id)
  stories : ∀ id, id ≠ task.storyID → next.story? id = ledger.story? id

variable {ledger next : TaskLedger} {naming : RepairNaming} {now : Nat}
  {taskID evidenceID diagnosis id : String} {task root fix row : TaskRow}

theorem RepairNaming.repairID_ne_empty (naming : RepairNaming) (taskID evidenceID : String) :
    naming.repairID taskID evidenceID ≠ "" := by
  simp [repairID]

theorem RepairNaming.trimSpace_repairID (naming : RepairNaming) (taskID evidenceID : String) :
    trimSpace (naming.repairID taskID evidenceID) = naming.repairID taskID evidenceID := by
  refine trimSpace_of_plain fun c member => ?_
  have plain : ∀ c ∈ "repair-".toList, isSpace c = false := by simp [isSpace]
  rw [repairID, String.toList_append] at member
  rcases mem_append.mp member with inPrefix | inDigest
  · exact plain c inPrefix
  · exact naming.digestPlain taskID evidenceID c inDigest

theorem admitRepair_ok {branch : String} (admitted : admitRepair ledger task = .ok (root, branch)) :
    (task.status = .failed ∨ task.status = .done) ∧ task.metadata.fixedBy = "" ∧
      ledger.task? task.rootID = some root ∧
      (task.status = .failed → (ledger.fixCount task.rootID : Int) < root.maxAttempts) := by
  unfold admitRepair at admitted
  split at admitted
  · cases admitted
  next status =>
  split at admitted
  · cases admitted
  next unfixed =>
  split at admitted
  · cases admitted
  next found rootFound =>
  split at admitted
  · cases admitted
  split at admitted
  · cases admitted
  next budget =>
  split at admitted
  · cases admitted
  simp only at admitted
  generalize (if task.branch = "" then _ else task.branch) = chosen at admitted
  split at admitted
  · cases admitted
  split at admitted
  · cases admitted
  obtain ⟨rfl, _⟩ := Prod.mk.inj (Except.ok.inj admitted)
  refine ⟨?_, not_not.mp unfixed, rootFound, ?_⟩
  · by_contra neither
    exact status (not_or.mp neither)
  · intro failed
    by_contra spent
    exact budget ⟨failed, .inr (not_lt.mp spent)⟩

theorem repair_tasks (absent : ledger.task? fix.id = none) (storyID : String) :
    ((closeWithFix (ledger.insertTask fix) task fix.id).listInStory storyID fix.id).tasks =
      (ledger.tasks ++ [fix]).map (closingRow task fix.id) := by
  have unlisted : fix.id ∉ ledger.tasks.map TaskRow.id := row?_eq_none_iff.mp absent
  have inserted : (ledger.insertTask fix).tasks = ledger.tasks ++ [fix] := by
    rw [insertTask, dif_neg unlisted]
  have closed : (closeWithFix (ledger.insertTask fix) task fix.id).tasks =
      (ledger.tasks ++ [fix]).map (closingRow task fix.id) := by
    unfold closeWithFix
    split
    · next failed =>
      rw [← inserted]
      refine map_congr_left fun row _ => ?_
      by_cases named : row.id = task.id <;> simp [closingRow, failed, named]
    · next notFailed =>
      have same : closingRow task fix.id = fun row => row := by
        funext row
        simp [closingRow, notFailed]
      rw [inserted, same, map_id']
  exact closed

theorem repair_stories {storyID : String} (different : id ≠ storyID) :
    ((closeWithFix (ledger.insertTask fix) task fix.id).listInStory storyID fix.id).story? id =
      ledger.story? id := by
  have inserted : (closeWithFix (ledger.insertTask fix) task fix.id).stories = ledger.stories := by
    unfold closeWithFix insertTask
    split <;> split <;> rfl
  unfold story? listInStory
  simp only
  rw [inserted, row?_map]
  · cases found : row? StoryRow.id ledger.stories id with
    | none => rfl
    | some story =>
      have named := row?_key found
      simp [named, different]
  · intro story _
    split <;> rfl

theorem createFailureRepair_cases
    (created : createFailureRepair ledger now naming taskID evidenceID diagnosis = .ok next) :
    (next = ledger ∧ ∃ fix ∈ ledger.tasks, fix.metadata.fixOf = trimSpace taskID ∧
        fix.metadata.failureEvidence = trimSpace evidenceID) ∨
      ∃ fix task root, Repaired ledger next fix task root ∧ task.id = trimSpace taskID ∧
        fix.metadata.failureEvidence = trimSpace evidenceID ∧
        fix.id = naming.repairID (trimSpace taskID) (trimSpace evidenceID) := by
  unfold createFailureRepair at created
  split at created
  · cases created
  next given =>
  have named : trimSpace taskID ≠ "" := fun empty => given (.inl empty)
  unfold insertRepair at created
  split at created
  · next existing found =>
    split at created
    · next matching =>
      cases created
      exact .inl ⟨rfl, existing, task?_mem found, matching.1, matching.2.1⟩
    · cases created
  · next absent =>
    split at created
    · cases created
    next task found =>
    split at created
    · cases created
    next root branch admitted =>
    cases created
    obtain ⟨status, unfixed, rootFound, budget⟩ := admitRepair_ok admitted
    have isTask : task.id = trimSpace taskID := task?_id found
    refine .inr ⟨fixTask _ (trimSpace taskID) (trimSpace evidenceID) (trimSpace diagnosis)
      branch now task root, task, root, ?_, isTask, rfl, rfl⟩
    exact ⟨⟨isTask ▸ named, naming.repairID_ne_empty _ _⟩, absent, isTask ▸ found, rootFound,
      rfl, unfixed, status, budget, isTask.symm, rfl, ⟨rfl, rfl, rfl, rfl, rfl⟩,
      repair_tasks absent _, fun id different => repair_stories different⟩

theorem Repaired.of_tables {other : TaskLedger} (same : other.tasks = ledger.tasks)
    (sameStories : other.stories = ledger.stories) (repaired : Repaired other next fix task root) :
    Repaired ledger next fix task root := by
  have lookup (id : String) : ledger.task? id = other.task? id := by
    rw [task?, task?, same]
  have count (rootID : String) : ledger.fixCount rootID = other.fixCount rootID := by
    rw [fixCount, fixCount, same]
  have storyLookup (id : String) : ledger.story? id = other.story? id := by
    rw [story?, story?, sameStories]
  exact ⟨repaired.named, lookup _ ▸ repaired.absent, lookup _ ▸ repaired.found,
    lookup _ ▸ repaired.rootFound, repaired.sameStory, repaired.unfixed, repaired.status,
    fun failed => count _ ▸ repaired.budget failed, repaired.fixOf, repaired.repairOf,
    repaired.fresh, same ▸ repaired.tasks,
    fun id different => (repaired.stories id different).trans (storyLookup id).symm⟩

theorem recordedStop_tables : ((ledger.insertStep step).getD ledger).tasks = ledger.tasks ∧
    ((ledger.insertStep step).getD ledger).stories = ledger.stories := by
  unfold insertStep
  split <;> exact ⟨rfl, rfl⟩

theorem fixProviderStop_cases {reason : String}
    (handled : fixProviderStop naming ledger now id attempt reason = .fixed next ∨
      fixProviderStop naming ledger now id attempt reason = .refused next) :
    next.tasks = ledger.tasks ∨
      ∃ fix task root evidenceID, Repaired ledger next fix task root ∧ task.id = trimSpace id ∧
        fix.id = naming.repairID task.id evidenceID := by
  unfold fixProviderStop at handled
  split at handled
  · rcases handled with ⟨⟨⟩⟩ | ⟨⟨⟩⟩
  split at handled
  · rcases handled with ⟨⟨⟩⟩ | ⟨⟨⟩⟩
    exact .inl rfl
  · next failed found =>
    split at handled
    · rcases handled with ⟨⟨⟩⟩ | ⟨⟨⟩⟩
    split at handled
    · rcases handled with ⟨⟨⟩⟩ | ⟨⟨⟩⟩
      exact .inl rfl
    · split at handled
      · rcases handled with ⟨⟨⟩⟩ | ⟨⟨⟩⟩
      · simp only at handled
        generalize (if failed.metadata.repairOf.getD "" = "" then _ else _ :
          Option TaskRow) = original? at handled
        cases original? with
        | none =>
          rcases handled with ⟨⟨⟩⟩ | ⟨⟨⟩⟩
          exact .inl recordedStop_tables.1
        | some original =>
          simp only at handled
          split at handled
          · rcases handled with ⟨⟨⟩⟩ | ⟨⟨⟩⟩
            exact .inl recordedStop_tables.1
          · next repaired created =>
            rcases handled with ⟨⟨⟩⟩ | ⟨⟨⟩⟩
            rcases createFailureRepair_cases created with
              ⟨rfl, _⟩ | ⟨fix, task, root, isRepaired, isTask, _, isFix⟩
            · exact .inl recordedStop_tables.1
            · rw [← isTask] at isFix
              exact .inr ⟨fix, task, root, _,
                isRepaired.of_tables recordedStop_tables.1 recordedStop_tables.2, isTask, isFix⟩

theorem closingRow_links (task : TaskRow) (fixID : String) (row : TaskRow) :
    (closingRow task fixID row).id = row.id ∧ (closingRow task fixID row).storyID = row.storyID ∧
    (closingRow task fixID row).status = row.status ∧ (closingRow task fixID row).metadata.fixOf =
    row.metadata.fixOf ∧ (closingRow task fixID row).metadata.repairOf = row.metadata.repairOf := by
  unfold closingRow
  split <;> exact ⟨rfl, rfl, rfl, rfl, rfl⟩

variable (repaired : Repaired ledger next fix task root)
include repaired

theorem Repaired.task? (id : String) :
    next.task? id = ((ledger.task? id).or (if fix.id = id then some fix else none)).map
      (closingRow task fix.id) := by
  have mapped : row? TaskRow.id ((ledger.tasks ++ [fix]).map (closingRow task fix.id)) id =
      (row? TaskRow.id (ledger.tasks ++ [fix]) id).map (closingRow task fix.id) :=
    row?_map fun row _ => (closingRow_links task fix.id row).1
  rw [TaskLedger.task?, repaired.tasks, mapped, row?_append_one]
  rfl

theorem Repaired.closingRow_fix : closingRow task fix.id fix = fix := by
  refine if_neg ?_
  rintro ⟨_, same⟩
  exact absurd (repaired.absent.symm.trans (same ▸ repaired.found)) (by simp)

theorem Repaired.task?_fix : next.task? fix.id = some fix := by
  rw [repaired.task?, repaired.absent]
  simp [repaired.closingRow_fix]

theorem Repaired.task?_old (found : ledger.task? id = some row) :
    next.task? id = some (closingRow task fix.id row) := by
  rw [repaired.task?, found]
  rfl

theorem Repaired.mem (member : row ∈ next.tasks) :
    row = fix ∨ ∃ before ∈ ledger.tasks, row = closingRow task fix.id before := by
  rw [repaired.tasks] at member
  obtain ⟨before, listed, rfl⟩ := mem_map.mp member
  rcases mem_append.mp listed with old | new
  · exact .inr ⟨before, old, rfl⟩
  · obtain rfl := mem_singleton.mp new
    exact .inl repaired.closingRow_fix

theorem Repaired.closingRow_fixedBy (member : row ∈ ledger.tasks) :
    (closingRow task fix.id row).metadata.fixedBy = row.metadata.fixedBy ∨
      row = task ∧ (closingRow task fix.id row).metadata.fixedBy = fix.id := by
  unfold closingRow
  split
  · next closes =>
    right
    have found := task?_of_mem member
    rw [closes.2] at found
    exact ⟨Option.mem_unique found repaired.found, rfl⟩
  · exact .inl rfl

end OpenExec.TaskQueue
