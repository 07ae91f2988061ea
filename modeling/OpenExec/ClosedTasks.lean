import OpenExec.LedgerEdits

/-!
# A task closed with a fix stays closed

The links between tasks and their fixes along every run of the ledger
operations, from a ledger that has no fixes yet.
-/

namespace OpenExec.TaskQueue

open GuardedRuns Option TaskLedger

variable {first last fixID : String} {start : TaskLedger}
  {guard : TaskLedger → LedgerAction → Prop} {fixes : List String}

def Unrepaired (ledger : TaskLedger) : Prop :=
  ∀ row ∈ ledger.tasks,
    row.metadata.fixedBy = "" ∧ row.metadata.fixOf = "" ∧ row.metadata.repairOf = none

instance (ledger : TaskLedger) : Decidable (Unrepaired ledger) := by
  unfold Unrepaired
  infer_instance

inductive ChainRoot (ledger : TaskLedger) : String → String → Prop
  | original {id : String} {row : TaskRow} (found : ledger.task? id = some row)
      (unlinked : row.metadata.fixOf = "") : ChainRoot ledger id id
  | fix {id root : String} {row : TaskRow} (found : ledger.task? id = some row)
      (linked : row.metadata.fixOf ≠ "") (above : ChainRoot ledger row.metadata.fixOf root) :
      ChainRoot ledger id root

def fixesOf (rows : List TaskRow) (id : String) : List String :=
  (rows.filter fun row => row.metadata.fixOf = id).map TaskRow.id

structure Linked (ledger : TaskLedger) : Prop where
  original : ∀ row ∈ ledger.tasks, row.metadata.fixOf = "" → row.metadata.repairOf = none
  chained : ∀ row ∈ ledger.tasks, row.metadata.fixOf ≠ "" →
    ∃ root, row.metadata.repairOf = some root ∧ root ≠ "" ∧ ChainRoot ledger row.metadata.fixOf root
  closed : ∀ row ∈ ledger.tasks, row.metadata.fixedBy ≠ "" → row.id ≠ "" ∧
    row.status ≠ .inProgress ∧
    ∃ fix, ledger.task? row.metadata.fixedBy = some fix ∧ fix.metadata.fixOf = row.id ∧
      fix.storyID = row.storyID

section

variable {naming : RepairNaming} {ledger next : TaskLedger} {action : LedgerAction}
  {id : String} {fix task root row : TaskRow} {recorded : String → Prop} {completes : Prop}

theorem stepLedger_cases (taken : stepLedger naming ledger action = some next) :
    Edits (fun _ => True) True ledger next ∨
      ∃ fix task root, Repaired ledger next fix task root := by
  cases action with
  | start storyIDs id => exact .inl (startAttempt_edits taken)
  | complete id accepted => exact .inl (finishDone_edits trivial taken)
  | fail id => exact .inl (setTaskStatus_edits (by simp) (fun _ => trivial) taken)
  | recordFailure step attempt => exact .inl (recordTaskFailureStep_edits trivial taken)
  | repair taskID evidenceID diagnosis now =>
    simp only [stepLedger] at taken
    cases created : createFailureRepair ledger now naming taskID evidenceID diagnosis with
    | error refusal =>
      rw [created] at taken
      simp [Except.toOption] at taken
    | ok repaired =>
      rw [created] at taken
      cases taken
      rcases createFailureRepair_cases created with
        ⟨rfl, _⟩ | ⟨fix, task, root, isRepaired, _⟩
      · exact .inl (Edits.refl _)
      · exact .inr ⟨fix, task, root, isRepaired⟩
  | reconcile id =>
    obtain ⟨row, _, rfl⟩ := map_eq_some_iff.mp taken
    exact .inl (reconcileTask_edits row)
  | claim id evidenceID => exact .inl (claimRecapture_edits taken)
  | finish id attempt outcome => exact .inl (finishRecapture_edits taken)
  | pause id attempt =>
    cases taken
    exact .inl (guardedStatus_edits (by simp) (by simp))
  | providerStop id attempt reason now =>
    simp only [stepLedger] at taken
    have handled : fixProviderStop naming ledger now id attempt reason = .fixed next ∨
        fixProviderStop naming ledger now id attempt reason = .refused next := by
      split at taken
      · cases taken
      · next isFixed => exact .inl (Option.some.inj taken ▸ isFixed)
      · next isRefused => exact .inr (Option.some.inj taken ▸ isRefused)
    rcases fixProviderStop_cases handled with same | ⟨fix, task, root, _, isRepaired, _⟩
    · exact .inl (Edits.sameTasks same)
    · exact .inr ⟨fix, task, root, isRepaired⟩

theorem ChainRoot.mono (chain : ChainRoot ledger first last)
    (kept : ∀ {id row}, ledger.task? id = some row →
      ∃ after, next.task? id = some after ∧ after.metadata.fixOf = row.metadata.fixOf) :
    ChainRoot next first last := by
  induction chain with
  | original found unlinked =>
    obtain ⟨after, isAfter, same⟩ := kept found
    exact .original isAfter (same.trans unlinked)
  | fix found linked _ ih =>
    obtain ⟨after, isAfter, same⟩ := kept found
    exact .fix isAfter (same ▸ linked) (same ▸ ih)

theorem ChainRoot.edits (chain : ChainRoot ledger first last)
    (edits : Edits recorded completes ledger next) : ChainRoot next first last := by
  refine chain.mono ?_
  intro id row found
  obtain ⟨after, isAfter, edit⟩ := edits.task? found
  exact ⟨after, isAfter, edit.fixOf⟩

theorem ChainRoot.repaired {first last : String} (chain : ChainRoot ledger first last)
    (repaired : Repaired ledger next fix task root) : ChainRoot next first last := by
  refine chain.mono ?_
  intro id row found
  exact ⟨_, repaired.task?_old found, (closingRow_links task fix.id row).2.2.2.1⟩

theorem Linked.chainRoot (linked : Linked ledger) (found : ledger.task? row.id = some row)
    (named : row.id ≠ "") : row.rootID ≠ "" ∧ ChainRoot ledger row.id row.rootID := by
  have member := task?_mem found
  by_cases isOriginal : row.metadata.fixOf = ""
  · have isRoot : row.rootID = row.id := by
      simp [TaskRow.rootID, linked.original row member isOriginal]
    rw [isRoot]
    exact ⟨named, .original found isOriginal⟩
  · obtain ⟨rootID, filed, notEmpty, above⟩ := linked.chained row member isOriginal
    have isRoot : row.rootID = rootID := by simp [TaskRow.rootID, filed, notEmpty]
    rw [isRoot]
    exact ⟨notEmpty, .fix found isOriginal above⟩

theorem Linked.edits (linked : Linked ledger) (edits : Edits recorded completes ledger next) :
    Linked next := by
  refine ⟨?_, ?_, ?_⟩
  · intro row member isOriginal
    obtain ⟨before, isBefore, edit⟩ := edits.mem member
    rw [edit.repairOf]
    exact linked.original before isBefore (edit.fixOf ▸ isOriginal)
  · intro row member isFix
    obtain ⟨before, isBefore, edit⟩ := edits.mem member
    rw [edit.fixOf] at isFix ⊢
    obtain ⟨rootID, filed, notEmpty, above⟩ := linked.chained before isBefore isFix
    exact ⟨rootID, edit.repairOf.trans filed, notEmpty, above.edits edits⟩
  · intro row member isClosed
    obtain ⟨before, isBefore, edit⟩ := edits.mem member
    rw [edit.fixedBy] at isClosed ⊢
    obtain ⟨named, idle, fix, found, fixes, sameStory⟩ := linked.closed before isBefore isClosed
    obtain ⟨after, isAfter, fixEdit⟩ := edits.task? found
    refine ⟨edit.id ▸ named, ?_, after, isAfter, ?_, ?_⟩
    · intro started
      rcases edit.started started with earlier | unfixed
      · exact idle earlier
      · exact isClosed unfixed
    · rw [fixEdit.fixOf, fixes, edit.id]
    · rw [fixEdit.storyID, sameStory, edit.storyID]

theorem Linked.repaired (linked : Linked ledger) (repaired : Repaired ledger next fix task root) :
    Linked next := by
  obtain ⟨rootNamed, chain⟩ := linked.chainRoot repaired.found repaired.named.1
  refine ⟨?_, ?_, ?_⟩
  · intro row member isOriginal
    rcases repaired.mem member with rfl | ⟨before, isBefore, rfl⟩
    · exact absurd (repaired.fixOf.symm.trans isOriginal) repaired.named.1
    · obtain ⟨_, _, _, fixOf, repairOf⟩ := closingRow_links task fix.id before
      rw [repairOf]
      exact linked.original before isBefore (fixOf ▸ isOriginal)
  · intro row member isFix
    rcases repaired.mem member with rfl | ⟨before, isBefore, rfl⟩
    · rw [repaired.fixOf]
      exact ⟨task.rootID, repaired.repairOf, rootNamed, chain.repaired repaired⟩
    · obtain ⟨_, _, _, fixOf, repairOf⟩ := closingRow_links task fix.id before
      rw [fixOf] at isFix ⊢
      obtain ⟨rootID, filed, notEmpty, above⟩ := linked.chained before isBefore isFix
      exact ⟨rootID, repairOf.trans filed, notEmpty, above.repaired repaired⟩
  · intro row member isClosed
    rcases repaired.mem member with rfl | ⟨before, isBefore, rfl⟩
    · exact absurd repaired.fresh.1 isClosed
    · obtain ⟨sameID, sameStory, sameStatus, _, _⟩ := closingRow_links task fix.id before
      rw [sameID, sameStory, sameStatus]
      rcases repaired.closingRow_fixedBy isBefore with same | ⟨rfl, closes⟩
      · rw [same] at isClosed ⊢
        obtain ⟨named, idle, old, found, fixes, oldStory⟩ :=
          linked.closed before isBefore isClosed
        obtain ⟨_, story, _, fixOf, _⟩ := closingRow_links task fix.id old
        exact ⟨named, idle, _, repaired.task?_old found, fixOf.trans fixes, story.trans oldStory⟩
      · rw [closes]
        refine ⟨repaired.named.1, ?_, fix, repaired.task?_fix, repaired.fixOf, repaired.sameStory⟩
        rcases repaired.status with failed | done
        · simp [failed]
        · simp [done]

theorem Unrepaired.linked (unrepaired : Unrepaired ledger) : Linked ledger where
  original := fun row member _ => (unrepaired row member).2.2
  chained := fun row member isFix => absurd (unrepaired row member).2.1 isFix
  closed := fun row member isClosed => absurd (unrepaired row member).1 isClosed

theorem reachable_linked (linked : Linked start)
    (reachable : Reachable (stepLedger naming) guard start ledger) : Linked ledger := by
  refine reachable.invariant linked ?_
  intro ledger action next kept _ taken
  rcases stepLedger_cases taken with edits | ⟨fix, task, root, repaired⟩
  · exact kept.edits edits
  · exact kept.repaired repaired

def ClosedBy (id fixID : String) (fixes : List String) (ledger : TaskLedger) : Prop :=
  (∃ row, ledger.task? id = some row ∧ row.metadata.fixedBy = fixID) ∧
    fixesOf ledger.tasks id = fixes

theorem fixesOf_map {rows : List TaskRow} {change : TaskRow → TaskRow}
    (kept : ∀ row ∈ rows, (change row).id = row.id ∧
      (change row).metadata.fixOf = row.metadata.fixOf) :
    fixesOf (rows.map change) id = fixesOf rows id := by
  simp only [fixesOf, List.filter_map, List.map_map]
  have same : (rows.filter fun row => (change row).metadata.fixOf = id) =
      rows.filter fun row => row.metadata.fixOf = id :=
    List.filter_congr fun row member => by simp [(kept row member).2]
  exact same ▸ List.map_congr_left fun row member => (kept row (List.mem_of_mem_filter member)).1

theorem ClosedBy.edits (closed : ClosedBy id fixID fixes ledger)
    (edits : Edits recorded completes ledger next) : ClosedBy id fixID fixes next := by
  obtain ⟨⟨row, found, isFixed⟩, same⟩ := closed
  obtain ⟨after, isAfter, edit⟩ := edits.task? found
  refine ⟨⟨after, isAfter, edit.fixedBy.trans isFixed⟩, ?_⟩
  obtain ⟨change, isTasks, edited⟩ := edits
  rw [isTasks, fixesOf_map fun row member => ⟨(edited row member).id, (edited row member).fixOf⟩]
  exact same

theorem ClosedBy.repaired {fixID : String} {fixes : List String} (notEmpty : fixID ≠ "")
    (closed : ClosedBy id fixID fixes ledger) (repaired : Repaired ledger next fix task root) :
    ClosedBy id fixID fixes next := by
  obtain ⟨⟨row, found, isFixed⟩, same⟩ := closed
  -- The repaired task is open, so it is another one.
  have different : task.id ≠ id := by
    rintro rfl
    obtain rfl := mem_unique repaired.found found
    exact notEmpty (isFixed.symm.trans repaired.unfixed)
  have unchanged : closingRow task fix.id row = row := by
    refine if_neg ?_
    rintro ⟨_, isTask⟩
    exact different (isTask.symm.trans (task?_id found))
  refine ⟨⟨row, ?_, isFixed⟩, ?_⟩
  · rw [repaired.task?_old found, unchanged]
  · have kept := fun row (_ : row ∈ ledger.tasks ++ [fix]) =>
      And.intro (closingRow_links task fix.id row).1 (closingRow_links task fix.id row).2.2.2.1
    rw [repaired.tasks, fixesOf_map kept, ← same]
    simp [fixesOf, repaired.fixOf, different]

theorem reachable_closedBy (notEmpty : fixID ≠ "") (closed : ClosedBy id fixID fixes start)
    (reachable : Reachable (stepLedger naming) guard start ledger) :
    ClosedBy id fixID fixes ledger := by
  refine reachable.invariant closed ?_
  intro ledger action next kept _ taken
  rcases stepLedger_cases taken with edits | ⟨fix, task, root, repaired⟩
  · exact kept.edits edits
  · exact kept.repaired notEmpty repaired

end

/-- From a ledger without fixes, whatever the operations and wherever they are
cut off: a task closed with a fix keeps it, is not in progress and gets no
further fix; its fix is in its story, names it and is filed under the root of
its chain; and no other task is closed with the same fix. -/
theorem closed_task_stays_closed (naming : RepairNaming) {start ledger later : TaskLedger}
    (unrepaired : Unrepaired start) (reached : Reachable (stepLedger naming) anyStep start ledger)
    (continued : Reachable (stepLedger naming) anyStep ledger later) {id fixID : String}
    {task : TaskRow} (found : ledger.task? id = some task)
    (closed : task.metadata.fixedBy = fixID) (notEmpty : fixID ≠ "") :
    (∃ row, later.task? id = some row ∧ row.metadata.fixedBy = fixID ∧ row.status ≠ .inProgress ∧
        ∃ fix, later.task? fixID = some fix ∧ fix.storyID = row.storyID ∧ fix.metadata.fixOf = id ∧
          ∃ root, fix.metadata.repairOf = some root ∧ ChainRoot later id root) ∧
      fixesOf later.tasks id = fixesOf ledger.tasks id ∧
      ∀ other row, later.task? other = some row → row.metadata.fixedBy = fixID → other = id := by
  have linked := reachable_linked (reachable_linked unrepaired.linked reached) continued
  obtain ⟨⟨row, isRow, isFixed⟩, fixes⟩ :=
    reachable_closedBy notEmpty ⟨⟨task, found, closed⟩, rfl⟩ continued
  have member := task?_mem isRow
  obtain ⟨named, idle, fix, isFix, names, sameStory⟩ :=
    linked.closed row member (isFixed.symm ▸ notEmpty)
  rw [isFixed] at isFix
  rw [← names] at named
  rw [task?_id isRow] at names
  obtain ⟨root, filed, _, chain⟩ := linked.chained fix (task?_mem isFix) named
  refine ⟨⟨row, isRow, isFixed, idle, fix, isFix, sameStory, names, root, filed, names ▸ chain⟩,
    fixes, ?_⟩
  intro other otherRow isOther otherFixed
  obtain ⟨_, _, otherFix, isOtherFix, otherNames, _⟩ :=
    linked.closed otherRow (task?_mem isOther) (otherFixed.symm ▸ notEmpty)
  rw [otherFixed, isFix] at isOtherFix
  cases isOtherFix
  rw [← task?_id isOther, ← otherNames, names]

def singleTask : TaskLedger where
  tasks := [{ id := "A", storyID := "S" }]
  stories := [{ id := "S", tasks := ["A"] }]
  tasksUnique := by decide
  storiesUnique := by decide
  stepsUnique := by decide

def failsAndIsRepaired : List LedgerAction :=
  [.start ["S"] "A", .recordFailure { id := "v1", runID := "A" } 1, .repair "A" "v1" "broken" 1]

theorem closed_task_stays_closed_singleTask : ∃ ledger later row fix,
      Reachable (stepLedger spelledNaming) anyStep singleTask ledger ∧
        Reachable (stepLedger spelledNaming) anyStep ledger later ∧
        later.task? "A" = some row ∧ row.metadata.fixedBy = "repair-A.v1" ∧
        later.task? "repair-A.v1" = some fix ∧ fix.metadata.fixOf = "A" ∧
        fix.status = .inProgress := by
  have runs : ((run (stepLedger spelledNaming) anyStep singleTask failsAndIsRepaired).any
      fun ledger => (ledger.task? "A").any (fun task => task.metadata.fixedBy = "repair-A.v1") &&
        (run (stepLedger spelledNaming) anyStep ledger
          [.reconcile "A", .start ["S"] "repair-A.v1"]).any fun later =>
            (later.task? "repair-A.v1").any fun fix => fix.status = .inProgress) = true := by
    decide +kernel
  obtain ⟨ledger, isLedger, holds⟩ := (any_eq_true _ _).mp runs
  obtain ⟨closed, continues⟩ := Bool.and_eq_true_iff.mp holds
  obtain ⟨task, found, isFixed⟩ := (any_eq_true _ _).mp closed
  obtain ⟨later, isLater, started⟩ := (any_eq_true _ _).mp continues
  obtain ⟨started, isStarted, inProgress⟩ := (any_eq_true _ _).mp started
  have reached := reachable_of_run isLedger
  have continued := reachable_of_run isLater
  obtain ⟨⟨row, isRow, kept, _, fix, isFix, _, names, _⟩, _⟩ :=
    closed_task_stays_closed spelledNaming (by decide) reached continued found
      (of_decide_eq_true isFixed) (by decide)
  obtain rfl := mem_unique isStarted isFix
  exact ⟨ledger, later, row, _, reached, continued, isRow, kept, isFix, names,
    of_decide_eq_true inProgress⟩

end OpenExec.TaskQueue
