import OpenExec.ReviewedRows

/-!
# A reviewed import extends the ledger

An import that commits leaves every row that was there as it was, adds the first listing
of every other row, and can be repeated.
-/

namespace OpenExec.ReviewedImport

open KeyedRows InsertOrCompare Importer

variable {κ : Type} {fresh : String → κ} {rows : ReviewedRows} {tables written : Tables κ}

theorem importRows_ok_iff :
    importRows fresh rows tables = .ok written ↔
      danglingGoal rows tables.goals = none ∧
        ∃ goals stories tasks, (goalImporter fresh).insertAll rows.goals tables.goals = .ok goals ∧
          (storyImporter fresh goals).insertAll rows.stories tables.stories = .ok stories ∧
          (taskImporter fresh stories).insertAll rows.tasks tables.tasks = .ok tasks ∧
          written = { tables with goals, stories, tasks } := by
  unfold importRows
  cases danglingGoal rows tables.goals with
  | some refusal => simp [bind, Except.bind, throw, throwThe, MonadExceptOf.throw]
  | none =>
    cases goalsAre : (goalImporter fresh).insertAll rows.goals tables.goals with
    | error refusal => simp [bind, Except.bind]
    | ok goals =>
      cases storiesAre : (storyImporter fresh goals).insertAll rows.stories tables.stories with
      | error refusal => simp [bind, Except.bind, storiesAre]
      | ok stories =>
        cases tasksAre : (taskImporter fresh stories).insertAll rows.tasks tables.tasks with
        | error refusal => simp [bind, Except.bind, storiesAre, tasksAre]
        | ok tasks =>
          simp [bind, Except.bind, pure, Except.pure, storiesAre, tasksAre, eq_comm]

/-- Every row of the earlier tables is there, in every column. -/
structure Conserves (before after : Tables κ) : Prop where
  goals : ∀ {id row}, before.goals.get? id = some row → after.goals.get? id = some row
  stories : ∀ {id row}, before.stories.get? id = some row → after.stories.get? id = some row
  tasks : ∀ {id row}, before.tasks.get? id = some row → after.tasks.get? id = some row
  steps : ∀ {id row}, before.steps.get? id = some row → after.steps.get? id = some row
  runs : after.runs = before.runs

structure Holds (rows : ReviewedRows) (tables : Tables κ) : Prop where
  goals : ∀ goal ∈ rows.goals, ∃ row,
    tables.goals.get? goal.id = some row ∧ goalMatches row goal = true
  stories : ∀ story ∈ rows.stories, ∃ row,
    tables.stories.get? story.id = some row ∧ storyMatches row story = true
  tasks : ∀ task ∈ rows.tasks, ∃ row,
    tables.tasks.get? task.id = some row ∧ taskMatches row task = true ∧
      (task.metadata.Encodable → row.metadata.mode? = .ok task.metadata.mode)

/-- The rows that were not there are the first listings, and nothing else. -/
structure AddsListed (fresh : String → κ) (rows : ReviewedRows) (before after : Tables κ) :
    Prop where
  goals : ∀ id, before.goals.get? id = none →
    after.goals.get? id = (row? Release.Goal.id rows.goals id).map (goalColumns fresh)
  stories : ∀ id, before.stories.get? id = none →
    after.stories.get? id = (row? Release.Story.id rows.stories id).map (storyColumns fresh)
  tasks : ∀ id, before.tasks.get? id = none →
    after.tasks.get? id = (row? ReviewedTask.id rows.tasks id).map (taskColumns fresh)

theorem getD_reference (text : String) :
    (if text = "" then none else some text).getD "" = text := by
  split
  · next empty => exact empty.symm
  · rfl

theorem goalMatches_goalColumns (goal : Release.Goal) :
    goalMatches (goalColumns fresh goal) goal := by
  simp [goalMatches, goalColumns, textMatches]

theorem storyMatches_storyColumns (story : Release.Story) :
    storyMatches (storyColumns fresh story) story := by
  simp [storyMatches, storyColumns, getD_reference, textMatches, numberMatches, ListColumn.matches]

theorem taskMatches_taskColumns (task : ReviewedTask) :
    taskMatches (taskColumns fresh task) task := by
  simp [taskMatches, taskColumns, textMatches, numberMatches, ListColumn.matches]

theorem mode?_column {metadata : ReviewedMetadata} (encodable : metadata.Encodable) :
    metadata.column.mode? = .ok metadata.mode := by
  cases metadata with
  | nil => rfl
  | object metadata => rfl
  | unencodable mode => exact encodable.elim

theorem taskCompare_eq_none_iff {stories : Table (@StoryColumns.id κ)} {row : TaskColumns κ}
    {task : ReviewedTask} : (taskImporter fresh stories).compare row task = none ↔
      row.metadata.mode? = .ok task.metadata.mode ∧ taskMatches row task := by
  simp only [taskImporter]
  cases row.metadata.mode? with
  | error refusal => simp
  | ok mode =>
    by_cases same : mode = task.metadata.mode
    · simp [same]
    · simp [same]

section

variable (imported : importRows fresh rows tables = .ok written)
include imported

theorem importRows_conserves : Conserves tables written := by
  obtain ⟨_, goals, stories, tasks, goalsAre, storiesAre, tasksAre, rfl⟩ :=
    importRows_ok_iff.mp imported
  exact ⟨insertAll_keeps goalsAre, insertAll_keeps storiesAre, insertAll_keeps tasksAre, id, rfl⟩

theorem importRows_addsListed : AddsListed fresh rows tables written := by
  obtain ⟨_, goals, stories, tasks, goalsAre, storiesAre, tasksAre, rfl⟩ :=
    importRows_ok_iff.mp imported
  refine ⟨fun id absent => ?_, fun id absent => ?_, fun id absent => ?_⟩
  · rw [get?_insertAll goalsAre, absent]
    rfl
  · rw [get?_insertAll storiesAre, absent]
    rfl
  · rw [get?_insertAll tasksAre, absent]
    rfl

theorem importRows_holds : Holds rows written := by
  obtain ⟨_, goals, stories, tasks, goalsAre, storiesAre, tasksAre, rfl⟩ :=
    importRows_ok_iff.mp imported
  refine ⟨fun goal listed => ?_, fun story listed => ?_, fun task listed => ?_⟩
  · obtain ⟨row, found, agrees | rfl⟩ := insertAll_listed goalsAre listed
    · exact ⟨row, found, by simpa [goalImporter] using agrees⟩
    · exact ⟨_, found, goalMatches_goalColumns goal⟩
  · obtain ⟨row, found, agrees | rfl⟩ := insertAll_listed storiesAre listed
    · exact ⟨row, found, by simpa [storyImporter] using agrees⟩
    · exact ⟨_, found, storyMatches_storyColumns story⟩
  · obtain ⟨row, found, agrees | rfl⟩ := insertAll_listed tasksAre listed
    · obtain ⟨sameMode, same⟩ := taskCompare_eq_none_iff.mp agrees
      exact ⟨row, found, same, fun _ => sameMode⟩
    · exact ⟨_, found, taskMatches_taskColumns task, mode?_column⟩

end

theorem importRows_again (cited : danglingGoal rows tables.goals = none) (holds : Holds rows tables)
    (encodable : ∀ task ∈ rows.tasks, task.metadata.Encodable) :
    importRows fresh rows tables = .ok tables := by
  refine importRows_ok_iff.mpr ⟨cited, tables.goals, tables.stories, tables.tasks, ?_, ?_, ?_, rfl⟩
  · refine insertAll_again fun goal listed => ?_
    obtain ⟨row, found, same⟩ := holds.goals goal listed
    exact ⟨row, found, by simp [goalImporter, same]⟩
  · refine insertAll_again fun story listed => ?_
    obtain ⟨row, found, same⟩ := holds.stories story listed
    exact ⟨row, found, by simp [storyImporter, same]⟩
  · refine insertAll_again fun task listed => ?_
    obtain ⟨row, found, same, sameMode⟩ := holds.tasks task listed
    exact ⟨row, found, taskCompare_eq_none_iff.mpr ⟨sameMode (encodable task listed), same⟩⟩

theorem danglingGoal_conserved {after : Tables κ} (conserves : Conserves tables after)
    (cited : danglingGoal rows tables.goals = none) : danglingGoal rows after.goals = none := by
  rw [danglingGoal, Option.map_eq_none_iff, List.find?_eq_none] at cited ⊢
  intro story listed dangles
  simp only [decide_eq_true_eq] at dangles
  obtain ⟨cites, unlisted, absent⟩ := dangles
  refine cited story listed ?_
  simp only [decide_eq_true_eq]
  refine ⟨cites, unlisted, ?_⟩
  cases found : tables.goals.get? story.goalID with
  | none => rfl
  | some row => exact absurd ((conserves.goals found).symm.trans absent) (by simp)

section

variable {answers : ImportAnswers} {request : ImportRequest}

theorem importReviewedPlan_cases (unused : tables.steps.get? request.stepID = none) :
    (∃ error, importReviewedPlan fresh answers request rows false tables =
        ⟨tables, .refused error⟩) ∨
      request.runID ∈ tables.runs ∧ answers.interrupted = false ∧
        ∃ written, importRows fresh rows tables = .ok written ∧
          importReviewedPlan fresh answers request rows false tables =
            { tables := { written with steps := written.steps.put request.step }
              ended := if answers.refreshes then .done else .unrefreshed } := by
  unfold importReviewedPlan
  cases interrupted : answers.interrupted with
  | true => exact .inl ⟨_, rfl⟩
  | false =>
    simp only [Bool.false_eq_true, if_false, unused]
    cases imported : importRows fresh rows tables with
    | error refusal => exact .inl ⟨_, rfl⟩
    | ok written =>
      simp only
      by_cases known : request.runID ∈ tables.runs
      · rw [if_neg (not_not.mpr known)]
        exact .inr ⟨known, trivial, written, rfl, rfl⟩
      · rw [if_pos known]
        exact .inl ⟨_, rfl⟩

theorem validatePlanIdentities_done_iff (uninterrupted : answers.interrupted = false) :
    (validatePlanIdentities fresh answers rows tables).ended = .done ↔
      ∃ written, importRows fresh rows tables = .ok written := by
  unfold validatePlanIdentities importReviewedPlan
  simp only [uninterrupted, Bool.false_eq_true, if_false, if_true]
  cases importRows fresh rows tables with
  | error refusal | ok written => simp

theorem validatePlanIdentities_tables :
    (validatePlanIdentities fresh answers rows tables).tables = tables := by
  unfold validatePlanIdentities importReviewedPlan
  simp only [if_true]
  split
  · rfl
  · split <;> rfl

theorem conserves_putStep (unused : tables.steps.get? request.stepID = none) :
    Conserves tables { tables with steps := tables.steps.put request.step } := by
  refine ⟨id, id, id, fun {id row} found => ?_, rfl⟩
  rw [Table.get?_put]
  split
  · next named =>
    have absent : tables.steps.get? id = none := named ▸ unused
    exact absurd (absent.symm.trans found) (by simp)
  · exact found

theorem Conserves.trans {first second third : Tables κ} (earlier : Conserves first second)
    (later : Conserves second third) : Conserves first third :=
  ⟨fun found => later.goals (earlier.goals found), fun found => later.stories
    (earlier.stories found),
    fun found => later.tasks (earlier.tasks found), fun found => later.steps (earlier.steps found),
    later.runs.trans earlier.runs⟩

end

/-- For a request whose step has no row yet: an import that reaches its commit
leaves every earlier row as it was, adds the first listing of each absent row and
nothing else, and holds every listed row; the same rows are then imported under
any other free step of the run without touching a goal, a story or a task.
Without a commit, and in every validation, nothing changes, and the validation
accepts exactly what an import for a known run accepts. -/
theorem reviewed_import_extends (fresh : String → κ) (answers : ImportAnswers)
    (request : ImportRequest) (rows : ReviewedRows) (tables : Tables κ)
    (unused : tables.steps.get? request.stepID = none) :
    (∀ outcome, importReviewedPlan fresh answers request rows false tables = outcome →
      ((outcome.ended = .done ∨ outcome.ended = .unrefreshed) →
        Conserves tables outcome.tables ∧ AddsListed fresh rows tables outcome.tables ∧
        Holds rows outcome.tables ∧
        ((∀ task ∈ rows.tasks, task.metadata.Encodable) →
          ∀ (later : String → κ) (again : ImportRequest),
          again.runID = request.runID → outcome.tables.steps.get? again.stepID = none →
          ∃ repeated, importReviewedPlan later {} again rows false outcome.tables = repeated ∧
            repeated.ended = .done ∧ repeated.tables.goals = outcome.tables.goals ∧
            repeated.tables.stories = outcome.tables.stories ∧
            repeated.tables.tasks = outcome.tables.tasks)) ∧
      ((∃ error, outcome.ended = .refused error) → outcome.tables = tables)) ∧
    (validatePlanIdentities fresh answers rows tables).tables = tables ∧
    (request.runID ∈ tables.runs → ((validatePlanIdentities fresh {} rows tables).ended = .done ↔
        (importReviewedPlan fresh {} request rows false tables).ended = .done)) := by
  refine ⟨?_, validatePlanIdentities_tables, fun known => ?_⟩
  · rintro outcome rfl
    rcases @importReviewedPlan_cases _ fresh rows tables answers request unused with
      ⟨error, refused⟩ | ⟨known, uninterrupted, written, imported, committed⟩
    · rw [refused]
      exact ⟨fun reached => by simp at reached, fun _ => rfl⟩
    · rw [committed]
      have conserves := importRows_conserves imported
      have holds := importRows_holds imported
      have adds := importRows_addsListed imported
      have freeStep : written.steps.get? request.stepID = none := by
        obtain ⟨_, _, _, _, _, _, _, rfl⟩ := importRows_ok_iff.mp imported
        exact unused
      have added := conserves_putStep freeStep
      refine ⟨fun _ => ⟨conserves.trans added, { adds with },
        { holds with }, ?_⟩, fun ⟨error, isError⟩ => ?_⟩
      · intro encodable later again sameRun free
        have cited := danglingGoal_conserved (conserves.trans added)
          (importRows_ok_iff.mp imported).1
        have repeated := @importRows_again _ later rows
          { written with steps := written.steps.put request.step } cited
          { holds with } encodable
        refine ⟨_, rfl, ?_⟩
        have knownAgain : again.runID ∈ written.runs := by
          rw [sameRun, conserves.runs]
          exact known
        unfold importReviewedPlan
        simp only [Bool.false_eq_true, if_false, free, repeated, knownAgain, not_true_eq_false,
          if_true, and_self]
      · exact absurd isError (by simp only; split <;> simp)
  · rw [validatePlanIdentities_done_iff rfl]
    rcases @importReviewedPlan_cases _ fresh rows tables {} request unused with
      ⟨error, refused⟩ | ⟨_, _, written, imported, committed⟩
    · rw [refused]
      constructor
      · rintro ⟨written, imported⟩
        unfold importReviewedPlan at refused
        simp [unused, imported, known] at refused
      · intro done
        cases done
    · rw [committed]
      exact ⟨fun _ => rfl, fun _ => ⟨written, imported⟩⟩

def billingRows : ReviewedRows where
  goals := [{ id := "G-001", title := "Billing" }]
  stories := [{ id := "US-001", goalID := "G-001", tasks := ["T-US-001-001"] }]
  tasks := [{ id := "T-US-001-001", storyID := "US-001" }]

def billingRequest : ImportRequest := ⟨"import-1", "run-1", "digest", "receipt"⟩

def plannedRun : Tables Unit := { runs := ["run-1"] }

def billedRun : Tables Unit :=
  (importReviewedPlan (fun _ => ()) {} billingRequest billingRows false plannedRun).tables

/-- A later plan: the goal again, and another story. -/
def refundRows : ReviewedRows :=
  { billingRows with stories := [{ id := "US-002", goalID := "G-001" }], tasks := [] }

def refundRequest : ImportRequest := ⟨"import-2", "run-1", "later", "receipt"⟩

theorem reviewed_import_extends_billing :
    ∃ outcome, importReviewedPlan (fun _ => ()) {} refundRequest refundRows false billedRun =
        outcome ∧ outcome.ended = .done ∧ Conserves billedRun outcome.tables ∧
      Holds refundRows outcome.tables := by
  have done : (importReviewedPlan (fun _ => ()) {} refundRequest refundRows false
      billedRun).ended = .done := by
    decide +kernel
  obtain ⟨imports, _⟩ := reviewed_import_extends (fun _ => ()) {} refundRequest refundRows
    billedRun (by decide +kernel)
  obtain ⟨conserves, _, holds, _⟩ := (imports _ rfl).1 (.inl done)
  exact ⟨_, rfl, done, conserves, holds⟩

/-- An import whose refresh fails returns an error and stays; a receipt that is
there is answered without looking at the rows; and a task whose metadata cannot
be encoded is not imported twice. -/
theorem reviewed_import_exceptions : (∃ outcome : Outcome Unit,
      importReviewedPlan (fun _ => ()) { refreshes := false } billingRequest billingRows false
        plannedRun = outcome ∧ outcome.ended ≠ .done ∧ outcome.tables ≠ plannedRun) ∧
    (∃ tables : Tables Unit,
      (importReviewedPlan (fun _ => ()) {} billingRequest billingRows false tables).ended = .done ∧
        ¬ Holds billingRows
          (importReviewedPlan (fun _ => ()) {} billingRequest billingRows false tables).tables) ∧
    ∃ (tables : Tables Unit) (rows : ReviewedRows) (again : ImportRequest) (error : ImportError),
      (importReviewedPlan (fun _ => ()) {} billingRequest rows false tables).ended = .done ∧
        (importReviewedPlan (fun _ => ()) {} again rows false
          (importReviewedPlan (fun _ => ()) {} billingRequest rows false tables).tables).ended =
            .refused error := by
  refine ⟨⟨_, rfl, by decide +kernel, by decide +kernel⟩, ?_, ?_⟩
  · refine ⟨{ plannedRun with steps := plannedRun.steps.put billingRequest.step },
      by decide +kernel, fun holds => ?_⟩
    obtain ⟨row, found, _⟩ := holds.goals { id := "G-001", title := "Billing" }
      (by decide)
    have absent : (importReviewedPlan (fun _ => ()) {} billingRequest billingRows false
        { plannedRun with steps := plannedRun.steps.put billingRequest.step }).tables.goals.get?
          "G-001" = none := by
      decide +kernel
    exact absurd (absent.symm.trans found) (by simp)
  · exact ⟨plannedRun,
      { billingRows with
        tasks := [{ id := "T-US-001-001", storyID := "US-001", metadata := .unencodable none }] },
      { billingRequest with stepID := "import-2" }, .invalidMetadata, by decide +kernel,
      by decide +kernel⟩

end OpenExec.ReviewedImport
