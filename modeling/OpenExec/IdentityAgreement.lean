import OpenExec.ImportConservation

/-!
# The two identity comparisons agree

`reviewedIdentityConflicts` compares a plan with the loaded cache, the importer compares
the same rows with the stored columns.
-/

namespace OpenExec.ReviewedImport

open KeyedRows Planner List Option

/-- `json.Unmarshal` into a list of strings; what it refuses is read as empty. -/
def ListColumn.decode : ListColumn → List String
  | .strings items => items
  | .other _ decoded => decoded
  | .sqlNull | .null | .malformed => []

def MetadataColumn.decode : MetadataColumn → Option Release.PlanMetadata
  | .sqlNull => none
  | .null | .undecodable => some {}
  | .object metadata => some metadata.toPlanMetadata

def storyTypeOf (text : String) : Release.StoryType :=
  if text = "feature" then .feature
  else if text = "bugfix" then .bugfix
  else if text = "chore" then .chore
  else if text = "refactor" then .refactor
  else .other text

section

variable {κ : Type}

/-- `ListGoals` does not read a NULL text. -/
def loadGoal (row : GoalColumns κ) : Option Release.Goal := do
  return {
    id := row.id
    title := row.title
    description := ← row.description
    successCriteria := ← row.successCriteria
    verificationMethod := ← row.verificationMethod }

def loadStory (row : StoryColumns κ) : Option Release.Story := do
  return {
    id := row.id
    goalID := row.goalID.getD ""
    title := row.title
    description := ← row.description
    acceptanceCriteria := row.acceptanceCriteria.decode
    verificationScript := ← row.verificationScript
    contract := ← row.contract
    tasks := row.tasks.decode
    dependsOn := row.dependsOn.decode
    storyType := storyTypeOf (← row.storyType)
    priority := ← row.priority }

def loadTask (row : TaskColumns κ) : Option Release.Task := do
  return {
    id := row.id
    storyID := row.storyID
    title := row.title
    description := ← row.description
    verificationScript := ← row.verificationScript
    dependsOn := row.dependsOn.decode
    priority := ← row.priority
    maxAttempts := ← row.maxAttempts
    metadata := ← row.metadata.decode }

variable (tables : Tables κ) (id : String)

def loadedGoal? : Option Release.Goal := (tables.goals.get? id).bind loadGoal

def loadedStory? : Option Release.Story := (tables.stories.get? id).bind loadStory

def loadedTask? : Option Release.Task := (tables.tasks.get? id).bind loadTask

end

section

variable (goal? : String → Option Release.Goal) (story? : String → Option Release.Story)
  (task? : String → Option Release.Task)

def cachedVerdicts (plan : ProjectPlan) : List (String × Bool) :=
  verdicts Release.Goal.id goal? reviewedGoalEqual (reviewedPlanRows plan).goals ++
    verdicts Release.Story.id story? reviewedStoryEqual (reviewedPlanRows plan).stories ++
    verdicts Release.Task.id task? reviewedTaskEqual (reviewedPlanRows plan).tasks

/-- `reviewedIdentityConflicts` over a cache that answers as given. -/
def cachedConflicts (plan : ProjectPlan) (id : String) : Bool :=
  ((row? Prod.fst (cachedVerdicts goal? story? task? plan).reverse id).map Prod.snd).getD false

variable {goal? story? task?} {plan : ProjectPlan} {id : String} {verdict : Bool}

theorem cachedConflicts_of_mem (unique : (comparedIDs plan).Nodup)
    (assigned : (id, verdict) ∈ cachedVerdicts goal? story? task? plan) :
    cachedConflicts goal? story? task? plan id = verdict := by
  have keysUnique : ((cachedVerdicts goal? story? task? plan).reverse.map Prod.fst).Nodup := by
    rw [map_reverse, nodup_reverse]
    refine ((reviewedPlanRows_ids_perm plan).nodup_iff.mpr unique).sublist ?_
    simp only [cachedVerdicts, map_append]
    exact ((verdicts_keys_sublist _ _ _ _).append (verdicts_keys_sublist _ _ _ _)).append
      (verdicts_keys_sublist _ _ _ _)
  have found := row?_of_mem keysUnique (mem_reverse.mpr assigned)
  rw [cachedConflicts, found]
  rfl

end

/-- A list of strings, JSON null or SQL NULL. -/
def ListColumn.Written : ListColumn → Prop
  | .other _ _ | .malformed => False
  | _ => True

/-- A JSON object or JSON null. -/
def MetadataColumn.Written : MetadataColumn → Prop
  | .sqlNull | .undecodable => False
  | _ => True

section

variable {κ : Type}

structure GoalColumns.Written (row : GoalColumns κ) : Prop where
  description : row.description.isSome
  successCriteria : row.successCriteria.isSome
  verificationMethod : row.verificationMethod.isSome

structure StoryColumns.Written (row : StoryColumns κ) : Prop where
  description : row.description.isSome
  acceptanceCriteria : row.acceptanceCriteria.Written
  verificationScript : row.verificationScript.isSome
  contract : row.contract.isSome
  dependsOn : row.dependsOn.Written
  storyType : row.storyType.isSome
  priority : row.priority.isSome
  tasks : row.tasks.Written

structure TaskColumns.Written (row : TaskColumns κ) : Prop where
  description : row.description.isSome
  verificationScript : row.verificationScript.isSome
  dependsOn : row.dependsOn.Written
  priority : row.priority.isSome
  maxAttempts : row.maxAttempts.isSome
  metadata : row.metadata.Written

end

section

variable {κ : Type} {fresh : String → κ}

theorem ListColumn.matches_iff {column : ListColumn} {listed : List String}
    (written : column.Written) : column.matches listed = true ↔ column.decode = listed := by
  cases column with
  | sqlNull | null => simp [ListColumn.matches, ListColumn.decode, eq_comm]
  | strings items => simp [ListColumn.matches, ListColumn.decode]
  | other text decoded | malformed => exact written.elim

theorem storyTypeOf_eq_feature_iff {text : String} :
    storyTypeOf text = .feature ↔ text = "feature" := by
  unfold storyTypeOf
  split
  · next isFeature => simp [isFeature]
  next different =>
  refine ⟨fun same => ?_, fun same => absurd same different⟩
  split at same
  · cases same
  · split at same
    · cases same
    · split at same <;> cases same

theorem goal_agrees {row : GoalColumns κ} (written : row.Written) (goal : Release.Goal) :
    ∃ old, loadGoal row = some old ∧
      (reviewedGoalEqual old goal = true ↔ (goalImporter fresh).compare row goal = none) := by
  obtain ⟨description, isDescription⟩ := isSome_iff_exists.mp written.description
  obtain ⟨criteria, isCriteria⟩ := isSome_iff_exists.mp written.successCriteria
  obtain ⟨method, isMethod⟩ := isSome_iff_exists.mp written.verificationMethod
  refine ⟨⟨row.id, row.title, description, criteria, method⟩, ?_, ?_⟩
  · simp [loadGoal, isDescription, isCriteria, isMethod]
  · simp [reviewedGoalEqual, goalImporter, goalMatches, textMatches, isDescription, isCriteria,
      isMethod, and_assoc]

theorem story_agrees {row : StoryColumns κ} (written : row.Written)
    {goals : Table (@GoalColumns.id κ)} {story : Release.Story}
      (feature : story.storyType = .feature) :
    ∃ old, loadStory row = some old ∧ (reviewedStoryEqual old story = true ↔
        (storyImporter fresh goals).compare row story = none) := by
  obtain ⟨description, isDescription⟩ := isSome_iff_exists.mp written.description
  obtain ⟨script, isScript⟩ := isSome_iff_exists.mp written.verificationScript
  obtain ⟨contract, isContract⟩ := isSome_iff_exists.mp written.contract
  obtain ⟨type, isType⟩ := isSome_iff_exists.mp written.storyType
  obtain ⟨priority, isPriority⟩ := isSome_iff_exists.mp written.priority
  refine ⟨{ id := row.id, goalID := row.goalID.getD "", title := row.title, description
            acceptanceCriteria := row.acceptanceCriteria.decode, verificationScript := script
            contract, tasks := row.tasks.decode, dependsOn := row.dependsOn.decode
            storyType := storyTypeOf type, priority }, ?_, ?_⟩
  · simp [loadStory, isDescription, isScript, isContract, isType, isPriority]
  · simp [reviewedStoryEqual, storyImporter, storyMatches, textMatches, numberMatches,
      storyTypeText,
      feature, storyTypeOf_eq_feature_iff, ListColumn.matches_iff written.acceptanceCriteria,
      ListColumn.matches_iff written.dependsOn, ListColumn.matches_iff written.tasks,
      isDescription, isScript, isContract, isType, isPriority, and_assoc]

def listedTask (task : Release.Task) : ReviewedTask where
  id := task.id
  storyID := task.storyID
  title := task.title
  description := task.description
  verificationScript := task.verificationScript
  dependsOn := task.dependsOn
  priority := task.priority
  maxAttempts := task.maxAttempts
  metadata := if task.metadata = {} then .nil else .object { task.metadata with }

theorem listedTask_mode (task : Release.Task) :
    (listedTask task).metadata.mode = reviewedMode task := by
  unfold listedTask reviewedMode
  split
  · next empty => simp [empty, ReviewedMetadata.mode]
  · rfl

theorem MetadataColumn.Written.mode {column : MetadataColumn} (written : column.Written) :
    ∃ metadata, column.decode = some metadata ∧
      column.mode? = .ok (metadata.mode.getD taskModeAFK) := by
  cases column with
  | sqlNull | undecodable => exact written.elim
  | null => exact ⟨{}, rfl, rfl⟩
  | object metadata => exact ⟨metadata.toPlanMetadata, rfl, rfl⟩

theorem task_agrees {row : TaskColumns κ} (written : row.Written)
    {stories : Table (@StoryColumns.id κ)} (task : Release.Task) : ∃ old, loadTask row = some old ∧
      (reviewedTaskEqual old task = true ↔
        (taskImporter fresh stories).compare row (listedTask task) = none) := by
  obtain ⟨description, isDescription⟩ := isSome_iff_exists.mp written.description
  obtain ⟨script, isScript⟩ := isSome_iff_exists.mp written.verificationScript
  obtain ⟨priority, isPriority⟩ := isSome_iff_exists.mp written.priority
  obtain ⟨attempts, isAttempts⟩ := isSome_iff_exists.mp written.maxAttempts
  obtain ⟨metadata, isMetadata, isMode⟩ := written.metadata.mode
  refine ⟨{ id := row.id, storyID := row.storyID, title := row.title, description
            verificationScript := script, dependsOn := row.dependsOn.decode, priority
            maxAttempts := attempts, metadata }, ?_, ?_⟩
  · simp [loadTask, isDescription, isScript, isPriority, isAttempts, isMetadata]
  · rw [taskCompare_eq_none_iff, isMode, listedTask_mode, and_comm]
    simp [reviewedTaskEqual, reviewedMode, taskMatches, listedTask, textMatches, numberMatches,
      ListColumn.matches_iff written.dependsOn, isDescription, isScript, isPriority, isAttempts,
      and_assoc]
    exact fun _ _ _ _ _ _ _ => decide_eq_true_iff

end

structure Tables.Written {κ : Type} (tables : Tables κ) : Prop where
  goals : ∀ row ∈ tables.goals.rows, row.Written
  stories : ∀ row ∈ tables.stories.rows, row.Written
  tasks : ∀ row ∈ tables.tasks.rows, row.Written

section

variable {κ : Type} {tables : Tables κ} {plan : ProjectPlan}

def loadedConflicts (tables : Tables κ) (plan : ProjectPlan) (id : String) : Bool :=
  cachedConflicts (loadedGoal? tables) (loadedStory? tables) (loadedTask? tables) plan id

theorem reviewedPlanRows_feature {story : Release.Story}
    (listed : story ∈ (reviewedPlanRows plan).stories) : story.storyType = .feature := by
  obtain ⟨entry, _, rfl⟩ := mem_map.mp listed
  rfl

/-- For rows this program writes and a plan whose compared rows have distinct
identifiers, the conflict map reports no conflict for a persisted row exactly
when the importer takes the row as identical. -/
theorem identity_comparisons_agree (fresh : String → κ) (goals : Table (@GoalColumns.id κ))
    (stories : Table (@StoryColumns.id κ)) (written : tables.Written)
    (unique : (comparedIDs plan).Nodup) :
    (∀ goal ∈ (reviewedPlanRows plan).goals, ∀ row, tables.goals.get? goal.id = some row →
      (loadedConflicts tables plan goal.id = false ↔
        (goalImporter fresh).compare row goal = none)) ∧
    (∀ story ∈ (reviewedPlanRows plan).stories, ∀ row, tables.stories.get? story.id = some row →
      (loadedConflicts tables plan story.id = false ↔
        (storyImporter fresh goals).compare row story = none)) ∧
    ∀ task ∈ (reviewedPlanRows plan).tasks, ∀ row, tables.tasks.get? task.id = some row →
      (loadedConflicts tables plan task.id = false ↔
        (taskImporter fresh stories).compare row (listedTask task) = none) := by
  have settles {id : String} {equal : Bool} {agreed : Prop} (agrees : equal = true ↔ agreed)
      (assigned : (id, !equal) ∈ cachedVerdicts (loadedGoal? tables) (loadedStory? tables)
        (loadedTask? tables) plan) : loadedConflicts tables plan id = false ↔ agreed := by
    rw [loadedConflicts, cachedConflicts_of_mem unique assigned, ← agrees, Bool.not_eq_false']
  refine ⟨fun goal listed row found => ?_, fun story listed row found => ?_,
    fun task listed row found => ?_⟩
  · obtain ⟨old, loaded, agrees⟩ := @goal_agrees _ fresh row
      (written.goals row (row?_mem found)) goal
    refine settles agrees (mem_append_left _ (mem_append_left _ ?_))
    refine mem_verdicts.mpr ⟨goal, listed, rfl, old, ?_, rfl⟩
    rw [loadedGoal?, found]
    exact loaded
  · obtain ⟨old, loaded, agrees⟩ := @story_agrees _ fresh row
      (written.stories row (row?_mem found)) goals story (reviewedPlanRows_feature listed)
    refine settles agrees (mem_append_left _ (mem_append_right _ ?_))
    refine mem_verdicts.mpr ⟨story, listed, rfl, old, ?_, rfl⟩
    rw [loadedStory?, found]
    exact loaded
  · obtain ⟨old, loaded, agrees⟩ := @task_agrees _ fresh row
      (written.tasks row (row?_mem found)) stories task
    refine settles agrees (mem_append_right _ ?_)
    refine mem_verdicts.mpr ⟨task, listed, rfl, old, ?_, rfl⟩
    rw [loadedTask?, found]
    exact loaded

end

def legacyTables : Tables Unit where
  stories := Table.empty.put
    { id := "US-001", goalID := none, title := "Invoices", description := some ""
      acceptanceCriteria := .sqlNull, verificationScript := some "", contract := some ""
      dependsOn := .null, storyType := some "feature", priority := some 0, tasks := .strings []
      others := () }

def invoicesPlan : ProjectPlan where
  stories := [{ id := "US-001", title := "Invoices" }]

theorem legacyStories_written : ∀ row ∈ legacyTables.stories.rows, row.Written := by
  intro row member
  simp only [legacyTables, Table.empty, Table.put, map_nil, not_mem_nil, if_false, nil_append,
    mem_singleton] at member
  subst member
  exact ⟨rfl, trivial, rfl, rfl, trivial, rfl, rfl, trivial⟩

theorem identity_comparisons_agree_legacy :
    loadedConflicts legacyTables invoicesPlan "US-001" = false ∧
      ∃ row story, legacyTables.stories.get? "US-001" = some row ∧
        story ∈ (reviewedPlanRows invoicesPlan).stories ∧
        (storyImporter (fun _ => ()) legacyTables.goals).compare row story = none := by
  have written : legacyTables.Written :=
    ⟨fun row member => by simp [legacyTables, Table.empty] at member, legacyStories_written,
      fun row member => by simp [legacyTables, Table.empty] at member⟩
  have quiet : loadedConflicts legacyTables invoicesPlan "US-001" = false := by decide +kernel
  obtain ⟨_, agree, _⟩ := identity_comparisons_agree (fun _ => ()) legacyTables.goals
    legacyTables.stories written (show (comparedIDs invoicesPlan).Nodup by decide)
  have listed : ({ id := "US-001", title := "Invoices" } : Release.Story) ∈
      (reviewedPlanRows invoicesPlan).stories := by
    decide
  exact ⟨quiet, _, _, rfl, listed, (agree _ listed _ rfl).mp quiet⟩

/-- A goal and a story under one identifier: the story's verdict hides the
goal's. -/
theorem shared_identifier_hides_conflict :
    ∃ (tables : Tables Unit) (plan : ProjectPlan) (goal : Release.Goal) (row : GoalColumns Unit),
      tables.Written ∧ goal ∈ (reviewedPlanRows plan).goals ∧
        tables.goals.get? goal.id = some row ∧ loadedConflicts tables plan goal.id = false ∧
        (goalImporter (fun _ => ())).compare row goal ≠ none := by
  let old : GoalColumns Unit :=
    { id := "US-001", title := "Billing", description := some "", successCriteria := some ""
      verificationMethod := some "", others := () }
  refine ⟨{ legacyTables with goals := Table.empty.put old },
    { invoicesPlan with goals := [{ id := "US-001", title := "Accounting" }] },
    { id := "US-001", title := "Accounting" }, old, ⟨?_, legacyStories_written, ?_⟩, by decide, rfl,
    by decide +kernel, by decide +kernel⟩
  · intro row member
    simp only [Table.empty, Table.put, map_nil, not_mem_nil, if_false, nil_append,
      mem_singleton] at member
    subst member
    exact ⟨rfl, rfl, rfl⟩
  · intro row member
    simp [legacyTables, Table.empty] at member

end OpenExec.ReviewedImport
