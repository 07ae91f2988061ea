import OpenExec.GoStrings
import OpenExec.ProjectPlan
import OpenExec.ReleaseLedger

/-!
# Comparing a plan with the ledger

`reviewedPlanRows` turns a plan into the rows an import would write, and
`reviewedIdentityConflicts` reports which of these rows differ from the persisted row of
the same kind and identifier.
-/

namespace OpenExec.Planner

open Release GoStrings KeyedRows List
open scoped List

variable {id : String} {plan : ProjectPlan} {story : Story} {ledger : Ledger} {ρ : Type}

def taskModeAFK : String := "afk"

def presentText (text : String) : Option String :=
  if text = "" then none else some text

def Task.executionMetadata (task : Task) : PlanMetadata :=
  if task.mode = "" ∧ task.decisionReason = "" ∧ task.decisionRef = "" ∧ task.allowedPaths = [] then
    {}
  else
    { mode := some task.mode
      decisionReason := presentText task.decisionReason
      decisionRef := presentText task.decisionRef
      allowedPaths := task.allowedPaths }

def Goal.row (goal : Goal) : Release.Goal where
  id := goal.id
  title := goal.title
  description := goal.description
  successCriteria := goal.successCriteria
  verificationMethod := goal.verificationMethod

def Task.importedDescription (task : Task) : String :=
  if trimSpace task.technicalStrategy = "" then task.description
  else task.description ++ "\n\nTechnical strategy:\n" ++ task.technicalStrategy

def Task.row (storyID : String) (position : Nat) (task : Task) : Release.Task where
  id := task.id
  storyID := storyID
  title := task.title
  description := task.importedDescription
  verificationScript := task.verificationScript
  dependsOn := task.dependsOn
  priority := position
  maxAttempts := 3
  metadata := task.executionMetadata

def Story.row (position : Nat) (story : Story) : Release.Story where
  id := story.id
  goalID := story.goalID
  title := story.title
  description := story.description
  acceptanceCriteria := story.acceptanceCriteria
  verificationScript := story.verificationScript
  contract := story.contract
  tasks := story.tasks.map Task.id
  dependsOn := story.dependsOn
  storyType := .feature
  priority := position

def Story.taskRows (story : Story) : List Release.Task :=
  story.tasks.zipIdx.map fun (task, position) => task.row story.id position

structure PlanRows where
  goals : List Release.Goal
  stories : List Release.Story
  tasks : List Release.Task

def comparedGoals (plan : ProjectPlan) : List Goal :=
  plan.goals.filter fun goal => goal.id ∉ plan.continues

def comparedStories (plan : ProjectPlan) : List (Story × Nat) :=
  plan.stories.zipIdx.filter fun entry => entry.1.id ∉ plan.continues

def reviewedPlanRows (plan : ProjectPlan) : PlanRows where
  goals := (comparedGoals plan).map Goal.row
  stories := (comparedStories plan).map fun entry => entry.1.row entry.2
  tasks := (comparedStories plan).flatMap fun entry => entry.1.taskRows

def reviewedGoalEqual (old next : Release.Goal) : Bool :=
  old.title = next.title && old.description = next.description &&
    old.successCriteria = next.successCriteria && old.verificationMethod = next.verificationMethod

def reviewedStoryEqual (old next : Release.Story) : Bool :=
  old.goalID = next.goalID && old.title = next.title && old.description = next.description &&
    old.acceptanceCriteria = next.acceptanceCriteria &&
    old.verificationScript = next.verificationScript && old.contract = next.contract &&
    old.dependsOn = next.dependsOn && old.storyType = next.storyType &&
    old.priority = next.priority && old.tasks = next.tasks

def reviewedMode (task : Release.Task) : String :=
  task.metadata.mode.getD taskModeAFK

def reviewedTaskEqual (old next : Release.Task) : Bool :=
  old.storyID = next.storyID && old.title = next.title && old.description = next.description &&
    old.verificationScript = next.verificationScript && old.dependsOn = next.dependsOn &&
    old.priority = next.priority && old.maxAttempts = next.maxAttempts &&
    reviewedMode old = reviewedMode next

/-- The entries one kind of row makes in the conflict map. -/
def verdicts {ρ : Type} (key : ρ → String) (persisted : String → Option ρ) (equal : ρ → ρ → Bool)
    (rows : List ρ) : List (String × Bool) :=
  rows.filterMap fun next => (persisted (key next)).map fun old => (key next, !equal old next)

/-- The conflict map as the list of its assignments. -/
def identityVerdicts (ledger : Ledger) (plan : ProjectPlan) : List (String × Bool) :=
  let rows := reviewedPlanRows plan
  verdicts Release.Goal.id ledger.getGoal reviewedGoalEqual rows.goals ++
    verdicts Release.Story.id ledger.getStory reviewedStoryEqual rows.stories ++
    verdicts Release.Task.id ledger.getTask reviewedTaskEqual rows.tasks

/-- The conflict map read at an identifier: a later assignment replaces an
earlier one, and an absent entry reads false. -/
def reviewedIdentityConflicts (ledger : Ledger) (plan : ProjectPlan) (id : String) : Bool :=
  ((row? Prod.fst (identityVerdicts ledger plan).reverse id).map Prod.snd).getD false

def Goal.Differs (ledger : Ledger) (goal : Goal) : Prop :=
  ∃ old, ledger.getGoal goal.id = some old ∧ reviewedGoalEqual old goal.row = false

def Story.Differs (ledger : Ledger) (position : Nat) (story : Story) : Prop :=
  ∃ old, ledger.getStory story.id = some old ∧ reviewedStoryEqual old (story.row position) = false

def Task.Differs (ledger : Ledger) (storyID : String) (position : Nat) (task : Task) : Prop :=
  ∃ old, ledger.getTask task.id = some old ∧
    reviewedTaskEqual old (task.row storyID position) = false

inductive Flagged (ledger : Ledger) (plan : ProjectPlan) : String → Prop
  | goal {goal : Goal} (listed : goal ∈ plan.goals) (compared : goal.id ∉ plan.continues)
      (differs : goal.Differs ledger) : Flagged ledger plan goal.id
  | story {story : Story} {position : Nat} (listed : plan.stories[position]? = some story)
      (compared : story.id ∉ plan.continues) (differs : story.Differs ledger position) :
      Flagged ledger plan story.id
  | task {story : Story} {task : Task} {position : Nat} (listed : story ∈ plan.stories)
      (compared : story.id ∉ plan.continues) (owned : story.tasks[position]? = some task)
      (differs : task.Differs ledger story.id position) : Flagged ledger plan task.id

theorem mem_verdicts {key : ρ → String} {persisted : String → Option ρ} {equal : ρ → ρ → Bool}
    {rows : List ρ} {verdict : Bool} :
    (id, verdict) ∈ verdicts key persisted equal rows ↔
      ∃ next ∈ rows,
        key next = id ∧ ∃ old, persisted id = some old ∧ verdict = !equal old next := by
  simp only [verdicts, mem_filterMap, Option.map_eq_some_iff, Prod.mk.injEq]
  constructor
  · rintro ⟨next, member, old, found, rfl, rfl⟩
    exact ⟨next, member, rfl, old, found, rfl⟩
  · rintro ⟨next, member, rfl, old, found, rfl⟩
    exact ⟨next, member, old, found, rfl, rfl⟩

theorem verdicts_keys_sublist (key : ρ → String) (persisted : String → Option ρ)
    (equal : ρ → ρ → Bool) (rows : List ρ) :
    (verdicts key persisted equal rows).map Prod.fst <+ rows.map key := by
  induction rows with
  | nil => simp [verdicts]
  | cons row rows ih =>
    unfold verdicts at ih ⊢
    cases found : persisted (key row) with
    | none =>
      rw [filterMap_cons_none (by simp [found]), map_cons]
      exact ih.cons _
    | some old =>
      rw [filterMap_cons_some (by rw [found]; rfl), map_cons, map_cons]
      exact ih.cons_cons _

theorem mem_comparedGoals {goal : Goal} :
    goal ∈ comparedGoals plan ↔ goal ∈ plan.goals ∧ goal.id ∉ plan.continues := by
  simp [comparedGoals]

theorem mem_comparedStories {position : Nat} : (story, position) ∈ comparedStories plan ↔
      plan.stories[position]? = some story ∧ story.id ∉ plan.continues := by
  simp [comparedStories, mem_zipIdx_iff_getElem?]

theorem mem_taskRows {row : Release.Task} : row ∈ story.taskRows ↔ ∃ (task : Task) (position : Nat),
    story.tasks[position]? = some task ∧ task.row story.id position = row := by
  simp [Story.taskRows, mem_zipIdx_iff_getElem?]

theorem flagged_iff_verdict :
    Flagged ledger plan id ↔ (id, true) ∈ identityVerdicts ledger plan := by
  simp only [identityVerdicts, reviewedPlanRows, mem_append, mem_verdicts, mem_map, mem_flatMap]
  constructor
  · rintro (⟨listed, compared, old, found, unequal⟩ | ⟨listed, compared, old, found, unequal⟩ |
      ⟨listed, compared, owned, old, found, unequal⟩)
    · exact .inl (.inl ⟨_, ⟨_, mem_comparedGoals.mpr ⟨listed, compared⟩, rfl⟩, rfl, old, found,
        by simp [unequal]⟩)
    · exact .inl (.inr ⟨_, ⟨(_, _), mem_comparedStories.mpr ⟨listed, compared⟩, rfl⟩, rfl, old,
        found, by simp [unequal]⟩)
    · obtain ⟨place, placed⟩ := mem_iff_getElem?.mp listed
      exact .inr ⟨_, ⟨(_, place), mem_comparedStories.mpr ⟨placed, compared⟩,
        mem_taskRows.mpr ⟨_, _, owned, rfl⟩⟩, rfl, old, found, by simp [unequal]⟩
  · rintro ((⟨_, ⟨goal, member, rfl⟩, rfl, old, found, unequal⟩ |
      ⟨_, ⟨⟨story, position⟩, member, rfl⟩, rfl, old, found, unequal⟩) |
      ⟨row, ⟨⟨story, place⟩, member, rowMem⟩, rfl, old, found, unequal⟩)
    · obtain ⟨listed, compared⟩ := mem_comparedGoals.mp member
      exact Flagged.goal listed compared ⟨old, found, by simpa using unequal⟩
    · obtain ⟨listed, compared⟩ := mem_comparedStories.mp member
      exact Flagged.story listed compared ⟨old, found, by simpa using unequal⟩
    · obtain ⟨placed, compared⟩ := mem_comparedStories.mp member
      obtain ⟨task, position, owned, rfl⟩ := mem_taskRows.mp rowMem
      exact Flagged.task (mem_of_getElem? placed) compared owned
        ⟨old, found, by simpa using unequal⟩

theorem flagged_listed (flagged : Flagged ledger plan id) : id ∈ plan.ids := by
  cases flagged with
  | goal listed _ _ => exact ProjectPlan.goal_mem_ids listed
  | story listed _ _ => exact ProjectPlan.story_mem_ids (mem_of_getElem? listed)
  | task listed _ owned _ => exact ProjectPlan.task_mem_ids listed (mem_of_getElem? owned)

theorem flagged_of_conflicts (conflicting : reviewedIdentityConflicts ledger plan id) :
    Flagged ledger plan id := by
  unfold reviewedIdentityConflicts at conflicting
  cases found : row? Prod.fst (identityVerdicts ledger plan).reverse id with
  | none => simp [found] at conflicting
  | some entry =>
    rw [found, Option.map_some, Option.getD_some] at conflicting
    have member := mem_reverse.mp (row?_mem found)
    have keyed := row?_key found
    rw [flagged_iff_verdict, ← keyed, ← conflicting]
    exact member

def ownStories (plan : ProjectPlan) : List Story :=
  plan.stories.filter fun story => story.id ∉ plan.continues

/-- The identifiers of the rows that are compared and may be renamed. -/
def comparedIDs (plan : ProjectPlan) : List String :=
  (comparedGoals plan).map Goal.id ++ ProjectPlan.storyRowIDs (ownStories plan)

theorem mem_ownStories :
    story ∈ ownStories plan ↔ story ∈ plan.stories ∧ story.id ∉ plan.continues := by
  simp [ownStories]

theorem comparedStories_map_fst (plan : ProjectPlan) :
    (comparedStories plan).map Prod.fst = ownStories plan := by
  have shifted (stories : List Story) (start : Nat) :
      ((stories.zipIdx start).filter fun entry => entry.1.id ∉ plan.continues).map Prod.fst =
        stories.filter fun story => story.id ∉ plan.continues := by
    induction stories generalizing start with
    | nil => rfl
    | cons story stories ih =>
      have later := ih (start + 1)
      by_cases continued : story.id ∈ plan.continues <;> simp_all
  exact shifted plan.stories 0

theorem taskRows_map_id (story : Story) :
    story.taskRows.map Release.Task.id = story.tasks.map Task.id := by
  calc story.taskRows.map Release.Task.id
      = (story.tasks.zipIdx.map Prod.fst).map Task.id := by
        simp only [Story.taskRows, map_map]
        rfl
    _ = story.tasks.map Task.id := by rw [zipIdx_map_fst]

theorem reviewedPlanRows_ids_perm (plan : ProjectPlan) :
    (reviewedPlanRows plan).goals.map Release.Goal.id ++
      (reviewedPlanRows plan).stories.map Release.Story.id ++
      (reviewedPlanRows plan).tasks.map Release.Task.id ~ comparedIDs plan := by
  have storyIDs : (reviewedPlanRows plan).stories.map Release.Story.id =
      ((comparedStories plan).map Prod.fst).map Story.id := by
    simp only [reviewedPlanRows, map_map]
    rfl
  have taskIDs : (reviewedPlanRows plan).tasks.map Release.Task.id =
      ((comparedStories plan).map Prod.fst).flatMap fun story => story.tasks.map Task.id := by
    simp only [reviewedPlanRows, map_flatMap, taskRows_map_id, flatMap_map]
  have goalIDs : (reviewedPlanRows plan).goals.map Release.Goal.id =
      (comparedGoals plan).map Goal.id := by
    simp only [reviewedPlanRows, map_map]
    rfl
  rw [goalIDs, storyIDs, taskIDs, comparedStories_map_fst, append_assoc]
  exact (ProjectPlan.storyRowIDs_perm _).symm.append_left _

theorem identityVerdicts_keys_nodup (unique : (comparedIDs plan).Nodup) :
    ((identityVerdicts ledger plan).map Prod.fst).Nodup := by
  refine ((reviewedPlanRows_ids_perm plan).nodup_iff.mpr unique).sublist ?_
  simp only [identityVerdicts, map_append]
  exact ((verdicts_keys_sublist _ _ _ _).append (verdicts_keys_sublist _ _ _ _)).append
    (verdicts_keys_sublist _ _ _ _)

theorem conflicts_iff_flagged (unique : (comparedIDs plan).Nodup) :
    reviewedIdentityConflicts ledger plan id = true ↔ Flagged ledger plan id := by
  refine ⟨flagged_of_conflicts, fun flagged => ?_⟩
  have keysUnique : ((identityVerdicts ledger plan).reverse.map Prod.fst).Nodup := by
    rw [map_reverse, nodup_reverse]
    exact identityVerdicts_keys_nodup unique
  have found := row?_of_mem keysUnique (mem_reverse.mpr (flagged_iff_verdict.mp flagged))
  rw [reviewedIdentityConflicts, found]
  rfl

end OpenExec.Planner
