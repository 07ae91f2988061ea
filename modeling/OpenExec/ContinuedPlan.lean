import OpenExec.ContinuationLayout
import OpenExec.PlanRemappingFixedPoint
import Mathlib.Data.List.Flatten

/-!
# The plan a continuation leaves

The result of `continueRetainedWork` as one rendering: goals with persisted content
where they are continued, the stories of the pass, and the continued identifiers, all
rewritten by the identifier changes.
-/

namespace OpenExec.Planner

open Release FiniteRenaming KeyedRows List ProjectPlan
open scoped List

variable {id value : String} {goal : Goal} {kept : Kept} {story : Story} {ids : List String}

theorem mem_sortIDs : id ∈ sortIDs ids ↔ id ∈ ids :=
  mem_insertionSort _

theorem mem_compact : id ∈ compact ids ↔ id ∈ ids := by
  induction ids using compact.induct with
  | case1 => rfl
  | case2 first => rfl
  | case3 second rest ih =>
    rw [compact, if_pos rfl, ih]
    simp
  | case4 first second rest different ih =>
    rw [compact, if_neg different, mem_cons, ih, ← mem_cons]

variable (ledger : Ledger) (plan : ProjectPlan)

/-- The goal conflicts with the persisted one, or a kept story serves it. -/
def Goal.isContinued (goal : Goal) : Bool :=
  incomingConflicts ledger plan goal.id || servesGoal (keptStories ledger plan) goal

def retainedGoal (goal : Goal) : Goal :=
  if goal.isContinued ledger plan then (ledgerGoal ledger goal.id).getD goal else goal

theorem ledgerGoal_id {ledger : Ledger} (found : ledgerGoal ledger id = some goal) :
    goal.id = id := by
  obtain ⟨row, persisted, rfl⟩ := Option.map_eq_some_iff.mp found
  have named : row.id = id := row?_key persisted
  exact named

theorem getD_ledgerGoal_id (goal : Goal) :
    ((ledgerGoal ledger goal.id).getD goal).id = goal.id := by
  cases found : ledgerGoal ledger goal.id with
  | none => rfl
  | some persisted => exact ledgerGoal_id found

@[simp]
theorem retainedGoal_id (goal : Goal) : (retainedGoal ledger plan goal).id = goal.id := by
  unfold retainedGoal
  split
  · exact getD_ledgerGoal_id ledger goal
  · rfl

/-- The identifiers the plan takes over from the ledger. -/
def retainedIDs : List String :=
  (keptStories ledger plan).rowIDs ++
    continuedGoalIDs ledger (Goal.isContinued ledger plan) plan.goals

variable {ledger plan} {task : Task}

theorem mem_continuedGoalIDs {chosen : Goal → Bool} {goals : List Goal} :
    id ∈ continuedGoalIDs ledger chosen goals ↔
      ∃ goal ∈ goals, goal.id = id ∧ chosen goal ∧ (ledger.getGoal id).isSome := by
  simp only [continuedGoalIDs, mem_map, mem_filter, Bool.and_eq_true, ledgerGoal,
    Option.isSome_map]
  constructor
  · rintro ⟨goal, ⟨listed, isChosen, persisted⟩, rfl⟩
    exact ⟨goal, listed, rfl, isChosen, persisted⟩
  · rintro ⟨goal, listed, rfl, isChosen, persisted⟩
    exact ⟨goal, ⟨listed, isChosen, persisted⟩, rfl⟩

theorem mem_rowIDs :
    id ∈ kept.rowIDs ↔ ∃ story ∈ kept, story.id = id ∨ id ∈ story.tasks.map Task.id := by
  simp [Kept.rowIDs, eq_comm]

theorem Layout.continued_match {touched : List String} {done : List Story}
    {state : ContinuationState} (layout : Layout ledger plan kept touched done state)
    (fromLedger : FromLedger ledger kept) :
    (∀ story ∈ state.continued, ∃ base ∈ kept, base.id = story.id ∧ base.goalID = story.goalID ∧
      base.tasks = story.tasks) ∧
    ∀ base ∈ kept, ∃ story ∈ state.continued, story.id = base.id ∧ story.goalID = base.goalID ∧
      story.tasks = base.tasks := by
  have related {story base : Story} (storyMem : story ∈ state.continued) (baseMem : base ∈ kept)
      (same : base.id = story.id) : base.goalID = story.goalID ∧ base.tasks = story.tasks := by
    obtain ⟨content, found, shape⟩ := layout.carried story storyMem
    have isBase := fromLedger.content base baseMem
    rw [same] at isBase
    obtain rfl := Option.mem_unique found isBase
    rw [shape]
    exact ⟨rfl, rfl⟩
  constructor
  · intro story member
    have inKept : story.id ∈ kept.ids := layout.continued ▸ mem_map_of_mem member
    obtain ⟨base, baseMem, same⟩ := mem_map.mp inKept
    exact ⟨base, baseMem, same, related member baseMem same⟩
  · intro base member
    have inState : base.id ∈ Kept.ids state.continued :=
      layout.continued.symm ▸ mem_map_of_mem member
    obtain ⟨story, storyMem, same⟩ := mem_map.mp inState
    obtain ⟨goal, tasks⟩ := related storyMem member same.symm
    exact ⟨story, storyMem, same, goal.symm, tasks.symm⟩

theorem servesGoal_eq_true :
    servesGoal kept goal = true ↔ ∃ story ∈ kept, story.goalID = goal.id := by
  simp [servesGoal]

theorem continueGoals_twice (ledger : Ledger) (first second : Goal → Bool)
    (goals : List Goal) :
    continueGoals ledger second (continueGoals ledger first goals) =
      continueGoals ledger (fun goal => first goal || second goal) goals := by
  simp only [continueGoals, map_map]
  apply map_congr_left
  intro goal _
  by_cases isFirst : first goal = true
  · have sameID := getD_ledgerGoal_id ledger goal
    simp only [Function.comp_apply, isFirst, Bool.true_or, if_true, sameID]
    split
    · cases ledgerGoal ledger goal.id <;> rfl
    · rfl
  · simp [isFirst]

theorem continueGoals_ids (ledger : Ledger) (chosen : Goal → Bool) (goals : List Goal) :
    (continueGoals ledger chosen goals).map Goal.id = goals.map Goal.id := by
  rw [continueGoals, map_map]
  apply map_congr_left
  intro goal _
  by_cases isChosen : chosen goal = true
  · simp [isChosen, getD_ledgerGoal_id]
  · simp [isChosen]

/-- The plan before the identifiers in it are rewritten. -/
def carriedPlan (ledger : Ledger) (plan : ProjectPlan) : ProjectPlan :=
  { plan with
    goals := plan.goals.map (retainedGoal ledger plan)
    stories :=
      if keptStories ledger plan = [] then plan.stories else (continuationPass ledger plan).stories
    continues := (continueRetainedWork ledger plan).continues }

section

variable [ledger.Consistent] (unique : uniquePlanIDs plan)
include unique

theorem storyRows_nodup : (ProjectPlan.storyRowIDs plan.stories).Nodup :=
  (nodup_append'.mp ((uniquePlanIDs_iff plan).mp unique).2).2.1

theorem servesGoal_pass (goal : Goal) :
    servesGoal (continuationPass ledger plan).continued goal =
      servesGoal (keptStories ledger plan) goal := by
  obtain ⟨toKept, toPass⟩ := (continuationPass_layout ledger
    (storyRows_nodup unique)).continued_match (keptStories_fromLedger ledger plan)
  rw [Bool.eq_iff_iff, servesGoal_eq_true, servesGoal_eq_true]
  constructor
  · rintro ⟨story, member, serves⟩
    obtain ⟨base, baseMem, _, goalID, _⟩ := toKept story member
    exact ⟨base, baseMem, goalID.trans serves⟩
  · rintro ⟨base, member, serves⟩
    obtain ⟨story, storyMem, _, goalID, _⟩ := toPass base member
    exact ⟨story, storyMem, goalID.trans serves⟩

theorem mem_rowIDs_pass :
    id ∈ (continuationPass ledger plan).continued.rowIDs ↔
      id ∈ (keptStories ledger plan).rowIDs := by
  obtain ⟨toKept, toPass⟩ := (continuationPass_layout ledger
    (storyRows_nodup unique)).continued_match (keptStories_fromLedger ledger plan)
  rw [mem_rowIDs, mem_rowIDs]
  constructor
  · rintro ⟨story, member, row⟩
    obtain ⟨base, baseMem, sameID, _, sameTasks⟩ := toKept story member
    exact ⟨base, baseMem, sameID ▸ sameTasks ▸ row⟩
  · rintro ⟨base, member, row⟩
    obtain ⟨story, storyMem, sameID, _, sameTasks⟩ := toPass base member
    exact ⟨story, storyMem, sameID ▸ sameTasks ▸ row⟩

theorem continueRetainedWork_eq :
    continueRetainedWork ledger plan =
      rewritePlanRefs (carriedPlan ledger plan) (continuationRefs ledger plan) := by
  have goals (chosen : Goal → Bool)
      (same : ∀ goal, chosen goal = goal.isContinued ledger plan) :
      continueGoals ledger chosen plan.goals = plan.goals.map (retainedGoal ledger plan) := by
    apply map_congr_left
    intro goal _
    rw [same, retainedGoal]
  by_cases nothing : keptStories ledger plan = []
  · rw [continuationRefs, if_pos nothing, rewritePlanRefs_nil, carriedPlan, if_pos nothing]
    have changed := goals (fun goal => incomingConflicts ledger plan goal.id) (fun goal => by
      simp [Goal.isContinued, nothing, servesGoal])
    simp only [continueRetainedWork, if_pos nothing, changed]
  · rw [continuationRefs, if_neg nothing, carriedPlan, if_neg nothing]
    have twice := continueGoals_twice ledger
      (fun goal => incomingConflicts ledger plan goal.id)
      (servesGoal (continuationPass ledger plan).continued) plan.goals
    have both := goals (fun goal => incomingConflicts ledger plan goal.id ||
      servesGoal (continuationPass ledger plan).continued goal) (fun goal => by
        rw [servesGoal_pass unique, Goal.isContinued])
    rw [both] at twice
    simp only [continueRetainedWork, if_neg nothing, twice, rewritePlanRefs_continues]

omit [ledger.Consistent] unique in
theorem continues_of_nothing (nothing : keptStories ledger plan = []) :
    (continueRetainedWork ledger plan).continues = sortIDs (continuedGoalIDs ledger
      (fun goal => incomingConflicts ledger plan goal.id) plan.goals) := by
  simp only [continueRetainedWork, if_pos nothing]

theorem mem_continues :
    id ∈ (continueRetainedWork ledger plan).continues ↔ id ∈ retainedIDs ledger plan := by
  rw [retainedIDs, mem_append, mem_continuedGoalIDs]
  by_cases nothing : keptStories ledger plan = []
  · rw [continues_of_nothing nothing, mem_sortIDs, mem_continuedGoalIDs]
    simp [Goal.isContinued, nothing, Kept.rowIDs, servesGoal]
  · simp only [continueRetainedWork, if_neg nothing, rewritePlanRefs_continues, mem_compact,
      mem_sortIDs, mem_append, mem_rowIDs_pass unique, mem_continuedGoalIDs,
      Goal.isContinued, Bool.or_eq_true]
    have byID {goal other : Goal} (same : goal.id = other.id) :
        servesGoal (continuationPass ledger plan).continued goal =
          servesGoal (keptStories ledger plan) other := by
      rw [servesGoal_pass unique, servesGoal, servesGoal, same]
    constructor
    · rintro ((⟨goal, listed, named, changed, persisted⟩ | row) |
        ⟨goal, listed, named, served, persisted⟩)
      · exact .inr ⟨goal, listed, named, .inl changed, persisted⟩
      · exact .inl row
      · have listedID := mem_map_of_mem (f := Goal.id) listed
        rw [continueGoals_ids] at listedID
        obtain ⟨original, originalMem, same⟩ := mem_map.mp listedID
        exact .inr ⟨original, originalMem, same.trans named,
          .inr (byID same.symm ▸ served), persisted⟩
    · rintro (row | ⟨goal, listed, named, changed | served, persisted⟩)
      · exact .inl (.inr row)
      · exact .inl (.inl ⟨goal, listed, named, changed, persisted⟩)
      · have listedID := mem_map_of_mem (f := Goal.id) listed
        rw [← continueGoals_ids ledger
          (fun goal => incomingConflicts ledger plan goal.id)] at listedID
        obtain ⟨copy, copyMem, same⟩ := mem_map.mp listedID
        exact .inr ⟨copy, copyMem, same.trans named, (byID same).trans served, persisted⟩

end

def retainedChanges (ledger : Ledger) (plan : ProjectPlan) : Refs :=
  if keptStories ledger plan = [] then []
  else identifierChanges ledger plan (keptStories ledger plan) plan.stories

section

variable [ledger.Consistent] (unique : uniquePlanIDs plan)
include unique

theorem find?_continuationRefs :
    find? (continuationRefs ledger plan) id = some value ↔
      (id, value) ∈ retainedChanges ledger plan := by
  by_cases nothing : keptStories ledger plan = []
  · simp [continuationRefs, retainedChanges, nothing]
  · have layout := continuationPass_layout ledger (storyRows_nodup unique)
    rw [continuationRefs, retainedChanges, if_neg nothing, if_neg nothing, ← layout.refs]
    exact ⟨mem_of_find?, find?_of_mem layout.refsOnce⟩

theorem rename_continuationRefs :
    rename (continuationRefs ledger plan) = rename (retainedChanges ledger plan) := by
  funext id
  unfold rename
  congr 1
  cases entry : find? (retainedChanges ledger plan) id with
  | some value => exact (find?_continuationRefs unique).mpr (mem_of_find? entry)
  | none =>
    by_contra changed
    obtain ⟨value, found⟩ := Option.ne_none_iff_exists'.mp changed
    have member := (find?_continuationRefs unique).mp found
    exact find?_eq_none_iff.mp entry (mem_map_of_mem (f := Prod.fst) member)

theorem retainedChanges_cases (changed : (id, value) ∈ retainedChanges ledger plan) :
    let kept := keptStories ledger plan
    value ≠ id ∧
      ((∃ listed ∈ plan.stories, listed.id = id ∧ freshTasks kept listed = [] ∧
          value ∈ heldStories kept listed) ∨
        ∃ listed ∈ plan.stories, ∃ story ∈ workStories ledger plan kept plan.stories,
          WorkOf ledger plan kept listed story ∧ ∃ task position,
            story.tasks[position]? = some task ∧ task.id = id ∧
            taskNumbered story.id (position + 1) = value ∧ value ∉ plan.ids ∧
            value ∉ ledger.ids) := by
  intro kept
  unfold retainedChanges at changed
  split at changed
  · exact absurd changed not_mem_nil
  rcases mem_append.mp changed with regrouped | numbered
  · obtain ⟨listed, listedMem, isRegrouped⟩ := mem_filterMap.mp regrouped
    obtain ⟨named, plain, nothing, first⟩ := mem_regrouping.mp isRegrouped
    have held := mem_of_head? first
    refine ⟨?_, .inl ⟨listed, listedMem, named, nothing, held⟩⟩
    intro same
    refine plain ?_
    rw [named, ← same]
    obtain ⟨task, _, retained⟩ := mem_heldStories.mp held
    exact ((retainedStory_eq_some (keptStories_fromLedger ledger plan)).mp retained).1
  · obtain ⟨story, storyMem, isNumbered⟩ := mem_flatMap.mp numbered
    obtain ⟨task, position, owned, named, isValue, different, unlisted, unpersisted⟩ :=
      mem_numberings.mp isNumbered
    obtain ⟨listed, listedMem, isWork⟩ :=
      (workStories_spec ledger _ (append_nil _).symm (storyRows_nodup unique)).source story storyMem
    exact ⟨different, .inr ⟨listed, listedMem, story, storyMem, isWork, task, position, owned,
      named, isValue, unlisted, unpersisted⟩⟩

omit [ledger.Consistent] in
theorem retainedChanges_key (changed : (id, value) ∈ retainedChanges ledger plan) : id ∈
    ProjectPlan.storyRowIDs plan.stories := by
  unfold retainedChanges at changed
  split at changed
  · exact absurd changed not_mem_nil
  · exact identifierChanges_key
      (workStories_spec ledger _ (append_nil _).symm (storyRows_nodup unique)) changed

theorem goal_ne_storyRow (listed : goal ∈ plan.goals)
    (row : id ∈ ProjectPlan.storyRowIDs plan.stories) :
    goal.id ≠ id := fun same =>
  (nodup_append'.mp ((uniquePlanIDs_iff plan).mp unique).2).2.2
    (mem_map_of_mem listed) (same ▸ row)

theorem rename_eq_self_of_unchanged
    (unchanged : ∀ value, (id, value) ∉ retainedChanges ledger plan) :
    rename (continuationRefs ledger plan) id = id := by
  apply rename_of_not_mem
  rw [← find?_eq_none_iff]
  by_contra changed
  obtain ⟨value, found⟩ := Option.ne_none_iff_exists'.mp changed
  exact unchanged value ((find?_continuationRefs unique).mp found)

theorem rename_goal (listed : goal ∈ plan.goals) :
    rename (continuationRefs ledger plan) goal.id = goal.id :=
  rename_eq_self_of_unchanged unique fun _ changed =>
    goal_ne_storyRow unique listed (retainedChanges_key unique changed) rfl

theorem storyRows_split :
    (plan.stories.map Story.id).Nodup ∧
      (plan.stories.flatMap fun story => story.tasks.map Task.id).Nodup ∧
      ∀ story ∈ plan.stories, ∀ owner ∈ plan.stories, ∀ task ∈ owner.tasks,
        story.id ≠ task.id := by
  have rows := (storyRowIDs_perm plan.stories).nodup_iff.mp (storyRows_nodup unique)
  obtain ⟨stories, tasks, apart⟩ := nodup_append'.mp rows
  refine ⟨stories, tasks, fun story listed owner ownerListed task owned same => ?_⟩
  exact apart (mem_map_of_mem listed)
    (same ▸ mem_flatMap.mpr ⟨owner, ownerListed, mem_map_of_mem owned⟩)

theorem rename_work {listed : Story} (listedMem : listed ∈ plan.stories)
    (isWork : WorkOf ledger plan (keptStories ledger plan) listed story) :
    rename (continuationRefs ledger plan) story.id = story.id := by
  apply rename_eq_self_of_unchanged unique
  intro value changed
  have row := retainedChanges_key unique changed
  rcases isWork.id_cases with same | ⟨unlisted, _⟩
  · obtain ⟨stories, _, apart⟩ := storyRows_split unique
    obtain ⟨_, ⟨other, otherMem, named, nothing, _⟩ | ⟨owner, ownerMem, work, _, ownerWork,
      task, position, owned, named, _⟩⟩ := retainedChanges_cases unique changed
    · obtain rfl := inj_on_of_nodup_map stories otherMem listedMem (named.trans same)
      exact isWork.nonempty nothing
    · have fresh := mem_freshTasks.mp (ownerWork.tasks ▸ mem_of_getElem? owned)
      exact apart listed listedMem owner ownerMem task fresh.1 (same.symm.trans named.symm)
  · exact unlisted (mem_append_right _ row)

theorem kept_mem_continues (member : id ∈ (keptStories ledger plan).ids) :
    id ∈ (continueRetainedWork ledger plan).continues := by
  obtain ⟨story, storyMem, named⟩ := mem_map.mp member
  exact (mem_continues unique).mpr
    (mem_append_left _ (mem_rowIDs.mpr ⟨story, storyMem, .inl named⟩))

end

theorem carriedPlan_stories (some : keptStories ledger plan ≠ []) :
    (carriedPlan ledger plan).stories = (continuationPass ledger plan).stories := by
  rw [carriedPlan, if_neg some]

section

variable (unique : uniquePlanIDs plan)
include unique

theorem carriedStory_cases [ledger.Consistent]
    (some : keptStories ledger plan ≠ []) (member : story ∈ (carriedPlan ledger plan).stories) :
    (story.id ∈ (keptStories ledger plan).ids ∧ Carries ledger story) ∨
      (story.id ∉ (keptStories ledger plan).ids ∧
        story ∈ workStories ledger plan (keptStories ledger plan) plan.stories) := by
  rw [carriedPlan_stories some] at member
  have layout := continuationPass_layout ledger (storyRows_nodup unique)
  by_cases continued : story.id ∈ (keptStories ledger plan).ids
  · exact .inl ⟨continued, layout.retained story member continued⟩
  · refine .inr ⟨continued, ?_⟩
    rw [← layout.work]
    exact mem_filter.mpr ⟨member, by simpa using continued⟩

theorem work_source
    (member : story ∈ workStories ledger plan (keptStories ledger plan) plan.stories) :
    ∃ listed ∈ plan.stories, WorkOf ledger plan (keptStories ledger plan) listed story :=
  (workStories_spec ledger _ (append_nil _).symm (storyRows_nodup unique)).source story member

theorem ownStories_carriedPlan [ledger.Consistent] (some : keptStories ledger plan ≠ []) :
    ownStories (carriedPlan ledger plan) <+
      workStories ledger plan (keptStories ledger plan) plan.stories := by
  have layout := continuationPass_layout ledger (storyRows_nodup unique)
  rw [← layout.work, ownStories, carriedPlan_stories some]
  refine monotone_filter_right _ fun story own => ?_
  simp only [decide_eq_true_eq] at own ⊢
  exact fun continued => own (kept_mem_continues unique continued)

theorem work_task_listed
    (member : story ∈ workStories ledger plan (keptStories ledger plan) plan.stories)
    (owned : task ∈ story.tasks) :
    ∃ listed ∈ plan.stories,
      task ∈ listed.tasks ∧ retainedStory (keptStories ledger plan) task.id = none := by
  obtain ⟨listed, listedMem, isWork⟩ := work_source unique member
  obtain ⟨inListed, fresh⟩ := mem_freshTasks.mp (isWork.tasks ▸ owned)
  exact ⟨listed, listedMem, inListed, fresh⟩

theorem work_row_cases (row : id ∈ ProjectPlan.storyRowIDs
      (workStories ledger plan (keptStories ledger plan) plan.stories)) :
    id ∈ ProjectPlan.storyRowIDs plan.stories ∨
      (id ∉ plan.ids ∧ ∃ number, id = numbered "US" number) := by
  obtain ⟨story, member, rfl | ⟨task, owned, rfl⟩⟩ := mem_storyRowIDs.mp row
  · obtain ⟨listed, listedMem, isWork⟩ := work_source unique member
    rcases isWork.identity with ⟨_, rfl⟩ | ⟨_, unlisted, _, isNumbered⟩
    · exact .inl (mem_storyRowIDs.mpr ⟨listed, listedMem, .inl rfl⟩)
    · exact .inr ⟨unlisted, isNumbered⟩
  · obtain ⟨listed, listedMem, inListed, _⟩ := work_task_listed unique member owned
    exact .inl (mem_storyRowIDs.mpr
      ⟨listed, listedMem, .inr ⟨task, inListed, rfl⟩⟩)

theorem work_rows_nodup :
    (ProjectPlan.storyRowIDs
      (workStories ledger plan (keptStories ledger plan) plan.stories)).Nodup := by
  have spec := workStories_spec ledger (keptStories ledger plan)
    (append_nil plan.stories).symm (storyRows_nodup unique)
  obtain ⟨_, tasks, apart⟩ := storyRows_split unique
  rw [(storyRowIDs_perm _).nodup_iff]
  refine nodup_append'.mpr ⟨spec.unique, tasks.sublist spec.tasks, ?_⟩
  intro id storyID taskID
  obtain ⟨story, member, rfl⟩ := mem_map.mp storyID
  obtain ⟨owner, ownerMem, inOwner⟩ := mem_flatMap.mp taskID
  obtain ⟨task, owned, same⟩ := mem_map.mp inOwner
  obtain ⟨origin, originMem, inOrigin, _⟩ := work_task_listed unique ownerMem owned
  obtain ⟨listed, listedMem, isWork⟩ := work_source unique member
  rcases isWork.id_cases with sameID | ⟨unlisted, _⟩
  · exact apart listed listedMem origin originMem task inOrigin (sameID.symm.trans same.symm)
  · exact unlisted (same ▸ task_mem_ids originMem inOrigin)

end

theorem carriedPlan_goal_listed (member : goal ∈ (carriedPlan ledger plan).goals) :
    ∃ listed ∈ plan.goals, retainedGoal ledger plan listed = goal ∧ listed.id = goal.id := by
  obtain ⟨listed, listedMem, rfl⟩ := mem_map.mp member
  exact ⟨listed, listedMem, rfl, (retainedGoal_id ledger plan listed).symm⟩

section

variable (unique : uniquePlanIDs plan)
include unique

variable [ledger.Consistent] (some : keptStories ledger plan ≠ [])
include some

theorem comparedIDs_carriedPlan_cases (compared : id ∈ comparedIDs (carriedPlan ledger plan)) :
    (∃ goal ∈ plan.goals, goal.id = id) ∨
      id ∈ ProjectPlan.storyRowIDs
        (workStories ledger plan (keptStories ledger plan) plan.stories) := by
  rcases mem_append.mp compared with goalID | row
  · obtain ⟨goal, goalMem, rfl⟩ := mem_map.mp goalID
    obtain ⟨listed, listedMem, _, same⟩ := carriedPlan_goal_listed (mem_comparedGoals.mp goalMem).1
    exact .inl ⟨listed, listedMem, same⟩
  · exact .inr (((ownStories_carriedPlan unique some).flatMap _).subset row)

theorem comparedIDs_carriedPlan_nodup :
    (comparedIDs (carriedPlan ledger plan)).Nodup := by
  have goalIDs : (carriedPlan ledger plan).goals.map Goal.id = plan.goals.map Goal.id := by
    rw [carriedPlan, map_map]
    exact map_congr_left fun goal _ => retainedGoal_id ledger plan goal
  have goals : ((comparedGoals (carriedPlan ledger plan)).map Goal.id).Nodup := by
    refine List.Nodup.sublist (filter_sublist.map Goal.id) ?_
    rw [goalIDs]
    exact (nodup_append'.mp ((uniquePlanIDs_iff plan).mp unique).2).1
  have rows : (storyRowIDs (ownStories (carriedPlan ledger plan))).Nodup :=
    (work_rows_nodup unique).sublist ((ownStories_carriedPlan unique some).flatMap _)
  refine nodup_append'.mpr ⟨goals, rows, ?_⟩
  intro id goalID row
  obtain ⟨goal, goalMem, rfl⟩ := mem_map.mp goalID
  obtain ⟨listed, listedMem, _, same⟩ := carriedPlan_goal_listed (mem_comparedGoals.mp goalMem).1
  have workRow := ((ownStories_carriedPlan unique some).flatMap _).subset row
  rcases work_row_cases unique workRow with listedRow | ⟨unlisted, _⟩
  · exact goal_ne_storyRow unique listedMem listedRow same
  · exact unlisted (same ▸ goal_mem_ids listedMem)

theorem compared_change (compared : id ∈ comparedIDs (carriedPlan ledger plan)) :
    rename (continuationRefs ledger plan) id = id ∨
      ∃ story ∈ workStories ledger plan (keptStories ledger plan) plan.stories,
        ∃ task position, story.tasks[position]? = Option.some task ∧ task.id = id ∧
        rename (continuationRefs ledger plan) id = taskNumbered story.id (position + 1) ∧
        rename (continuationRefs ledger plan) id ∉ plan.ids ∧
        rename (continuationRefs ledger plan) id ∉ ledger.ids := by
  cases entry : find? (continuationRefs ledger plan) id with
  | none => exact .inl (by simp [rename, entry])
  | some value =>
    have changed := (find?_continuationRefs unique).mp entry
    have isValue : rename (continuationRefs ledger plan) id = value := by simp [rename, entry]
    obtain ⟨_, ⟨listed, listedMem, named, nothing, _⟩ | ⟨_, _, story, storyMem, _, task,
      position, owned, named, numbered, unlisted, unpersisted⟩⟩ :=
      retainedChanges_cases unique changed
    · left
      rcases comparedIDs_carriedPlan_cases unique some compared with ⟨goal, goalMem, same⟩ | row
      · exact absurd same (goal_ne_storyRow unique goalMem
          (mem_storyRowIDs.mpr ⟨listed, listedMem, .inl named⟩))
      · obtain ⟨story, member, same | ⟨task, owned, same⟩⟩ := mem_storyRowIDs.mp row
        · obtain ⟨origin, originMem, isWork⟩ := work_source unique member
          rw [← same]
          exact rename_work unique originMem isWork
        · obtain ⟨origin, originMem, inOrigin, _⟩ := work_task_listed unique member owned
          exact absurd (named.trans same.symm)
            ((storyRows_split unique).2.2 listed listedMem origin originMem task inOrigin)
    · rw [isValue]
      exact .inr ⟨story, storyMem, task, position, owned, named, numbered.symm, unlisted,
        unpersisted⟩

theorem rename_injOn_compared
    {first second : String}
    (firstMem : first ∈ comparedIDs (carriedPlan ledger plan))
    (secondMem : second ∈ comparedIDs (carriedPlan ledger plan))
    (same : rename (continuationRefs ledger plan) first =
      rename (continuationRefs ledger plan) second) : first = second := by
  -- A number is neither a listed identifier nor a new story's.
  have apart {id story : String} {position : Nat}
      (member : id ∈ comparedIDs (carriedPlan ledger plan))
      (isNumber : id = taskNumbered story position) (unlisted : id ∉ plan.ids) : False := by
    rcases comparedIDs_carriedPlan_cases unique some member with ⟨goal, goalMem, rfl⟩ | row
    · exact unlisted (goal_mem_ids goalMem)
    · rcases work_row_cases unique row with listedRow | ⟨_, number, isStory⟩
      · exact unlisted (mem_append_right _ listedRow)
      · exact taskNumbered_ne_numbered _ _ _ (isNumber.symm.trans isStory)
  rcases compared_change unique some firstMem with firstSame |
    ⟨story, storyMem, task, position, owned, named, isNumber, unlisted, _⟩
  · rcases compared_change unique some secondMem with secondSame |
      ⟨_, _, _, _, _, _, isNumber, unlisted, _⟩
    · rw [← firstSame, same, secondSame]
    · rw [← same, firstSame] at isNumber unlisted
      exact (apart firstMem isNumber unlisted).elim
  · rcases compared_change unique some secondMem with secondSame |
      ⟨other, otherMem, otherTask, otherPosition, otherOwned, otherNamed, otherNumber, _⟩
    · rw [same, secondSame] at isNumber unlisted
      exact (apart secondMem isNumber unlisted).elim
    · obtain ⟨sameStory, samePosition⟩ :=
        taskNumbered_inj (isNumber.symm.trans (same.trans otherNumber))
      have spec := workStories_spec ledger (keptStories ledger plan)
        (append_nil plan.stories).symm (storyRows_nodup unique)
      obtain rfl := inj_on_of_nodup_map spec.unique storyMem otherMem sameStory
      obtain rfl : position = otherPosition := by omega
      rw [owned] at otherOwned
      rw [← named, ← otherNamed, Option.some.inj otherOwned]

theorem comparedIDs_continued : comparedIDs (continueRetainedWork ledger plan) =
    (comparedIDs (carriedPlan ledger plan)).map (rename (continuationRefs ledger plan)) := by
  rw [continueRetainedWork_eq unique]
  apply comparedIDs_rewritePlanRefs
  · intro goal compared
    obtain ⟨goalMem, own⟩ := mem_comparedGoals.mp compared
    obtain ⟨listed, listedMem, _, same⟩ := carriedPlan_goal_listed goalMem
    rw [← same, rename_goal unique listedMem, same]
    exact own
  · intro story own
    have member := (ownStories_carriedPlan unique some).subset own
    obtain ⟨listed, listedMem, isWork⟩ := work_source unique member
    rw [rename_work unique listedMem isWork]
    exact (mem_ownStories.mp own).2

end

variable [ledger.Consistent]

theorem Carries.task_owner (carries : Carries ledger story) {taskID : String}
    (owned : taskID ∈ story.tasks.map Task.id) :
    ∃ row, ledger.getTask taskID = some row ∧ row.storyID = story.id := by
  obtain ⟨base, found, shape⟩ := carries
  obtain ⟨row, persisted, _, names, _⟩ := getStory_of_ledgerStory found
  rw [shape] at owned
  exact Ledger.getTask_of_getStory persisted (names ▸ owned)

variable (unique : uniquePlanIDs plan) (some : keptStories ledger plan ≠ [])
include unique some

theorem compared_ne_continued_task (listed : story ∈ (carriedPlan ledger plan).stories)
    (continued : story.id ∈ (continueRetainedWork ledger plan).continues)
    (owned : task ∈ story.tasks) : task.id ∉ comparedIDs (continueRetainedWork ledger plan) := by
  rw [comparedIDs_continued unique some]
  intro member
  obtain ⟨id, compared, shown⟩ := mem_map.mp member
  rcases carriedStory_cases unique some listed with ⟨isKept, carries⟩ | ⟨_, isWork⟩
  · -- The task is persisted and its story is continued.
    obtain ⟨row, found, owner⟩ := carries.task_owner (mem_map_of_mem owned)
    have persisted := Ledger.mem_ids_of_getTask (Option.isSome_of_eq_some found)
    have retained := (retainedStory_eq_some (keptStories_fromLedger ledger plan)).mpr
      ⟨isKept, row, found, owner⟩
    have inContinues : task.id ∈ (continueRetainedWork ledger plan).continues := by
      obtain ⟨base, baseMem, same⟩ := mem_map.mp isKept
      refine (mem_continues unique).mpr (mem_append_left _ (mem_rowIDs.mpr
        ⟨base, baseMem, .inr ?_⟩))
      rw [(keptStories_fromLedger ledger plan).mem_tasks baseMem, same]
      exact ⟨row, found, owner⟩
    rcases compared_change unique some compared with same | ⟨_, _, _, _, _, _, _, _, unpersisted⟩
    · rw [same] at shown
      subst shown
      rcases mem_append.mp compared with goalID | rowID
      · obtain ⟨goal, goalMem, same⟩ := mem_map.mp goalID
        exact (mem_comparedGoals.mp goalMem).2 (same ▸ inContinues)
      · obtain ⟨other, own, same | ⟨otherTask, otherOwned, same⟩⟩ :=
          mem_storyRowIDs.mp rowID
        · exact (mem_ownStories.mp own).2 (same ▸ inContinues)
        · obtain ⟨_, _, _, fresh⟩ := work_task_listed unique
            ((ownStories_carriedPlan unique some).subset own) otherOwned
          rw [same, retained] at fresh
          cases fresh
    · exact unpersisted (shown ▸ persisted)
  · -- A new story shares its identifier with a continued row of another kind.
    obtain ⟨origin, originMem, inOrigin, _⟩ := work_task_listed unique isWork owned
    have listedTask := task_mem_ids originMem inOrigin
    rcases compared_change unique some compared with same | ⟨_, _, _, _, _, _, _, unlisted, _⟩
    · rw [same] at shown
      subst shown
      rcases mem_append.mp compared with goalID | rowID
      · obtain ⟨goal, goalMem, sameID⟩ := mem_map.mp goalID
        obtain ⟨listedGoal, goalListed, _, sameGoal⟩ :=
          carriedPlan_goal_listed (mem_comparedGoals.mp goalMem).1
        exact goal_ne_storyRow unique goalListed (mem_storyRowIDs.mpr
          ⟨origin, originMem, .inr ⟨task, inOrigin, rfl⟩⟩) (sameGoal.trans sameID)
      · -- The rows of the work stories would not be distinct.
        obtain ⟨other, own, row⟩ := mem_storyRowIDs.mp rowID
        have inOther : task.id ∈ other.id :: other.tasks.map Task.id := by
          rcases row with same | ⟨otherTask, otherOwned, same⟩
          · exact same ▸ mem_cons_self
          · exact same ▸ mem_cons_of_mem _ (mem_map_of_mem otherOwned)
        obtain rfl := storyRow_owner (work_rows_nodup unique) isWork
          ((ownStories_carriedPlan unique some).subset own)
          (mem_cons_of_mem _ (mem_map_of_mem owned)) inOther
        exact (mem_ownStories.mp own).2 continued
    · exact unlisted (shown ▸ listedTask)

theorem continued_renamable : Renamable (continueRetainedWork ledger plan) := by
  refine ⟨?_, ?_, ?_⟩
  · rw [comparedIDs_continued unique some]
    exact (comparedIDs_carriedPlan_nodup unique some).map_on fun first firstMem second secondMem =>
      rename_injOn_compared unique some firstMem secondMem
  · rw [comparedIDs_continued unique some]
    intro shown member
    obtain ⟨id, compared, rfl⟩ := mem_map.mp member
    have nonempty := ((uniquePlanIDs_iff plan).mp unique).1
    rcases compared_change unique some compared with same | ⟨_, _, _, _, _, _, isNumber, _⟩
    · rw [same]
      rcases comparedIDs_carriedPlan_cases unique some compared with ⟨goal, goalMem, rfl⟩ | row
      · exact nonempty _ (goal_mem_ids goalMem)
      · rcases work_row_cases unique row with listedRow | ⟨_, number, rfl⟩
        · exact nonempty _ (mem_append_right _ listedRow)
        · exact numbered_ne_empty _ _
    · rw [isNumber]
      exact numbered_ne_empty _ _
  · intro shown member continued task owned
    rw [continueRetainedWork_eq unique] at member continued
    obtain ⟨story, listed, rfl⟩ := mem_map.mp member
    rcases render_story_cases (continuationRefs ledger plan) listed with
      ⟨isContinued, same⟩ | ⟨own, rewritten⟩
    · rw [same] at owned
      exact compared_ne_continued_task unique some listed isContinued owned
    · rw [rewritten, Story.rewrite_id] at continued
      have isWork := (ownStories_carriedPlan unique some).subset own
      obtain ⟨origin, originMem, workOf⟩ := work_source unique isWork
      rw [rename_work unique originMem workOf] at continued
      exact absurd continued (mem_ownStories.mp own).2

end OpenExec.Planner
