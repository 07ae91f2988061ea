import OpenExec.ContinuedPlan

/-!
# When a re-plan keeps every persisted identity

`preparePlanIDs` renames through two substitutions.  The theorem says exactly
when neither touches a persisted identifier and no persisted row is dropped:
nothing is continued, or no persisted identifier is renumbered and every
persisted row listed unchanged reads the same at its new place.
-/

namespace OpenExec.Planner

open Release FiniteRenaming List
open scoped List

variable {id : String} {goal : Goal} {story listed : Story} {ledger : Ledger} {plan : ProjectPlan}
  {position : Nat} {old : Release.Task}

theorem reviewedGoalEqual_congr {old next other : Release.Goal}
    (same : reviewedGoalEqual old next) :
    reviewedGoalEqual old other = reviewedGoalEqual next other := by
  simp only [reviewedGoalEqual, Bool.and_eq_true, decide_eq_true_eq] at same
  simp only [reviewedGoalEqual, same]

theorem reviewedStoryEqual_congr {old next other : Release.Story}
    (same : reviewedStoryEqual old next) :
    reviewedStoryEqual old other = reviewedStoryEqual next other := by
  simp only [reviewedStoryEqual, Bool.and_eq_true, decide_eq_true_eq] at same
  simp only [reviewedStoryEqual, same]

theorem reviewedTaskEqual_congr {next other : Release.Task} (same : reviewedTaskEqual old next) :
    reviewedTaskEqual old other = reviewedTaskEqual next other := by
  simp only [reviewedTaskEqual, Bool.and_eq_true, decide_eq_true_eq] at same
  simp only [reviewedTaskEqual, same]

section

variable (unique : uniquePlanIDs plan)
include unique

theorem incoming_flagged :
    incomingConflicts ledger plan id = true ↔ Flagged ledger { plan with continues := [] } id := by
  apply conflicts_iff_flagged
  have all : comparedIDs { plan with continues := [] } = plan.ids := by
    simp [comparedIDs, comparedGoals, ownStories, ProjectPlan.ids, ProjectPlan.goalIDs]
  rw [all]
  exact ((uniquePlanIDs_iff plan).mp unique).2

theorem goal_same {old : Release.Goal}
    (listed : goal ∈ plan.goals) (quiet : incomingConflicts ledger plan goal.id = false)
    (found : ledger.getGoal goal.id = some old) : reviewedGoalEqual old goal.row := by
  by_contra different
  have flagged : Flagged ledger { plan with continues := [] } goal.id :=
    Flagged.goal listed not_mem_nil ⟨old, found, by simpa using different⟩
  rw [(incoming_flagged unique).mpr flagged] at quiet
  cases quiet

variable [ledger.Consistent]

theorem story_same {old : Release.Story}
    (listed : plan.stories[position]? = some story)
    (plain : story.id ∉ (keptStories ledger plan).ids)
    (found : ledger.getStory story.id = some old) :
    reviewedStoryEqual old (story.row position) := by
  by_contra different
  have flagged : Flagged ledger { plan with continues := [] } story.id :=
    Flagged.story listed not_mem_nil ⟨old, found, by simpa using different⟩
  refine plain (mem_keptStories.mpr ⟨story, mem_of_getElem? listed, .inr ?_⟩)
  exact ⟨rfl, Option.isSome_of_eq_some found, .inl ((incoming_flagged unique).mpr flagged)⟩

theorem fresh_task_same {task : Task} {index : Nat}
    (listed : story ∈ plan.stories) (owned : story.tasks[index]? = some task)
    (fresh : retainedStory (keptStories ledger plan) task.id = none)
    (found : ledger.getTask task.id = some old) : old.storyID = story.id ∧ story.id ∉
    (keptStories ledger plan).ids ∧ reviewedTaskEqual old (task.row story.id index) := by
  have notRetained {owner : String} (isOwner : old.storyID = owner) :
      owner ∉ (keptStories ledger plan).ids := by
    intro isKept
    have retained := (retainedStory_eq_some (keptStories_fromLedger ledger plan)).mpr
      ⟨isKept, old, found, isOwner⟩
    rw [fresh] at retained
    cases retained
  have same : reviewedTaskEqual old (task.row story.id index) := by
    by_contra different
    have flagged : Flagged ledger { plan with continues := [] } task.id :=
      Flagged.task listed not_mem_nil owned ⟨old, found, by simpa using different⟩
    have conflicting := (incoming_flagged unique).mpr flagged
    have taskMem := mem_of_getElem? owned
    by_cases here : old.storyID = story.id
    · obtain ⟨row, persisted, _⟩ := Ledger.getStory_of_getTask found
      rw [here] at persisted
      refine notRetained here (mem_keptStories.mpr ⟨story, listed, .inr ⟨rfl, ?_, ?_⟩⟩)
      · exact Option.isSome_of_eq_some persisted
      · exact .inr ⟨task, taskMem, conflicting⟩
    · exact notRetained rfl (mem_keptStories.mpr ⟨story, listed,
        .inl ⟨task, taskMem, conflicting, here, old, found, rfl⟩⟩)
  have owner : old.storyID = story.id := by
    simp only [reviewedTaskEqual, Bool.and_eq_true, decide_eq_true_eq] at same
    exact same.1.1.1.1.1.1.1
  exact ⟨owner, notRetained owner, same⟩

theorem plain_story_tasks (listed : story ∈ plan.stories)
    (plain : story.id ∉ (keptStories ledger plan).ids)
    (persisted : (ledger.getStory story.id).isSome) :
    (∀ task ∈ story.tasks, retainedStory (keptStories ledger plan) task.id = none ∧
      ∃ old, ledger.getTask task.id = some old) ∧
      freshTasks (keptStories ledger plan) story = story.tasks ∧
      heldStories (keptStories ledger plan) story = [] := by
  obtain ⟨old, found⟩ := Option.isSome_iff_exists.mp persisted
  obtain ⟨position, placed⟩ := mem_iff_getElem?.mp listed
  have same := story_same unique placed plain found
  have tasks : old.tasks = story.tasks.map Task.id := by
    simp only [reviewedStoryEqual, Bool.and_eq_true, decide_eq_true_eq] at same
    exact same.2
  have each : ∀ task ∈ story.tasks, retainedStory (keptStories ledger plan) task.id = none ∧
      ∃ old, ledger.getTask task.id = some old := by
    intro task owned
    obtain ⟨row, isRow, owner⟩ := Ledger.getTask_of_getStory found
      (tasks ▸ mem_map_of_mem owned : task.id ∈ old.tasks)
    refine ⟨?_, row, isRow⟩
    cases retained : retainedStory (keptStories ledger plan) task.id with
    | none => rfl
    | some other =>
      obtain ⟨isKept, row', isRow', owner'⟩ :=
        (retainedStory_eq_some (keptStories_fromLedger ledger plan)).mp retained
      rw [isRow] at isRow'
      obtain rfl := Option.some.inj isRow'
      exact absurd (owner'.symm.trans owner ▸ isKept) plain
  refine ⟨each, ?_, ?_⟩
  · rw [freshTasks, filter_eq_self]
    intro task owned
    simp [(each task owned).1]
  · rw [eq_nil_iff_forall_not_mem]
    intro id held
    obtain ⟨task, owned, retained⟩ := mem_heldStories.mp held
    rw [(each task owned).1] at retained
    cases retained

end

theorem newWork_eq_self {kept : Kept} (all : freshTasks kept story = story.tasks) :
    newWork kept story = story := by
  rw [newWork, all]

/-- The rows of a story read the same when its identifiers change by `refs` and
it moves to `place`. -/
def Story.ReadsSame (refs : Refs) (position place : Nat) (story : Story) : Prop :=
  reviewedStoryEqual (story.row position) ((story.rewrite refs).row place) = true ∧
    ∀ (index : Nat) (task : Task), story.tasks[index]? = some task →
      reviewedTaskEqual (task.row story.id index) ((task.rewrite refs).row story.id index) = true

structure Undisturbed (ledger : Ledger) (plan : ProjectPlan) : Prop where
  numbering : ∀ id ∈ ledger.ids, id ∉ names (retainedChanges ledger plan)
  tasked : ∀ story ∈ plan.stories, (ledger.getStory story.id).isSome →
    story.id ∉ (keptStories ledger plan).ids → story.tasks ≠ []
  stories : ∀ (position : Nat) (story : Story), plan.stories[position]? = some story →
    (ledger.getStory story.id).isSome → story.id ∉ retainedIDs ledger plan →
    story.ReadsSame (retainedChanges ledger plan) position
      (storiesBefore (keptStories ledger plan) plan.stories position)
  goals : ∀ goal ∈ plan.goals, (ledger.getGoal goal.id).isSome → goal.id ∉ retainedIDs ledger plan →
    reviewedGoalEqual goal.row (goal.rewrite (retainedChanges ledger plan)).row = true

/-- Every listed row that is persisted is still there, and neither substitution
changes a persisted identifier. -/
structure KeepsPersisted (ledger : Ledger) (plan result : ProjectPlan) : Prop where
  goals : ∀ goal ∈ plan.goals, (ledger.getGoal goal.id).isSome → goal.id ∈ result.goals.map Goal.id
  stories : ∀ story ∈ plan.stories, (ledger.getStory story.id).isSome →
    story.id ∈ result.stories.map Story.id
  tasks : ∀ story ∈ plan.stories, ∀ task ∈ story.tasks, (ledger.getTask task.id).isSome →
    task.id ∈ result.stories.flatMap fun kept => kept.tasks.map Task.id
  references : ∀ id ∈ ledger.ids, rename (continuationRefs ledger plan) id = id ∧
      rename (remapRefs ledger (continueRetainedWork ledger plan)) id = id

theorem kept_mem_retainedIDs (member : id ∈ (keptStories ledger plan).ids) :
    id ∈ retainedIDs ledger plan := by
  obtain ⟨story, storyMem, named⟩ := mem_map.mp member
  exact mem_append_left _ (mem_rowIDs.mpr ⟨story, storyMem, .inl named⟩)

theorem goal_mem_retainedIDs (listed : goal ∈ plan.goals) (continued : goal.isContinued ledger plan)
    (persisted : (ledger.getGoal goal.id).isSome) : goal.id ∈ retainedIDs ledger plan :=
  mem_append_right _ (mem_continuedGoalIDs.mpr ⟨goal, listed, rfl, continued, persisted⟩)

section

variable (unique : uniquePlanIDs plan)
include unique

theorem own_goal (listed : goal ∈ plan.goals) (persisted : (ledger.getGoal goal.id).isSome)
    (own : goal.id ∉ retainedIDs ledger plan) : retainedGoal ledger plan goal = goal ∧ ∀ old,
    ledger.getGoal goal.id = some old → reviewedGoalEqual old goal.row := by
  have notContinued : goal.isContinued ledger plan = false := by
    by_contra continued
    exact own (goal_mem_retainedIDs listed (by simpa using continued) persisted)
  refine ⟨by simp [retainedGoal, notContinued], fun old found => goal_same unique listed ?_ found⟩
  rw [Goal.isContinued, Bool.or_eq_false_iff] at notContinued
  exact notContinued.1

variable [ledger.Consistent]

theorem goal_rewrite_changes (goal : Goal) :
    goal.rewrite (continuationRefs ledger plan) = goal.rewrite (retainedChanges ledger plan) :=
  Goal.rewrite_congr (rename_continuationRefs unique) goal

theorem story_rewrite_changes (story : Story) :
    story.rewrite (continuationRefs ledger plan) = story.rewrite (retainedChanges ledger plan) :=
  Story.rewrite_congr (rename_continuationRefs unique) story

theorem task_rewrite_changes (task : Task) :
    task.rewrite (continuationRefs ledger plan) = task.rewrite (retainedChanges ledger plan) :=
  Task.rewrite_congr (rename_continuationRefs unique) task

theorem plain_story_placed (some : keptStories ledger plan ≠ [])
    (listed : plan.stories[position]? = Option.some story)
    (plain : story.id ∉ (keptStories ledger plan).ids)
    (persisted : (ledger.getStory story.id).isSome) (tasked : story.tasks ≠ []) :
    (carriedPlan ledger plan).stories[storiesBefore (keptStories ledger plan) plan.stories
      position]? = Option.some story := by
  obtain ⟨_, all, alone⟩ := plain_story_tasks unique (mem_of_getElem? listed) plain persisted
  have layout := continuationPass_layout ledger (storyRows_nodup unique)
  rw [carriedPlan_stories some]
  have placed := layout.place listed plain (all ▸ tasked) alone
  rwa [newWork_eq_self all] at placed

theorem place_unique (some : keptStories ledger plan ≠ []) {first second : Nat}
    (firstPlace : (carriedPlan ledger plan).stories[first]? = Option.some story)
    (secondPlace : (carriedPlan ledger plan).stories[second]? = Option.some story)
    (plain : story.id ∉ (keptStories ledger plan).ids) : first = second := by
  have layout := continuationPass_layout ledger (storyRows_nodup unique)
  have spec := workStories_spec ledger (keptStories ledger plan)
    (append_nil plan.stories).symm (storyRows_nodup unique)
  rw [carriedPlan_stories some] at firstPlace secondPlace
  have distinct : (continuationPass ledger plan).stories.Pairwise fun one other =>
      one.id ∉ (keptStories ledger plan).ids → other.id ∉ (keptStories ledger plan).ids →
        one.id ≠ other.id := by
    have work := pairwise_map.mp spec.unique
    rw [← layout.work, pairwise_filter] at work
    simpa using work
  rw [pairwise_iff_getElem] at distinct
  obtain ⟨firstBound, isFirst⟩ := List.getElem?_eq_some_iff.mp firstPlace
  obtain ⟨secondBound, isSecond⟩ := List.getElem?_eq_some_iff.mp secondPlace
  rcases Nat.lt_trichotomy first second with less | same | greater
  · have apart := distinct first second firstBound secondBound less
    rw [isFirst, isSecond] at apart
    exact absurd rfl (apart plain plain)
  · exact same
  · have apart := distinct second first secondBound firstBound greater
    rw [isFirst, isSecond] at apart
    exact absurd rfl (apart plain plain)

theorem rename_persisted (numbering : ∀ id ∈ ledger.ids, id ∉ names (retainedChanges ledger plan))
    (persisted : id ∈ ledger.ids) : rename (continuationRefs ledger plan) id = id := by
  rw [rename_continuationRefs unique]
  exact rename_of_not_mem (numbering id persisted)

theorem getElem?_continued {place : Nat} {shown : Story}
    (found : (continueRetainedWork ledger plan).stories[place]? = some shown)
    (own : shown.id ∉ (continueRetainedWork ledger plan).continues) :
    ∃ story ∈ ownStories (carriedPlan ledger plan), (carriedPlan ledger plan).stories[place]? =
        some story ∧ shown = story.rewrite (continuationRefs ledger plan) := by
  rw [continueRetainedWork_eq unique] at found own
  have mapped : ((carriedPlan ledger plan).stories.map (Story.render
      (carriedPlan ledger plan).continues (continuationRefs ledger plan)))[place]? =
      some shown := found
  rw [getElem?_map] at mapped
  obtain ⟨story, placed, rfl⟩ := Option.map_eq_some_iff.mp mapped
  rcases render_story_cases (continuationRefs ledger plan)
    (mem_of_getElem? placed) with ⟨continued, same⟩ | ⟨isOwn, rewritten⟩
  · rw [same] at own
    exact absurd continued own
  · exact ⟨story, isOwn, placed, rewritten⟩

theorem own_story_source (some : keptStories ledger plan ≠ [])
    (own : story ∈ ownStories (carriedPlan ledger plan)) :
    story.id ∉ (keptStories ledger plan).ids ∧ story.id ∉ retainedIDs ledger plan ∧
      rename (continuationRefs ledger plan) story.id = story.id ∧
      ∃ listed ∈ plan.stories, WorkOf ledger plan (keptStories ledger plan) listed story := by
  have member := (ownStories_carriedPlan unique some).subset own
  have notRetained : story.id ∉ retainedIDs ledger plan := fun retained =>
    (mem_ownStories.mp own).2 ((mem_continues unique).mpr retained)
  obtain ⟨listed, listedMem, isWork⟩ := work_source unique member
  exact ⟨fun isKept => notRetained (kept_mem_retainedIDs isKept), notRetained,
    rename_work unique listedMem isWork, listed, listedMem, isWork⟩

theorem work_eq_listed (listedMem : listed ∈ plan.stories)
    (isWork : WorkOf ledger plan (keptStories ledger plan) listed story)
    (persisted : (ledger.getStory story.id).isSome) :
    story = listed ∧ listed.id ∉ (keptStories ledger plan).ids := by
  rcases isWork.identity with ⟨plain, rfl⟩ | ⟨_, _, unpersisted, _⟩
  · obtain ⟨_, all, _⟩ := plain_story_tasks unique listedMem plain persisted
    exact ⟨newWork_eq_self all, plain⟩
  · exact absurd (Ledger.mem_ids_of_getStory persisted) unpersisted

theorem Undisturbed.quiet
    (some : keptStories ledger plan ≠ []) (undisturbed : Undisturbed ledger plan) (id : String) :
    ¬ Flagged ledger (continueRetainedWork ledger plan) id := by
  intro flagged
  cases flagged with
  | goal listed compared differs =>
    rw [continueRetainedWork_eq unique] at listed compared
    obtain ⟨carried, carriedMem, rfl⟩ := render_goal_own listed compared
    obtain ⟨carriedListed, own⟩ := mem_comparedGoals.mp carriedMem
    obtain ⟨goal, goalMem, rfl, sameID⟩ := carriedPlan_goal_listed carriedListed
    have notRetained : goal.id ∉ retainedIDs ledger plan := fun retained =>
      own (sameID ▸ (mem_continues unique).mpr retained)
    obtain ⟨old, found, unequal⟩ := differs
    rw [Goal.rewrite_id, ← sameID, rename_goal unique goalMem] at found
    have persisted := Option.isSome_of_eq_some found
    obtain ⟨carries, same⟩ := own_goal unique goalMem persisted notRetained
    rw [carries, goal_rewrite_changes unique, reviewedGoalEqual_congr (same old found),
      undisturbed.goals goal goalMem persisted notRetained] at unequal
    cases unequal
  | story placed compared differs =>
    obtain ⟨story, own, carriedPlace, rfl⟩ := getElem?_continued unique placed compared
    obtain ⟨plain, notRetained, sameID, listed, listedMem, isWork⟩ :=
      own_story_source unique some own
    obtain ⟨old, found, unequal⟩ := differs
    rw [Story.rewrite_id, sameID] at found
    have persisted := Option.isSome_of_eq_some found
    obtain ⟨rfl, _⟩ := work_eq_listed unique listedMem isWork persisted
    obtain ⟨position, atPosition⟩ := mem_iff_getElem?.mp listedMem
    have tasked := undisturbed.tasked story listedMem persisted plain
    obtain rfl := place_unique unique some carriedPlace
      (plain_story_placed unique some atPosition plain persisted tasked) plain
    have reads := (undisturbed.stories position story atPosition persisted notRetained).1
    rw [story_rewrite_changes unique,
      reviewedStoryEqual_congr (story_same unique atPosition plain found), reads] at unequal
    cases unequal
  | task member compared owned differs =>
    obtain ⟨place, placed⟩ := mem_iff_getElem?.mp member
    obtain ⟨story, own, _, rfl⟩ := getElem?_continued unique placed compared
    obtain ⟨plain, notRetained, sameID, listed, listedMem, isWork⟩ :=
      own_story_source unique some own
    rw [Story.rewrite_tasks, getElem?_map] at owned
    obtain ⟨task, atIndex, rfl⟩ := Option.map_eq_some_iff.mp owned
    obtain ⟨old, found, unequal⟩ := differs
    rw [Task.rewrite_id] at found
    -- The number of a new task is not persisted, so this one kept its own.
    have compared := task_mem_comparedIDs own (mem_of_getElem? atIndex)
    have keptID : rename (continuationRefs ledger plan) task.id = task.id := by
      rcases compared_change unique some compared with same | ⟨_, _, _, _, _, _, _, _, absent⟩
      · exact same
      · exact absurd (Ledger.mem_ids_of_getTask (Option.isSome_of_eq_some found)) absent
    rw [keptID] at found
    have fresh : task ∈ freshTasks (keptStories ledger plan) listed :=
      isWork.tasks ▸ mem_of_getElem? atIndex
    obtain ⟨inListed, notHeld⟩ := mem_freshTasks.mp fresh
    obtain ⟨index', atIndex'⟩ := mem_iff_getElem?.mp inListed
    obtain ⟨owner, listedPlain, _⟩ := fresh_task_same unique listedMem atIndex' notHeld found
    obtain ⟨row, isRow, _⟩ := Ledger.getStory_of_getTask found
    rw [owner] at isRow
    have persisted := Option.isSome_of_eq_some isRow
    have sameStory : story = listed := by
      rcases isWork.identity with ⟨_, isNew⟩ | ⟨continued, _⟩
      · obtain ⟨_, all, _⟩ := plain_story_tasks unique listedMem listedPlain persisted
        rw [isNew, newWork_eq_self all]
      · exact absurd continued listedPlain
    subst sameStory
    obtain ⟨position, atPosition⟩ := mem_iff_getElem?.mp listedMem
    obtain ⟨_, _, same⟩ := fresh_task_same unique listedMem atIndex notHeld found
    have reads := (undisturbed.stories position story atPosition persisted notRetained).2
      _ task atIndex
    rw [Story.rewrite_id, sameID, task_rewrite_changes unique, reviewedTaskEqual_congr same,
      reads] at unequal
    cases unequal

theorem quiet_of_nothing (nothing : keptStories ledger plan = [])
    (id : String) : ¬ Flagged ledger (continueRetainedWork ledger plan) id := by
  have noRefs : continuationRefs ledger plan = [] := by rw [continuationRefs, if_pos nothing]
  have result : continueRetainedWork ledger plan = carriedPlan ledger plan := by
    rw [continueRetainedWork_eq unique, noRefs, rewritePlanRefs_nil]
  have stories : (continueRetainedWork ledger plan).stories = plan.stories := by
    rw [result, carriedPlan, if_pos nothing]
  have plain (storyID : String) : storyID ∉ (keptStories ledger plan).ids := by
    simp [nothing, Kept.ids]
  intro flagged
  cases flagged with
  | goal listed compared differs =>
    rw [result] at listed
    obtain ⟨goal, goalMem, rfl, sameID⟩ := carriedPlan_goal_listed listed
    obtain ⟨old, found, unequal⟩ := differs
    rw [← sameID] at found compared
    obtain ⟨carries, same⟩ := own_goal unique goalMem (Option.isSome_of_eq_some found)
      fun retained => compared ((mem_continues unique).mpr retained)
    rw [carries, same old found] at unequal
    cases unequal
  | story listed compared differs =>
    rw [stories] at listed
    obtain ⟨old, found, unequal⟩ := differs
    rw [story_same unique listed (plain _) found] at unequal
    cases unequal
  | task listed compared owned differs =>
    rw [stories] at listed
    obtain ⟨old, found, unequal⟩ := differs
    have notHeld (taskID : String) : retainedStory (keptStories ledger plan) taskID = none := by
      simp [retainedStory, nothing]
    rw [(fresh_task_same unique listed owned (notHeld _) found).2.2] at unequal
    cases unequal

end

theorem remapContentIDs_of_quiet {result : ProjectPlan} (quiet : ∀ id, ¬ Flagged ledger result id) :
    remapRefs ledger result = [] ∧ remapContentIDs ledger result = result := by
  have noRefs : remapRefs ledger result = [] := remapRefs_eq_nil fun id => by
    rw [← Bool.not_eq_true]
    exact fun conflicting => quiet id (flagged_of_conflicts conflicting)
  exact ⟨noRefs, by rw [remapContentIDs, noRefs, rewritePlanRefs_nil]⟩

theorem continued_goal_ids (ledger : Ledger) [ledger.Consistent] (unique : uniquePlanIDs plan) :
    (continueRetainedWork ledger plan).goals.map Goal.id = plan.goals.map Goal.id := by
  rw [continueRetainedWork_eq unique]
  simp only [rewritePlanRefs, carriedPlan, map_map]
  apply map_congr_left
  intro goal listed
  simp only [Function.comp_apply, Goal.render, retainedGoal_id]
  split
  · exact retainedGoal_id ledger plan goal
  · rw [Goal.rewrite_id, retainedGoal_id, rename_goal unique listed]

section

variable [ledger.Consistent] (unique : uniquePlanIDs plan)
include unique

theorem numbering_of_keeps {result : ProjectPlan} (keeps : KeepsPersisted ledger plan result)
    (persisted : id ∈ ledger.ids) : id ∉ names (retainedChanges ledger plan) := by
  intro member
  obtain ⟨⟨_, value⟩, changed, rfl⟩ := mem_map.mp member
  have entry := (find?_continuationRefs unique).mpr changed
  have same := (keeps.references _ persisted).1
  rw [rename, entry, Option.getD_some] at same
  exact (retainedChanges_cases unique changed).1 same

theorem own_goal_readsSame (quiet : ∀ id, ¬ Flagged ledger (continueRetainedWork ledger plan) id)
    (listed : goal ∈ plan.goals) (persisted : (ledger.getGoal goal.id).isSome)
    (notRetained : goal.id ∉ retainedIDs ledger plan) :
    reviewedGoalEqual goal.row (goal.rewrite (retainedChanges ledger plan)).row = true := by
  obtain ⟨old, found⟩ := Option.isSome_iff_exists.mp persisted
  obtain ⟨carries, same⟩ := own_goal unique listed persisted notRetained
  have own : goal.id ∉ (continueRetainedWork ledger plan).continues := fun continued =>
    notRetained ((mem_continues unique).mp continued)
  have shown : goal.rewrite (continuationRefs ledger plan) ∈
      (continueRetainedWork ledger plan).goals := by
    rw [continueRetainedWork_eq unique]
    refine mem_map.mpr ⟨goal, mem_map.mpr ⟨goal, listed, carries⟩, ?_⟩
    exact if_neg own
  rw [← goal_rewrite_changes unique, ← reviewedGoalEqual_congr (same old found)]
  by_contra unequal
  refine quiet _ (Flagged.goal shown ?_ ⟨old, ?_, by simpa using unequal⟩)
  · rw [Goal.rewrite_id, rename_goal unique listed]
    exact own
  · rw [Goal.rewrite_id, rename_goal unique listed]
    exact found

section

variable (some : keptStories ledger plan ≠ [])
include some

theorem continued_story_id (member : story ∈ (carriedPlan ledger plan).stories) :
    (story.render (carriedPlan ledger plan).continues (continuationRefs ledger plan)).id =
      story.id := by
  rcases render_story_cases (continuationRefs ledger plan) member with
    ⟨_, same⟩ | ⟨own, rewritten⟩
  · rw [same]
  · rw [rewritten, Story.rewrite_id, (own_story_source unique some own).2.2.1]

theorem continued_story_ids :
    (continueRetainedWork ledger plan).stories.map Story.id =
      (carriedPlan ledger plan).stories.map Story.id := by
  rw [continueRetainedWork_eq unique]
  simp only [rewritePlanRefs, map_map]
  exact map_congr_left fun story member => continued_story_id unique some member

theorem kept_present (listedMem : listed ∈ plan.stories) (id : String)
    (touched : id ∈ touchedStories (keptStories ledger plan) listed) :
    ∃ story ∈ (continueRetainedWork ledger plan).stories, story.id = id ∧ Carries ledger story := by
  have layout := continuationPass_layout ledger (storyRows_nodup unique)
  have emitted := (layout.emitted id).mpr (mem_flatMap.mpr ⟨listed, listedMem, touched⟩)
  obtain ⟨story, member, named⟩ := mem_map.mp (layout.present id emitted)
  have isKept : story.id ∈ (keptStories ledger plan).ids :=
    named ▸ touchedStories_kept (keptStories_fromLedger ledger plan) touched
  refine ⟨story, ?_, named, layout.retained story member isKept⟩
  rw [continueRetainedWork_eq unique]
  rw [← carriedPlan_stories some] at member
  refine mem_map.mpr ⟨story, member, ?_⟩
  exact if_pos (kept_mem_continues unique isKept)

theorem work_present
    (listedMem : listed ∈ plan.stories) (fresh : freshTasks (keptStories ledger plan) listed ≠ []) :
    ∃ story ∈ (carriedPlan ledger plan).stories,
      WorkOf ledger plan (keptStories ledger plan) listed story := by
  have layout := continuationPass_layout ledger (storyRows_nodup unique)
  obtain ⟨story, member, isWork⟩ := (workStories_spec ledger _
    (append_nil plan.stories).symm (storyRows_nodup unique)).every listed listedMem fresh
  rw [← layout.work] at member
  refine ⟨story, ?_, isWork⟩
  rw [carriedPlan_stories some]
  exact (mem_filter.mp member).1

theorem Undisturbed.keeps (undisturbed : Undisturbed ledger plan) :
    KeepsPersisted ledger plan (remapContentIDs ledger (continueRetainedWork ledger plan)) := by
  obtain ⟨noRefs, same⟩ := remapContentIDs_of_quiet (undisturbed.quiet unique some)
  rw [same]
  refine ⟨?_, ?_, ?_, ?_⟩
  · intro goal listed _
    rw [continued_goal_ids ledger unique]
    exact mem_map_of_mem listed
  · intro story listed persisted
    by_cases continued : story.id ∈ (keptStories ledger plan).ids
    · obtain ⟨copy, copyMem, named, _⟩ := kept_present unique some listed
        story.id (by simp [touchedStories, continued])
      exact mem_map.mpr ⟨copy, copyMem, named⟩
    · obtain ⟨_, all, _⟩ := plain_story_tasks unique listed continued persisted
      have tasked := undisturbed.tasked story listed persisted continued
      obtain ⟨work, workMem, isWork⟩ := work_present unique some listed (all ▸ tasked)
      rw [continued_story_ids unique some]
      rcases isWork.identity with ⟨_, rfl⟩ | ⟨isKept, _⟩
      · exact mem_map.mpr ⟨_, workMem, rfl⟩
      · exact absurd isKept continued
  · intro story listed task owned persisted
    cases retained : retainedStory (keptStories ledger plan) task.id with
    | some owner =>
      obtain ⟨copy, copyMem, named, base, found, shape⟩ := kept_present unique some listed
        owner (mem_append_right _ (mem_heldStories.mpr ⟨task, owned, retained⟩))
      obtain ⟨_, row, isRow, owns⟩ :=
        (retainedStory_eq_some (keptStories_fromLedger ledger plan)).mp retained
      refine mem_flatMap.mpr ⟨copy, copyMem, ?_⟩
      obtain ⟨storyRow, isStory, _, names, _⟩ := getStory_of_ledgerStory found
      obtain ⟨same, isSame, lists⟩ := Ledger.getStory_of_getTask isRow
      rw [owns, ← named, isStory] at isSame
      cases isSame
      rw [shape, names]
      exact lists
    | none =>
      have isFresh := mem_freshTasks.mpr ⟨owned, retained⟩
      obtain ⟨work, workMem, isWork⟩ :=
        work_present unique some listed (ne_nil_of_mem isFresh)
      have workTask : task ∈ work.tasks := isWork.tasks ▸ isFresh
      have keptID : rename (continuationRefs ledger plan) task.id = task.id :=
        rename_persisted unique undisturbed.numbering (Ledger.mem_ids_of_getTask persisted)
      rw [continueRetainedWork_eq unique]
      refine mem_flatMap.mpr ⟨_, mem_map_of_mem workMem, ?_⟩
      rcases render_story_cases (continuationRefs ledger plan) workMem with
        ⟨_, sameStory⟩ | ⟨_, rewritten⟩
      · rw [sameStory]
        exact mem_map_of_mem workTask
      · rw [rewritten, Story.rewrite_tasks, map_map]
        exact mem_map.mpr ⟨task, workTask, keptID⟩
  · intro id persisted
    rw [noRefs, rename_nil]
    exact ⟨rename_persisted unique undisturbed.numbering persisted, rfl⟩

theorem tasked_of_keeps (keeps : KeepsPersisted ledger plan (continueRetainedWork ledger plan))
    (listed : story ∈ plan.stories) (persisted : (ledger.getStory story.id).isSome)
    (plain : story.id ∉ (keptStories ledger plan).ids) : story.tasks ≠ [] := by
  intro empty
  have present := keeps.stories story listed persisted
  rw [continued_story_ids unique some] at present
  obtain ⟨copy, copyMem, named⟩ := mem_map.mp present
  rcases carriedStory_cases unique some copyMem with ⟨isKept, _⟩ | ⟨_, isWork⟩
  · exact plain (named ▸ isKept)
  · obtain ⟨origin, originMem, workOf⟩ := work_source unique isWork
    have persistedCopy : (ledger.getStory copy.id).isSome := named.symm ▸ persisted
    obtain ⟨rfl, _⟩ := work_eq_listed unique originMem workOf persistedCopy
    obtain rfl := inj_on_of_nodup_map (storyRows_split unique).1 originMem listed named
    apply workOf.nonempty
    rw [freshTasks, empty, filter_nil]

theorem own_story_readsSame {position : Nat}
    (quiet : ∀ id, ¬ Flagged ledger (continueRetainedWork ledger plan) id)
    (keeps : KeepsPersisted ledger plan (continueRetainedWork ledger plan))
    (atPosition : plan.stories[position]? = Option.some story)
    (persisted : (ledger.getStory story.id).isSome)
    (notRetained : story.id ∉ retainedIDs ledger plan) :
    story.ReadsSame (retainedChanges ledger plan) position
      (storiesBefore (keptStories ledger plan) plan.stories position) := by
  have numbering : ∀ id ∈ ledger.ids, id ∉ names (retainedChanges ledger plan) :=
    fun _ => numbering_of_keeps unique keeps
  have listed := mem_of_getElem? atPosition
  have plain : story.id ∉ (keptStories ledger plan).ids := fun isKept =>
    notRetained (kept_mem_retainedIDs isKept)
  have own : story.id ∉ (continueRetainedWork ledger plan).continues := fun continued =>
    notRetained ((mem_continues unique).mp continued)
  have sameID : rename (continuationRefs ledger plan) story.id = story.id :=
    rename_persisted unique numbering (Ledger.mem_ids_of_getStory persisted)
  have placed := plain_story_placed unique some atPosition plain persisted
    (tasked_of_keeps unique some keeps listed persisted plain)
  have shown : (continueRetainedWork ledger plan).stories[storiesBefore (keptStories ledger plan)
      plan.stories position]? = Option.some (story.rewrite (continuationRefs ledger plan)) := by
    rw [continueRetainedWork_eq unique]
    change ((carriedPlan ledger plan).stories.map _)[_]? = _
    rw [getElem?_map, placed, Option.map_some]
    exact congrArg Option.some (if_neg own)
  have ownShown : (story.rewrite (continuationRefs ledger plan)).id ∉
      (continueRetainedWork ledger plan).continues := by
    rw [Story.rewrite_id, sameID]
    exact own
  rw [Story.ReadsSame, ← story_rewrite_changes unique]
  constructor
  · obtain ⟨old, found⟩ := Option.isSome_iff_exists.mp persisted
    rw [← reviewedStoryEqual_congr (story_same unique atPosition plain found)]
    by_contra unequal
    refine quiet _ (Flagged.story shown ownShown ⟨old, ?_, by simpa using unequal⟩)
    rw [Story.rewrite_id, sameID]
    exact found
  · intro index task atIndex
    obtain ⟨notHeld, old, found⟩ := (plain_story_tasks unique listed plain persisted).1 task
      (mem_of_getElem? atIndex)
    have sameTask : rename (continuationRefs ledger plan) task.id = task.id :=
      rename_persisted unique numbering
        (Ledger.mem_ids_of_getTask (Option.isSome_of_eq_some found))
    rw [← task_rewrite_changes unique, ← reviewedTaskEqual_congr
      (fresh_task_same unique listed atIndex notHeld found).2.2]
    by_contra unequal
    have inShown : (story.rewrite (continuationRefs ledger plan)).tasks[index]? =
        Option.some (task.rewrite (continuationRefs ledger plan)) := by
      rw [Story.rewrite_tasks, getElem?_map, atIndex, Option.map_some]
    refine quiet _ (Flagged.task (mem_of_getElem? shown) ownShown inShown ⟨old, ?_, ?_⟩)
    · rw [Task.rewrite_id, sameTask]
      exact found
    · rw [Story.rewrite_id, sameID]
      simpa using unequal

theorem undisturbed_of_keeps (keeps : KeepsPersisted ledger plan
      (remapContentIDs ledger (continueRetainedWork ledger plan))) :
    Undisturbed ledger plan := by
  have renamable := continued_renamable unique some
  have quiet (id : String) : ¬ Flagged ledger (continueRetainedWork ledger plan) id := by
    intro flagged
    obtain ⟨old, persisted, moved⟩ := remapRefs_moves renamable
      ((conflicts_iff_flagged renamable.unique).mpr flagged)
    exact moved (keeps.references old persisted).2
  obtain ⟨_, result⟩ := remapContentIDs_of_quiet quiet
  rw [result] at keeps
  exact ⟨fun _ => numbering_of_keeps unique keeps, fun _ => tasked_of_keeps unique some keeps,
    fun _ _ => own_story_readsSame unique some quiet keeps,
    fun _ => own_goal_readsSame unique quiet⟩

end

theorem keeps_of_nothing (nothing : keptStories ledger plan = []) :
    KeepsPersisted ledger plan (remapContentIDs ledger (continueRetainedWork ledger plan)) := by
  obtain ⟨noRefs, same⟩ := remapContentIDs_of_quiet (quiet_of_nothing unique nothing)
  have noChanges : continuationRefs ledger plan = [] := by rw [continuationRefs, if_pos nothing]
  have stories : (continueRetainedWork ledger plan).stories = plan.stories := by
    rw [continueRetainedWork_eq unique, noChanges, rewritePlanRefs_nil, carriedPlan, if_pos nothing]
  rw [same]
  refine ⟨?_, ?_, ?_, ?_⟩
  · intro goal listed _
    rw [continued_goal_ids ledger unique]
    exact mem_map_of_mem listed
  · intro story listed _
    rw [stories]
    exact mem_map_of_mem listed
  · intro story listed task owned _
    rw [stories]
    exact mem_flatMap.mpr ⟨story, listed, mem_map_of_mem owned⟩
  · intro id _
    rw [noRefs, noChanges, rename_nil]
    exact ⟨rfl, rfl⟩

end

/-- A re-plan keeps every persisted identity exactly when it continues nothing
or leaves the unchanged persisted rows undisturbed. -/
theorem preparePlanIDs_keepsPersisted_iff (ledger : Ledger) (plan : ProjectPlan)
    (consistent : ledger.Consistent) (unique : uniquePlanIDs plan = true) :
    (∃ result, preparePlanIDs ledger plan = some result ∧ KeepsPersisted ledger plan result) ↔
      keptStories ledger plan = [] ∨ Undisturbed ledger plan := by
  have prepared : preparePlanIDs ledger plan =
      some (remapContentIDs ledger (continueRetainedWork ledger plan)) := by
    rw [preparePlanIDs, if_pos unique]
  constructor
  · rintro ⟨result, isResult, keeps⟩
    obtain rfl := Option.mem_unique prepared isResult
    by_cases nothing : keptStories ledger plan = []
    · exact .inl nothing
    · exact .inr (undisturbed_of_keeps unique nothing keeps)
  · intro condition
    refine ⟨_, prepared, ?_⟩
    by_cases nothing : keptStories ledger plan = []
    · exact keeps_of_nothing unique nothing
    · exact (condition.resolve_left nothing).keeps unique nothing

def twoStoryLedger : Ledger :=
  { Ledger.empty with
    stories :=
      [{ id := "US-001", title := "Index", tasks := ["T-US-001-001"] },
        { id := "US-002", title := "Query", tasks := ["T-US-002-001"], priority := 1 }]
    tasks :=
      [{ id := "T-US-001-001", storyID := "US-001", title := "Build" },
        { id := "T-US-002-001", storyID := "US-002", title := "Parse" }]
    storiesUnique := by decide
    tasksUnique := by decide }

theorem twoStoryLedger_consistent : twoStoryLedger.Consistent where
  listedTasks := by decide
  ownedTasks := by decide

def addedTaskPlan : ProjectPlan where
  stories :=
    [{ id := "US-001", title := "Index", tasks := [{ id := "T-US-001-001", title := "Build" },
         { id := "T-US-001-002", title := "Refresh" }] },
      { id := "US-002", title := "Query", tasks := [{ id := "T-US-002-001", title := "Parse" }] }]

def repeatedPlan : ProjectPlan where
  stories :=
    [{ id := "US-001", title := "Index", tasks := [{ id := "T-US-001-001", title := "Build" }] },
      { id := "US-002", title := "Query", tasks := [{ id := "T-US-002-001", title := "Parse" }] }]

theorem preparePlanIDs_keeps_repeatedPlan :
    ∃ result, preparePlanIDs twoStoryLedger repeatedPlan = some result ∧
      KeepsPersisted twoStoryLedger repeatedPlan result :=
  (preparePlanIDs_keepsPersisted_iff twoStoryLedger repeatedPlan twoStoryLedger_consistent
    (by decide)).mpr (.inl (by decide))

/-- The continuation story pushes the unchanged story off its place, and the
remapper renames it. -/
theorem preparePlanIDs_renames_persisted : uniquePlanIDs addedTaskPlan = true ∧
      ¬ ∃ result, preparePlanIDs twoStoryLedger addedTaskPlan = some result ∧
        KeepsPersisted twoStoryLedger addedTaskPlan result := by
  refine ⟨by decide, ?_⟩
  rintro ⟨result, _, keeps⟩
  exact absurd (keeps.references "US-002" (by decide)).2 (by decide)

end OpenExec.Planner
