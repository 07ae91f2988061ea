import OpenExec.PlanRemapping
import Mathlib.Data.Finset.Card

/-!
# The remapping loop reaches a fixed point

Every round moves an identifier that was still in place, so the loop ends, and it ends
on a plan none of whose compared rows differs from its persisted row.
-/

namespace OpenExec.Planner

open FiniteRenaming Release GoStrings List ProjectPlan Story

variable {story : Story} {id old : String} {refs : Refs} {conflicts : String → Bool}

variable {goal : Goal} {task : Task} {key next : String} {ρ : Type} {taken : List String}
  {plan : ProjectPlan}

/-- The rows that may be renamed have distinct identifiers, none of them empty,
and no task of a continued story shares one. -/
structure Renamable (plan : ProjectPlan) : Prop where
  unique : (comparedIDs plan).Nodup
  nonempty : ∀ id ∈ comparedIDs plan, id ≠ ""
  apart : ∀ story ∈ plan.stories, story.id ∈ plan.continues →
    ∀ task ∈ story.tasks, task.id ∉ comparedIDs plan

section

variable {plan : ProjectPlan}

theorem goal_mem_comparedIDs (listed : goal ∈ plan.goals) (compared : goal.id ∉ plan.continues) :
    goal.id ∈ comparedIDs plan :=
  mem_append_left _ (mem_map_of_mem (mem_comparedGoals.mpr ⟨listed, compared⟩))

theorem story_mem_comparedIDs (own : story ∈ ownStories plan) : story.id ∈ comparedIDs plan :=
  mem_append_right _ (mem_storyRowIDs.mpr ⟨story, own, .inl rfl⟩)

theorem task_mem_comparedIDs (own : story ∈ ownStories plan) (owned : task ∈ story.tasks) :
    task.id ∈ comparedIDs plan :=
  mem_append_right _ (mem_storyRowIDs.mpr ⟨story, own, .inr ⟨task, owned, rfl⟩⟩)

theorem comparedIDs_subset_ids : comparedIDs plan ⊆ plan.ids := by
  intro id member
  rcases mem_append.mp member with goalMem | rowMem
  · obtain ⟨goal, compared, rfl⟩ := mem_map.mp goalMem
    exact goal_mem_ids (mem_comparedGoals.mp compared).1
  · obtain ⟨story, own, rfl | ⟨task, owned, rfl⟩⟩ := mem_storyRowIDs.mp rowMem
    · exact story_mem_ids (mem_ownStories.mp own).1
    · exact task_mem_ids (mem_ownStories.mp own).1 owned

section

variable (renamable : Renamable plan)
include renamable

theorem Renamable.storyRows_nodup : ((ownStories plan).map Story.id ++
      (ownStories plan).flatMap fun story => story.tasks.map Task.id).Nodup :=
  (storyRowIDs_perm _).nodup_iff.mp (nodup_append'.mp renamable.unique).2.1

theorem Renamable.goal_ne_row (compared : goal ∈ comparedGoals plan)
    (row : id ∈ ProjectPlan.storyRowIDs (ownStories plan)) :
    goal.id ≠ id := fun same =>
  (nodup_append'.mp renamable.unique).2.2 (mem_map_of_mem compared) (same ▸ row)

theorem Renamable.story_ne_task {owner : Story}
    (own : story ∈ ownStories plan) (ownerOwn : owner ∈ ownStories plan)
    (owned : task ∈ owner.tasks) : story.id ≠ task.id := fun same =>
  (nodup_append'.mp renamable.storyRows_nodup).2.2 (mem_map_of_mem own)
    (same ▸ mem_flatMap.mpr ⟨owner, ownerOwn, mem_map_of_mem owned⟩)

theorem Renamable.ownStories_pairwise :
    (ownStories plan).Pairwise fun first second => first.id ≠ second.id :=
  pairwise_map.mp (nodup_append'.mp renamable.storyRows_nodup).1

theorem Renamable.tasks_nodup (own : story ∈ ownStories plan) : (story.tasks.map Task.id).Nodup :=
  (nodup_flatMap.mp (nodup_append'.mp renamable.storyRows_nodup).2.1).1 story own

end

theorem filter_map_unless {ρ : Type} {rows : List ρ} {key : ρ → String} {kept : List String}
    {change : ρ → ρ} (apart : ∀ row ∈ rows, key row ∉ kept → key (change row) ∉ kept) :
    (rows.map fun row => if key row ∈ kept then row else change row).filter
        (fun row => key row ∉ kept) = (rows.filter fun row => key row ∉ kept).map change := by
  induction rows with
  | nil => rfl
  | cons row rest ih =>
    have later := ih fun other member => apart other (mem_cons_of_mem _ member)
    by_cases isKept : key row ∈ kept
    · simpa [isKept] using later
    · simpa [isKept, apart row mem_cons_self isKept] using later

theorem comparedIDs_rewritePlanRefs
    (goals : ∀ goal ∈ comparedGoals plan, rename refs goal.id ∉ plan.continues)
    (stories : ∀ story ∈ ownStories plan, rename refs story.id ∉ plan.continues) :
    comparedIDs (rewritePlanRefs plan refs) = (comparedIDs plan).map (rename refs) := by
  have renderedGoals : comparedGoals (rewritePlanRefs plan refs) =
      (comparedGoals plan).map (Goal.rewrite refs) :=
    filter_map_unless fun goal listed own => goals goal (mem_comparedGoals.mpr ⟨listed, own⟩)
  have renderedStories : ownStories (rewritePlanRefs plan refs) =
      (ownStories plan).map (rewrite refs) :=
    filter_map_unless fun story listed own => stories story (mem_ownStories.mpr ⟨listed, own⟩)
  rw [comparedIDs, comparedIDs, renderedGoals, renderedStories, map_append, map_map, map_map]
  congr 1
  simp only [storyRowIDs, flatMap_map, map_flatMap, map_cons, rewrite_id, rewrite_tasks, map_map]
  rfl

end

structure Consistent (ledger : Ledger) (raw : ProjectPlan) (state : RemapState) : Prop where
  separated : Separated raw.ids state.refs
  changed : ∀ id ∈ names state.refs, id ∈ raw.ids
  reserved : ∀ id ∈ raw.ids, id ∈ state.used
  recorded : ∀ {id value : String}, find? state.refs id = some value → value ∈ state.used
  freeGoal : ∀ goal ∈ comparedGoals raw, ∀ {value : String},
    find? state.refs goal.id = some value → ledger.getGoal value = none
  freeStory : ∀ story ∈ ownStories raw, ∀ {value : String},
    find? state.refs story.id = some value → ledger.getStory value = none
  freeTask : ∀ story ∈ ownStories raw, ∀ task ∈ story.tasks, ∀ {value : String},
    find? state.refs task.id = some value → ledger.getTask value = none
  cause : ∀ id ∈ names state.refs, id ∈ ledger.ids ∨ ∃ story ∈ raw.stories,
    story.id ∈ names state.refs ∧ id ∈ story.tasks.map Task.id

structure Extends (state next : RemapState) : Prop where
  names : names state.refs ⊆ names next.refs
  used : state.used ⊆ next.used

variable (state : RemapState)

theorem Extends.refl : Extends state state :=
  ⟨fun _ member => member, fun _ member => member⟩

theorem Extends.trans {first second third : RemapState} (earlier : Extends first second)
    (later : Extends second third) : Extends first third :=
  ⟨fun _ member => later.names (earlier.names member),
    fun _ member => later.used (earlier.used member)⟩

def RemapState.move (key value : String) : RemapState where
  used := value :: state.used
  refs := assign state.refs key value

theorem extends_move (key value : String) : Extends state (state.move key value) :=
  ⟨fun _ member => mem_names_assign.mpr (.inr member), fun _ member => mem_cons_of_mem _ member⟩

section

variable {ledger : Ledger} {raw : ProjectPlan} {state : RemapState}

theorem consistent_initial (ledger : Ledger) (raw : ProjectPlan) :
    Consistent ledger raw { refs := [], used := raw.ids } where
  separated := separated_nil _
  changed := by simp [names]
  reserved := fun _ member => member
  recorded := by simp
  freeGoal := by simp
  freeStory := by simp
  freeTask := by simp
  cause := by simp [names]

theorem Consistent.move (consistent : Consistent ledger raw state) {value : String}
    (keyMem : key ∈ raw.ids) (fresh : value ∉ state.used)
    (goal : ∀ goal ∈ comparedGoals raw, goal.id = key → ledger.getGoal value = none)
    (story : ∀ story ∈ ownStories raw, story.id = key → ledger.getStory value = none)
    (task : ∀ story ∈ ownStories raw, ∀ task ∈ story.tasks, task.id = key →
      ledger.getTask value = none) (cause : key ∈ ledger.ids ∨ ∃ story ∈ raw.stories,
      story.id ∈ names state.refs ∧ key ∈ story.tasks.map Task.id) :
    Consistent ledger raw (state.move key value) := by
  -- An entry of the new table is the new one or an old one.
  have entries {id found : String} (entry : find? (state.move key value).refs id = some found) :
      (id = key ∧ found = value) ∨ find? state.refs id = some found := by
    rw [RemapState.move, find?_assign] at entry
    by_cases moved : id = key
    · rw [if_pos moved] at entry
      exact .inl ⟨moved, (Option.some.inj entry).symm⟩
    · rw [if_neg moved] at entry
      exact .inr entry
  have kept {id : String} (earlier : id ∈ ledger.ids ∨ ∃ story ∈ raw.stories,
      story.id ∈ names state.refs ∧ id ∈ story.tasks.map Task.id) :
      id ∈ ledger.ids ∨ ∃ story ∈ raw.stories,
        story.id ∈ names (state.move key value).refs ∧ id ∈ story.tasks.map Task.id :=
    earlier.imp_right fun ⟨row, listed, named, owned⟩ =>
      ⟨row, listed, (extends_move state key value).names named, owned⟩
  refine ⟨?_, ?_, ?_, ?_, ?_, ?_, ?_, ?_⟩
  · refine consistent.separated.assign ?_ fun member => fresh (consistent.reserved _ member)
    exact fun other entry => fresh (consistent.recorded entry)
  · intro id member
    rcases mem_names_assign.mp member with rfl | old
    · exact keyMem
    · exact consistent.changed id old
  · exact fun id member => mem_cons_of_mem _ (consistent.reserved id member)
  · intro id found entry
    rcases entries entry with ⟨_, rfl⟩ | old
    · exact mem_cons_self
    · exact mem_cons_of_mem _ (consistent.recorded old)
  · intro row compared found entry
    rcases entries entry with ⟨same, rfl⟩ | old
    · exact goal row compared same
    · exact consistent.freeGoal row compared old
  · intro row own found entry
    rcases entries entry with ⟨same, rfl⟩ | old
    · exact story row own same
    · exact consistent.freeStory row own old
  · intro row own item owned found entry
    rcases entries entry with ⟨same, rfl⟩ | old
    · exact task row own item owned same
    · exact consistent.freeTask row own item owned old
  · intro id member
    rcases mem_names_assign.mp member with rfl | old
    · exact kept cause
    · exact kept (consistent.cause id old)

/-- An incoming identifier that only tasks carry, one of them in a story `old`. -/
structure TaskKey (raw : ProjectPlan) (old key : String) : Prop where
  owned : ∃ story ∈ raw.stories, story.id = old ∧ key ∈ story.tasks.map Task.id
  notGoal : ∀ goal ∈ comparedGoals raw, goal.id ≠ key
  notStory : ∀ story ∈ ownStories raw, story.id ≠ key

theorem TaskKey.listed (taskKey : TaskKey raw old key) : key ∈ raw.ids := by
  obtain ⟨story, listed, _, owned⟩ := taskKey.owned
  obtain ⟨task, member, rfl⟩ := mem_map.mp owned
  exact task_mem_ids listed member

theorem draggedTaskID_fresh {used : List String}
    (moved : draggedTaskID ledger used old next id ≠ id) : draggedTaskID ledger used old next id ∉
    used ∧ ledger.getTask (draggedTaskID ledger used old next id) = none := by
  simp only [draggedTaskID] at moved ⊢
  generalize (if hasPrefix id ("T-" ++ old ++ "-") then
    "T-" ++ next ++ trimPrefix id ("T-" ++ old) else id) = target at moved ⊢
  by_cases occupied : (target ≠ id ∧ target ∈ used) ∨ (ledger.getTask target).isSome
  · simp only [if_pos occupied] at moved ⊢
    have free := nextFreeTaskID_not_mem target (used ++ ledger.ids)
    simp only [mem_append, not_or] at free
    exact ⟨free.1, Ledger.getTask_eq_none free.2⟩
  · simp only [if_neg occupied] at moved ⊢
    refine ⟨fun member => occupied (.inl ⟨moved, member⟩), ?_⟩
    exact Option.not_isSome_iff_eq_none.mp fun persisted => occupied (.inr persisted)

theorem dragTask_cases (ledger : Ledger) (old next : String) (state : RemapState) (task : Task) :
    dragTask ledger old next state task = state ∨
      ∃ value, value ∉ state.used ∧ ledger.getTask value = none ∧
        dragTask ledger old next state task = state.move (source state.refs task.id) value := by
  by_cases same : draggedTaskID ledger state.used old next task.id = task.id
  · exact .inl (by simp [dragTask, same])
  · obtain ⟨fresh, free⟩ := draggedTaskID_fresh same
    exact .inr ⟨_, fresh, free, by simp [dragTask, same, RemapState.move]⟩

theorem dragTasks_consistent (old next : String) {key : Task → String} {tasks : List Task}
    (consistent : Consistent ledger raw state) (moved : old ∈ names state.refs)
    (shown : ∀ task ∈ tasks, task.id ∈ state.used)
    (keyed : ∀ task ∈ tasks, source state.refs task.id = key task)
    (taskKeys : ∀ task ∈ tasks, TaskKey raw old (key task))
    (distinct : tasks.Pairwise fun first second => second.id ∈ raw.ids ∨ key first ≠ key second) :
    Consistent ledger raw (tasks.foldl (dragTask ledger old next) state) ∧
      Extends state (tasks.foldl (dragTask ledger old next) state) := by
  induction tasks generalizing state with
  | nil => exact ⟨consistent, Extends.refl state⟩
  | cons task tasks ih =>
    obtain ⟨headDistinct, tailDistinct⟩ := pairwise_cons.mp distinct
    rcases dragTask_cases ledger old next state task with same | dragged
    · rw [foldl_cons, same]
      exact ih consistent moved (fun later member => shown later (mem_cons_of_mem _ member))
        (fun later member => keyed later (mem_cons_of_mem _ member))
        (fun later member => taskKeys later (mem_cons_of_mem _ member)) tailDistinct
    · obtain ⟨value, fresh, free, dragged⟩ := dragged
      have taskKey := taskKeys task mem_cons_self
      rw [keyed task mem_cons_self] at dragged
      have movedConsistent : Consistent ledger raw (state.move (key task) value) := by
        obtain ⟨owner, listed, rfl, owned⟩ := taskKey.owned
        refine consistent.move taskKey.listed fresh ?_ ?_ (fun _ _ _ _ _ => free)
          (.inr ⟨owner, listed, moved, owned⟩)
        · exact fun goal compared same => absurd same (taskKey.notGoal goal compared)
        · exact fun story own same => absurd same (taskKey.notStory story own)
      -- The tasks still to come are read back to the same incoming identifiers.
      have tailKeyed : ∀ later ∈ tasks,
          source (state.move (key task) value).refs later.id = key later := by
        intro later member
        have laterKeyed := keyed later (mem_cons_of_mem _ member)
        rcases headDistinct later member with incoming | different
        · rw [movedConsistent.separated.source_of_mem incoming, ← laterKeyed,
            consistent.separated.source_of_mem incoming]
        · rw [← laterKeyed] at different ⊢
          refine source_assign ?_ different
          exact fun same => fresh (same ▸ shown later (mem_cons_of_mem _ member))
      rw [foldl_cons, dragged]
      obtain ⟨finallyConsistent, extended⟩ := ih movedConsistent
        ((extends_move state _ _).names moved)
        (fun later member =>
          mem_cons_of_mem _ (shown later (mem_cons_of_mem _ member)))
        tailKeyed (fun later member => taskKeys later (mem_cons_of_mem _ member))
        tailDistinct
      exact ⟨finallyConsistent, (extends_move state _ _).trans extended⟩

theorem render_goal_own {shown : Goal} (listed : shown ∈ (rewritePlanRefs raw refs).goals)
    (compared : shown.id ∉ raw.continues) :
    ∃ goal ∈ comparedGoals raw, shown = goal.rewrite refs := by
  obtain ⟨goal, member, rfl⟩ := mem_map.mp listed
  by_cases continued : goal.id ∈ raw.continues
  · rw [Goal.render, if_pos continued] at compared
    exact absurd continued compared
  · exact ⟨goal, mem_comparedGoals.mpr ⟨member, continued⟩, by rw [Goal.render, if_neg continued]⟩

theorem render_story_cases (refs : Refs) (listed : story ∈ raw.stories) :
    (story.id ∈ raw.continues ∧ story.render raw.continues refs = story) ∨
      (story ∈ ownStories raw ∧ story.render raw.continues refs = story.rewrite refs) := by
  by_cases continued : story.id ∈ raw.continues
  · exact .inl ⟨continued, by rw [render, if_pos continued]⟩
  · exact .inr ⟨mem_ownStories.mpr ⟨listed, continued⟩, by rw [render, if_neg continued]⟩

theorem render_story_own {shown : Story} (listed : shown ∈ (rewritePlanRefs raw refs).stories)
    (compared : shown.id ∉ raw.continues) :
    ∃ story ∈ ownStories raw, shown = story.rewrite refs := by
  obtain ⟨story, member, rfl⟩ := mem_map.mp listed
  rcases render_story_cases refs member with ⟨continued, same⟩ | ⟨own, rewritten⟩
  · rw [same] at compared
    exact absurd continued compared
  · exact ⟨story, own, rewritten⟩

theorem inPlace_of_persisted {persisted : String → Option ρ} {row : ρ}
    (free : ∀ {value : String}, find? refs id = some value → persisted value = none)
    (found : persisted (rename refs id) = some row) : id ∉ names refs ∧ rename refs id = id := by
  cases entry : find? refs id with
  | none => exact ⟨find?_eq_none_iff.mp entry, by simp [rename, entry]⟩
  | some value =>
    have shown : rename refs id = value := by simp [rename, entry]
    rw [shown, free entry] at found
    cases found

theorem Consistent.flagged_inPlace (consistent : Consistent ledger raw state)
    (flagged : Flagged ledger (rewritePlanRefs raw state.refs) id) :
    id ∈ comparedIDs raw ∧ id ∉ names state.refs ∧ id ∈ ledger.ids := by
  cases flagged with
  | goal listed compared differs =>
    obtain ⟨goal, own, rfl⟩ := render_goal_own listed compared
    obtain ⟨old, found, _⟩ := differs
    obtain ⟨unmoved, same⟩ := inPlace_of_persisted (consistent.freeGoal goal own) found
    have persisted := Ledger.mem_ids_of_getGoal (Option.isSome_of_eq_some found)
    rw [Goal.rewrite_id, same] at persisted ⊢
    obtain ⟨listed, compared⟩ := mem_comparedGoals.mp own
    exact ⟨goal_mem_comparedIDs listed compared, unmoved, persisted⟩
  | story listed compared differs =>
    obtain ⟨story, own, rfl⟩ := render_story_own (mem_of_getElem? listed) compared
    obtain ⟨old, found, _⟩ := differs
    obtain ⟨unmoved, same⟩ := inPlace_of_persisted (consistent.freeStory story own) found
    have persisted := Ledger.mem_ids_of_getStory (Option.isSome_of_eq_some found)
    rw [rewrite_id, same] at persisted ⊢
    exact ⟨story_mem_comparedIDs own, unmoved, persisted⟩
  | task listed compared owned differs =>
    obtain ⟨story, own, rfl⟩ := render_story_own listed compared
    obtain ⟨task, taskMem, rfl⟩ := mem_map.mp (mem_of_getElem? owned)
    obtain ⟨old, found, _⟩ := differs
    obtain ⟨unmoved, same⟩ := inPlace_of_persisted
      (consistent.freeTask story own task taskMem) found
    have persisted := Ledger.mem_ids_of_getTask (Option.isSome_of_eq_some found)
    rw [Task.rewrite_id, same] at persisted ⊢
    exact ⟨task_mem_comparedIDs own taskMem, unmoved, persisted⟩

theorem conflict_of_search {key : ρ → String} {rows : List ρ}
    (found : ((rows.find? fun row => conflicts (key row)).map key).filter (· ≠ "") = some id) :
    conflicts id := by
  obtain ⟨mapped, _⟩ := Option.filter_eq_some_iff.mp found
  obtain ⟨row, isFound, rfl⟩ := Option.map_eq_some_iff.mp mapped
  simpa using find?_some isFound

theorem pickConflict_some (picked : pickConflict conflicts plan taken = some (old, next)) :
    conflicts old ∧ next ∉ taken := by
  unfold pickConflict at picked
  split at picked
  · next id found =>
    cases picked
    exact ⟨conflict_of_search found, nextFreeID_not_mem _ _⟩
  · split at picked
    · next id found =>
      cases picked
      exact ⟨conflict_of_search found, nextFreeID_not_mem _ _⟩
    · obtain ⟨id, found, same⟩ := Option.map_eq_some_iff.mp picked
      cases same
      obtain ⟨story, _, inStory⟩ := exists_of_findSome?_eq_some found
      exact ⟨conflict_of_search inStory, nextFreeTaskID_not_mem _ _⟩

theorem no_conflict_of_search {key : ρ → String} {rows : List ρ}
    (nonempty : ∀ id, conflicts id → id ≠ "")
    (failed : ((rows.find? fun row => conflicts (key row)).map key).filter (· ≠ "") = none) :
    ∀ row ∈ rows, conflicts (key row) = false := by
  cases found : rows.find? fun row => conflicts (key row) with
  | none =>
    intro row member
    simpa using find?_eq_none.mp found row member
  | some row =>
    have conflicting : conflicts (key row) := by simpa using find?_some found
    rw [found] at failed
    simp [nonempty _ conflicting] at failed

theorem pickConflict_none (nonempty : ∀ id, conflicts id → id ≠ "")
    (failed : pickConflict conflicts plan taken = none) :
    ∀ id ∈ plan.ids, conflicts id = false := by
  unfold pickConflict at failed
  split at failed
  · simp at failed
  next noGoal =>
  split at failed
  · simp at failed
  next noStory =>
  intro id member
  rcases mem_append.mp member with goalMem | rowMem
  · obtain ⟨goal, listed, rfl⟩ := mem_map.mp goalMem
    exact no_conflict_of_search nonempty noGoal goal listed
  · obtain ⟨story, listed, rfl | ⟨task, owned, rfl⟩⟩ := mem_storyRowIDs.mp rowMem
    · exact no_conflict_of_search nonempty noStory story listed
    · have noTask := findSome?_eq_none_iff.mp (Option.map_eq_none_iff.mp failed) story listed
      exact no_conflict_of_search nonempty noTask task owned

section

variable (consistent : Consistent ledger raw state)
include consistent

theorem Consistent.flagged_of_conflict
    (conflicting : reviewedIdentityConflicts ledger (rewritePlanRefs raw state.refs) id) :
    id ∈ comparedIDs raw ∧ id ∉ names state.refs ∧ id ∈ ledger.ids :=
  consistent.flagged_inPlace (flagged_of_conflicts conflicting)

theorem Consistent.eq_of_rename (oldMem : old ∈ raw.ids)
    (shown : rename state.refs id = old) : id = old := by
  cases entry : find? state.refs id with
  | none => simpa [rename, entry] using shown
  | some value =>
    have same : value = old := by simpa [rename, entry] using shown
    exact absurd (same ▸ oldMem) (consistent.separated.outside entry)

theorem Consistent.rename_mem_used (listed : id ∈ raw.ids) : rename state.refs id ∈ state.used := by
  cases entry : find? state.refs id with
  | none => simpa [rename, entry] using consistent.reserved id listed
  | some value => simpa [rename, entry] using consistent.recorded entry

end

def shownTasks (plan : ProjectPlan) (old : String) : List Task :=
  (plan.stories.filter fun story => story.id = old).flatMap Story.tasks

variable (renamable : Renamable raw)
include renamable

variable (consistent : Consistent ledger raw state)
include consistent

theorem shownTasks_key (oldMem : old ∈ comparedIDs raw) {shown : Task}
    (member : shown ∈ shownTasks (rewritePlanRefs raw state.refs) old) : shown.id ∈ state.used ∧
    source state.refs shown.id ≠ old ∧ TaskKey raw old (source state.refs shown.id) := by
  obtain ⟨_, storyMem, owned⟩ := mem_flatMap.mp member
  obtain ⟨inPlan, named⟩ := mem_filter.mp storyMem
  obtain ⟨story, listed, rfl⟩ := mem_map.mp inPlan
  rw [decide_eq_true_eq] at named
  rcases render_story_cases state.refs listed with ⟨continued, same⟩ | ⟨own, rewritten⟩
  · rw [same] at owned named
    have taskMem := task_mem_ids listed owned
    have notCompared := renamable.apart story listed continued shown owned
    rw [consistent.separated.source_of_mem taskMem]
    refine ⟨consistent.reserved _ taskMem, fun isOld => notCompared (isOld ▸ oldMem), ?_, ?_, ?_⟩
    · exact ⟨story, listed, named, mem_map_of_mem owned⟩
    · intro goal compared isTask
      obtain ⟨goalListed, goalCompared⟩ := mem_comparedGoals.mp compared
      exact notCompared (isTask ▸ goal_mem_comparedIDs goalListed goalCompared)
    · exact fun other own isTask => notCompared (isTask ▸ story_mem_comparedIDs own)
  · rw [rewritten] at owned named
    obtain ⟨task, taskOwned, rfl⟩ := mem_map.mp owned
    have taskMem := task_mem_ids listed taskOwned
    obtain rfl := consistent.eq_of_rename (comparedIDs_subset_ids oldMem) named
    rw [Task.rewrite_id, consistent.separated.source_rename taskMem]
    refine ⟨consistent.rename_mem_used taskMem,
      fun isStory => renamable.story_ne_task own own taskOwned isStory.symm, ?_, ?_, ?_⟩
    · exact ⟨story, listed, rfl, mem_map_of_mem taskOwned⟩
    · exact fun goal compared => renamable.goal_ne_row compared
        (mem_storyRowIDs.mpr ⟨story, own, .inr ⟨task, taskOwned, rfl⟩⟩)
    · exact fun other otherOwn => renamable.story_ne_task otherOwn own taskOwned

theorem shownTasks_pairwise (oldMem : old ∈ comparedIDs raw) :
    (shownTasks (rewritePlanRefs raw state.refs) old).Pairwise fun first second =>
      second.id ∈ raw.ids ∨ source state.refs first.id ≠ source state.refs second.id := by
  rw [shownTasks, pairwise_flatMap]
  constructor
  · intro shown storyMem
    obtain ⟨inPlan, _⟩ := mem_filter.mp storyMem
    obtain ⟨story, listed, rfl⟩ := mem_map.mp inPlan
    rcases render_story_cases state.refs listed with ⟨_, same⟩ | ⟨own, rewritten⟩
    · rw [same]
      exact pairwise_of_forall_mem_list fun first _ second owned =>
        .inl (task_mem_ids listed owned)
    · rw [rewritten, rewrite_tasks, pairwise_map]
      have tasksDistinct := pairwise_map.mp (renamable.tasks_nodup own)
      refine tasksDistinct.imp_of_mem fun {first second} firstOwned secondOwned different => ?_
      rw [Task.rewrite_id, Task.rewrite_id,
        consistent.separated.source_rename (task_mem_ids listed firstOwned),
        consistent.separated.source_rename (task_mem_ids listed secondOwned)]
      exact .inr different
  · rw [pairwise_filter]
    change (raw.stories.map (render raw.continues state.refs)).Pairwise _
    rw [pairwise_map]
    have ownDistinct := renamable.ownStories_pairwise
    rw [ownStories, pairwise_filter] at ownDistinct
    refine ownDistinct.imp_of_mem fun {first second} firstListed secondListed different => ?_
    intro firstNamed secondNamed task _ later laterOwned
    rw [decide_eq_true_eq] at firstNamed secondNamed
    rcases render_story_cases state.refs secondListed with ⟨_, same⟩ | ⟨own, rewritten⟩
    · rw [same] at laterOwned
      exact .inl (task_mem_ids secondListed laterOwned)
    · -- A second own story of this name cannot follow a first one.
      rw [rewritten] at secondNamed
      have secondOld := consistent.eq_of_rename (comparedIDs_subset_ids oldMem) secondNamed
      have secondOwn := (mem_ownStories.mp own).2
      rcases render_story_cases state.refs firstListed with
        ⟨continued, same⟩ | ⟨firstOwn, firstRewritten⟩
      · rw [same] at firstNamed
        exact absurd (firstNamed.trans secondOld.symm ▸ continued) secondOwn
      · rw [firstRewritten] at firstNamed
        have firstOld := consistent.eq_of_rename (comparedIDs_subset_ids oldMem) firstNamed
        exact absurd (firstOld.trans secondOld.symm)
          (different (by simpa using (mem_ownStories.mp firstOwn).2) (by simpa using secondOwn))

theorem remapRound_some {next : RemapState} (round : remapRound ledger raw state = some next) :
    Consistent ledger raw next ∧ Extends state next ∧
      ∃ old ∈ raw.ids, old ∉ names state.refs ∧ old ∈ names next.refs ∧ old ∈ ledger.ids := by
  unfold remapRound at round
  simp only at round
  split at round
  · cases round
  next old target picked =>
  obtain ⟨conflicting, free⟩ := pickConflict_some picked
  obtain ⟨compared, unmoved, persisted⟩ := consistent.flagged_of_conflict conflicting
  rw [mem_append, not_or] at free
  have movedConsistent : Consistent ledger raw (state.move old target) :=
    consistent.move (comparedIDs_subset_ids compared) free.1
      (fun _ _ _ => Ledger.getGoal_eq_none free.2) (fun _ _ _ => Ledger.getStory_eq_none free.2)
      (fun _ _ _ _ _ => Ledger.getTask_eq_none free.2) (.inl persisted)
  have oldMoved : old ∈ names (state.move old target).refs := mem_names_assign.mpr (.inl rfl)
  have keys (shown : Task)
      (member : shown ∈ shownTasks (rewritePlanRefs raw state.refs) old) :=
    shownTasks_key renamable consistent compared member
  obtain ⟨finallyConsistent, extended⟩ := dragTasks_consistent old target
    movedConsistent oldMoved
    (fun shown member => (extends_move state old target).used (keys shown member).1)
    (fun shown member => source_assign (fun same => free.1 (same ▸ (keys shown member).1))
      (keys shown member).2.1.symm)
    (fun shown member => (keys shown member).2.2)
    (shownTasks_pairwise renamable consistent compared)
  cases round
  refine ⟨finallyConsistent, (extends_move state old target).trans extended, ?_⟩
  exact ⟨old, comparedIDs_subset_ids compared, unmoved, extended.names oldMoved, persisted⟩

theorem remapRound_none (finished : remapRound ledger raw state = none) (id : String) :
    reviewedIdentityConflicts ledger (rewritePlanRefs raw state.refs) id = false := by
  have failed : pickConflict (reviewedIdentityConflicts ledger (rewritePlanRefs raw state.refs))
      (rewritePlanRefs raw state.refs) (state.used ++ ledger.ids) = none := by
    unfold remapRound at finished
    simp only at finished
    split at finished
    · assumption
    · cases finished
  have nonempty := fun (id : String) conflicting =>
    renamable.nonempty id (consistent.flagged_of_conflict conflicting).1
  by_contra conflicting
  rw [Bool.not_eq_false] at conflicting
  have listed := flagged_listed (flagged_of_conflicts conflicting)
  rw [pickConflict_none nonempty failed id listed] at conflicting
  cases conflicting

end

def inPlace (raw : ProjectPlan) (state : RemapState) : Finset String :=
  raw.ids.toFinset \ (names state.refs).toFinset

theorem inPlace_initial_card_le (plan : ProjectPlan) :
    (inPlace plan { refs := [], used := plan.ids }).card ≤ plan.ids.length := by
  calc (inPlace plan { refs := [], used := plan.ids }).card
      ≤ plan.ids.toFinset.card := Finset.card_le_card Finset.sdiff_subset
    _ ≤ plan.ids.length := plan.ids.toFinset_card_le

theorem inPlace_card_lt {state next : RemapState}
    (extended : Extends state next) (listed : old ∈ plan.ids) (unmoved : old ∉ names state.refs)
    (moved : old ∈ names next.refs) : (inPlace plan next).card < (inPlace plan state).card := by
  refine Finset.card_lt_card (Finset.ssubset_iff_subset_ne.mpr ⟨?_, ?_⟩)
  · refine Finset.sdiff_subset_sdiff (Finset.Subset.refl _) ?_
    intro id member
    exact mem_toFinset.mpr (extended.names (mem_toFinset.mp member))
  · intro same
    have still : old ∈ inPlace plan state := by simp [inPlace, listed, unmoved]
    rw [← same] at still
    simp [inPlace, moved] at still

variable {ledger : Ledger} {plan : ProjectPlan}

theorem remapRun_spec (renamable : Renamable plan) {start : RemapState}
    (consistent : Consistent ledger plan start) {rounds : Nat}
    (enough : (inPlace plan start).card < rounds) :
    let final := BoundedLoop.run (remapRound ledger plan) rounds start
    (Consistent ledger plan final ∧ Extends start final) ∧ remapRound ledger plan final = none := by
  refine BoundedLoop.run_spec
    (fun state => Consistent ledger plan state ∧ Extends start state)
    (fun state => (inPlace plan state).card) ?_ ⟨consistent, Extends.refl start⟩ enough
  rintro state next ⟨stateConsistent, extended⟩ round
  obtain ⟨nextConsistent, nextExtended, old, listed, unmoved, moved, _⟩ :=
    remapRound_some renamable stateConsistent round
  exact ⟨⟨nextConsistent, extended.trans nextExtended⟩,
    inPlace_card_lt nextExtended listed unmoved moved⟩

theorem remapFinal_consistent (ledger : Ledger) (renamable : Renamable plan) :
    Consistent ledger plan (remapFinal ledger plan) ∧
      remapRound ledger plan (remapFinal ledger plan) = none := by
  obtain ⟨⟨consistent, _⟩, finished⟩ := remapRun_spec renamable (consistent_initial ledger plan)
    (Nat.lt_succ_of_le (inPlace_initial_card_le plan))
  exact ⟨consistent, finished⟩

theorem remapContentIDs_no_conflict (renamable : Renamable plan) (id : String) :
    reviewedIdentityConflicts ledger (remapContentIDs ledger plan) id = false := by
  obtain ⟨consistent, finished⟩ := remapFinal_consistent ledger renamable
  exact remapRound_none renamable consistent finished id

theorem pickConflict_eq_none (quiet : ∀ id, conflicts id = false) (taken : List String) :
    pickConflict conflicts plan taken = none := by
  cases picked : pickConflict conflicts plan taken with
  | none => rfl
  | some move =>
    have conflicting := (pickConflict_some picked).1
    rw [quiet] at conflicting
    cases conflicting

theorem remapRefs_eq_nil (quiet : ∀ id, reviewedIdentityConflicts ledger plan id = false) :
    remapRefs ledger plan = [] := by
  have first : remapRound ledger plan { refs := [], used := plan.ids } = none := by
    simp only [remapRound, rewritePlanRefs_nil, pickConflict_eq_none quiet]
  rw [remapRefs, remapFinal, BoundedLoop.run, first]

theorem remapRefs_moves (renamable : Renamable plan)
    (conflicting : reviewedIdentityConflicts ledger plan id) :
    ∃ old ∈ ledger.ids, rename (remapRefs ledger plan) old ≠ old := by
  have initial := consistent_initial ledger plan
  cases first : remapRound ledger plan { refs := [], used := plan.ids } with
  | none =>
    have clean := remapRound_none renamable initial first id
    rw [rewritePlanRefs_nil, conflicting] at clean
    cases clean
  | some next =>
    obtain ⟨consistent, extended, old, listed, unmoved, moved, persisted⟩ :=
      remapRound_some renamable initial first
    have enough : (inPlace plan next).card < plan.ids.length :=
      Nat.lt_of_lt_of_le (inPlace_card_lt extended listed unmoved moved)
        (inPlace_initial_card_le plan)
    obtain ⟨⟨finallyConsistent, finallyExtended⟩, _⟩ := remapRun_spec renamable consistent enough
    have final : remapFinal ledger plan =
        BoundedLoop.run (remapRound ledger plan) plan.ids.length next := by
      rw [remapFinal, BoundedLoop.run, first]
    rw [← final] at finallyConsistent finallyExtended
    refine ⟨old, persisted, fun same => ?_⟩
    obtain ⟨value, entry⟩ := Option.isSome_iff_exists.mp
      (find?_isSome_iff.mpr (finallyExtended.names moved))
    have isValue : rename (remapFinal ledger plan).refs old = value := by simp [rename, entry]
    refine finallyConsistent.separated.outside entry ?_
    rw [← isValue, ← remapRefs, same]
    exact listed

end OpenExec.Planner
