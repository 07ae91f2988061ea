import OpenExec.PlanContinuation
import OpenExec.PrefixFold

/-!
# Which stories a re-plan continues

A persisted story is continued when the plan lists it differently, lists one of its
tasks differently, or lists one of its tasks elsewhere.
-/

namespace OpenExec.Planner

open Release PrefixFold KeyedRows List

variable {ledger : Ledger} {id storyID : String} {kept : Kept} {story listed : Story}

theorem mapM_getTask {ids : List String}
    (persisted : ∀ id ∈ ids, ∃ task, ledger.getTask id = some task) :
    ∃ tasks, ids.mapM ledger.getTask = some tasks ∧ tasks.map Release.Task.id = ids := by
  induction ids with
  | nil => exact ⟨[], by simp, rfl⟩
  | cons id ids ih =>
    obtain ⟨task, found⟩ := persisted id mem_cons_self
    obtain ⟨tasks, rest, names⟩ := ih fun later member =>
      persisted later (mem_cons_of_mem _ member)
    refine ⟨task :: tasks, by simp [mapM_cons, found, rest], ?_⟩
    rw [map_cons, names, row?_key found]

variable [ledger.Consistent]

theorem ledgerStory_of_getStory {row : Release.Story}
    (found : ledger.getStory id = some row) :
    ∃ story, ledgerStory ledger id = some story ∧ story.id = id ∧
      story.tasks.map Task.id = row.tasks ∧ story.requirementID = "" ∧ story.role = "" := by
  obtain ⟨tasks, isTasks, names⟩ := mapM_getTask fun taskID listed =>
    (Ledger.getTask_of_getStory found listed).imp fun _ => And.left
  have named : row.id = id := row?_key found
  refine ⟨_, by rw [ledgerStory, found, Option.bind_some, isTasks, Option.map_some],
    named, ?_, rfl, rfl⟩
  rw [← names, map_map]
  rfl

theorem getStory_of_ledgerStory (found : ledgerStory ledger id = some story) :
    ∃ row, ledger.getStory id = some row ∧ story.id = id ∧
      story.tasks.map Task.id = row.tasks ∧ story.requirementID = "" ∧ story.role = "" := by
  cases persisted : ledger.getStory id with
  | none => simp [ledgerStory, persisted] at found
  | some row =>
    obtain ⟨same, isSame, facts⟩ := ledgerStory_of_getStory persisted
    obtain rfl := Option.mem_unique isSame found
    exact ⟨row, rfl, facts⟩

theorem ledgerStory_isSome :
    (ledgerStory ledger id).isSome ↔ (ledger.getStory id).isSome := by
  simp only [Option.isSome_iff_exists]
  constructor
  · rintro ⟨story, found⟩
    obtain ⟨row, persisted, _⟩ := getStory_of_ledgerStory found
    exact ⟨row, persisted⟩
  · rintro ⟨row, persisted⟩
    obtain ⟨story, found, _⟩ := ledgerStory_of_getStory persisted
    exact ⟨story, found⟩

def Kept.ids (kept : Kept) : List String :=
  kept.map Story.id

/-- Each kept story is the persisted one of its identifier, kept once. -/
structure FromLedger (ledger : Ledger) (kept : Kept) : Prop where
  unique : kept.ids.Nodup
  content : ∀ story ∈ kept, ledgerStory ledger story.id = some story

theorem story?_isSome : (kept.story? id).isSome ↔ id ∈ kept.ids :=
  row?_isSome_iff

theorem story?_eq_none : kept.story? id = none ↔ id ∉ kept.ids :=
  row?_eq_none_iff

theorem mem_keep : id ∈ (keep ledger kept storyID).ids ↔
      id ∈ kept.ids ∨ (id = storyID ∧ (ledger.getStory storyID).isSome) := by
  unfold keep
  split
  · next already =>
    refine ⟨.inl, ?_⟩
    rintro (member | ⟨rfl, _⟩)
    · exact member
    · exact story?_isSome.mp already
  · split
    · next missing =>
      have absent : ¬ (ledger.getStory storyID).isSome := by
        rw [← ledgerStory_isSome, missing]
        simp
      simp [absent]
    · next story found =>
      obtain ⟨row, persisted, named, _⟩ := getStory_of_ledgerStory found
      simp [Kept.ids, named, persisted]

theorem keep_fromLedger (fromLedger : FromLedger ledger kept)
    (storyID : String) : FromLedger ledger (keep ledger kept storyID) := by
  unfold keep
  split
  · exact fromLedger
  next new =>
  split
  · exact fromLedger
  next story found =>
  obtain ⟨row, _, named, _⟩ := getStory_of_ledgerStory found
  have absent : storyID ∉ kept.ids := fun member => new (story?_isSome.mpr member)
  refine ⟨?_, ?_⟩
  · rw [Kept.ids, map_append, map_singleton, named]
    exact nodup_append'.mpr ⟨fromLedger.unique, nodup_singleton _, disjoint_singleton.mpr absent⟩
  · intro other member
    rcases mem_append.mp member with earlier | isNew
    · exact fromLedger.content other earlier
    · obtain rfl := mem_singleton.mp isNew
      rw [named]
      exact found

def HeldElsewhere (ledger : Ledger) (conflicts : String → Bool) (id storyID : String)
    (task : Task) : Prop :=
  conflicts task.id = true ∧ id ≠ storyID ∧ ∃ row, ledger.getTask task.id = some row ∧
    row.storyID = id

theorem mem_keepTaskStory (ledger : Ledger) [ledger.Consistent] (conflicts : String → Bool)
    (kept : Kept) (task : Task) :
    id ∈ (keepTaskStory ledger conflicts storyID kept task).ids ↔
      id ∈ kept.ids ∨ HeldElsewhere ledger conflicts id storyID task := by
  unfold keepTaskStory HeldElsewhere taskStory
  cases found : ledger.getTask task.id with
  | none => simp
  | some row =>
    obtain ⟨story, persisted, _⟩ := Ledger.getStory_of_getTask found
    simp only [Option.map_some, Option.some.injEq, exists_eq_left']
    split
    · next elsewhere =>
      rw [mem_keep, persisted]
      constructor
      · rintro (member | ⟨rfl, _⟩)
        · exact .inl member
        · exact .inr ⟨elsewhere.1, elsewhere.2, rfl⟩
      · rintro (member | ⟨_, _, rfl⟩)
        · exact .inl member
        · exact .inr ⟨rfl, rfl⟩
    · next stays =>
      refine ⟨.inl, ?_⟩
      rintro (member | ⟨conflicting, elsewhere, rfl⟩)
      · exact member
      · exact absurd ⟨conflicting, elsewhere⟩ stays

/-- Why the pass over the plan keeps a story. -/
def KeptFor (ledger : Ledger) (conflicts : String → Bool) (id : String) (listed : Story) : Prop :=
  (∃ task ∈ listed.tasks, HeldElsewhere ledger conflicts id listed.id task) ∨
    (id = listed.id ∧ (ledger.getStory listed.id).isSome ∧
      (conflicts listed.id = true ∨ ∃ task ∈ listed.tasks, conflicts task.id = true))

theorem mem_keepStory (ledger : Ledger) [ledger.Consistent] (conflicts : String → Bool)
    (kept : Kept) (listed : Story) :
    id ∈ (keepStory ledger conflicts kept listed).ids ↔
      id ∈ kept.ids ∨ KeptFor ledger conflicts id listed := by
  have tasks := foldl_mem_iff (fun kept : Kept => id ∈ kept.ids)
    (HeldElsewhere ledger conflicts id listed.id)
    (mem_keepTaskStory ledger conflicts) listed.tasks kept
  unfold keepStory KeptFor
  split
  · next changed =>
    rw [Bool.or_eq_true, any_eq_true] at changed
    rw [mem_keep, tasks]
    constructor
    · rintro ((member | held) | ⟨rfl, persisted⟩)
      · exact .inl member
      · exact .inr (.inl held)
      · exact .inr (.inr ⟨rfl, persisted, changed⟩)
    · rintro (member | held | ⟨rfl, persisted, _⟩)
      · exact .inl (.inl member)
      · exact .inl (.inr held)
      · exact .inr ⟨rfl, persisted⟩
  · next unchanged =>
    rw [tasks]
    constructor
    · rintro (member | held)
      · exact .inl member
      · exact .inr (.inl held)
    · rintro (member | held | ⟨rfl, _, changed⟩)
      · exact .inl member
      · exact .inr held
      · rw [Bool.or_eq_true, any_eq_true] at unchanged
        exact absurd changed unchanged

theorem keepStory_fromLedger {conflicts : String → Bool}
    (fromLedger : FromLedger ledger kept) (listed : Story) :
    FromLedger ledger (keepStory ledger conflicts kept listed) := by
  have tasks : FromLedger ledger
      (listed.tasks.foldl (keepTaskStory ledger conflicts listed.id) kept) := by
    refine foldl_prefix (fun _ kept => FromLedger ledger kept) fromLedger ?_
    intro _ _ task kept _ fromLedger
    unfold keepTaskStory
    split
    · split
      · exact keep_fromLedger fromLedger _
      · exact fromLedger
    · exact fromLedger
  unfold keepStory
  split
  · exact keep_fromLedger tasks listed.id
  · exact tasks

theorem keptStories_fromLedger (ledger : Ledger) [ledger.Consistent] (plan : ProjectPlan) :
    FromLedger ledger (keptStories ledger plan) := by
  refine foldl_prefix (fun _ kept => FromLedger ledger kept) ?_ ?_
  · exact ⟨nodup_nil, by simp⟩
  · exact fun _ fromLedger => keepStory_fromLedger fromLedger _

theorem mem_keptStories {plan : ProjectPlan} :
    id ∈ (keptStories ledger plan).ids ↔
      ∃ listed ∈ plan.stories, KeptFor ledger (incomingConflicts ledger plan) id listed := by
  have kept := foldl_mem_iff (fun kept : Kept => id ∈ kept.ids)
    (KeptFor ledger (incomingConflicts ledger plan) id)
    (mem_keepStory ledger (incomingConflicts ledger plan)) plan.stories []
  rw [keptStories, kept]
  simp [Kept.ids]

section

variable (fromLedger : FromLedger ledger kept)
include fromLedger

theorem FromLedger.persisted (member : id ∈ kept.ids) :
    ∃ row, ledger.getStory id = some row := by
  obtain ⟨story, storyMem, rfl⟩ := mem_map.mp member
  obtain ⟨row, persisted, _⟩ := getStory_of_ledgerStory (fromLedger.content story storyMem)
  exact ⟨row, persisted⟩

theorem FromLedger.mem_tasks (member : story ∈ kept) {taskID : String} :
    taskID ∈ story.tasks.map Task.id ↔
      ∃ row, ledger.getTask taskID = some row ∧ row.storyID = story.id := by
  obtain ⟨row, persisted, _, names, _⟩ := getStory_of_ledgerStory (fromLedger.content story member)
  rw [names]
  constructor
  · intro listed
    exact Ledger.getTask_of_getStory persisted listed
  · rintro ⟨task, found, owner⟩
    obtain ⟨same, isSame, listed⟩ := Ledger.getStory_of_getTask found
    rw [owner, persisted] at isSame
    exact Option.some.inj isSame ▸ listed

theorem retainedStory_eq_some {taskID : String} :
    retainedStory kept taskID = some storyID ↔
      storyID ∈ kept.ids ∧ ∃ row, ledger.getTask taskID = some row ∧ row.storyID = storyID := by
  unfold retainedStory
  constructor
  · intro found
    obtain ⟨story, isFound, rfl⟩ := Option.map_eq_some_iff.mp found
    have member := mem_reverse.mp (mem_of_find?_eq_some isFound)
    have owned : taskID ∈ story.tasks.map Task.id := by simpa using find?_some isFound
    exact ⟨mem_map_of_mem member, (fromLedger.mem_tasks member).mp owned⟩
  · rintro ⟨member, row, found, owner⟩
    obtain ⟨story, storyMem, rfl⟩ := mem_map.mp member
    have owned := (fromLedger.mem_tasks storyMem).mpr ⟨row, found, owner⟩
    cases search : kept.reverse.find? fun story => taskID ∈ story.tasks.map Task.id with
    | none =>
      have missing := find?_eq_none.mp search story (mem_reverse.mpr storyMem)
      simp only [decide_eq_true_eq] at missing
      exact absurd owned missing
    | some other =>
      have otherMem := mem_reverse.mp (mem_of_find?_eq_some search)
      have otherOwned : taskID ∈ other.tasks.map Task.id := by simpa using find?_some search
      obtain ⟨otherRow, otherFound, otherOwner⟩ := (fromLedger.mem_tasks otherMem).mp otherOwned
      rw [found] at otherFound
      cases otherFound
      rw [Option.map_some, ← otherOwner, owner]

end

theorem mem_dedupe {ids : List String} : id ∈ dedupe ids ↔ id ∈ ids := by
  have added (seen : List String) (next : String) :
      id ∈ (if next ∈ seen then seen else seen ++ [next]) ↔ id ∈ seen ∨ id = next := by
    by_cases known : next ∈ seen
    · rw [if_pos known]
      refine ⟨.inl, ?_⟩
      rintro (member | rfl)
      · exact member
      · exact known
    · rw [if_neg known]
      simp
  have folded := foldl_mem_iff (fun seen : List String => id ∈ seen) (fun next => id = next)
    added ids []
  simpa [dedupe] using folded

theorem mem_heldStories :
    id ∈ heldStories kept listed ↔ ∃ task ∈ listed.tasks, retainedStory kept task.id = some id := by
  simp [heldStories, mem_dedupe]

theorem mem_freshTasks {task : Task} :
    task ∈ freshTasks kept listed ↔ task ∈ listed.tasks ∧ retainedStory kept task.id = none := by
  simp [freshTasks]

end OpenExec.Planner
