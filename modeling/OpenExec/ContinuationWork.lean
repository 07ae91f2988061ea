import OpenExec.RetainedBacklog
import Mathlib.Data.List.Dedup
import Mathlib.Data.List.Induction

/-!
# The new work of a re-plan

A declarative reading of the continuation: which continued stories a listed
story touches, which stories carry new tasks and under which identifiers, which
identifiers change, and how many stories stand before a listed one.
-/

namespace OpenExec.Planner

open Release FiniteRenaming List
open scoped List

variable {done work rest : List Story} {listed story : Story}

def touchedStories (kept : Kept) (listed : Story) : List String :=
  (if listed.id ∈ kept.ids then [listed.id] else []) ++ heldStories kept listed

def newWork (kept : Kept) (listed : Story) : Story :=
  { listed with tasks := freshTasks kept listed }

variable (ledger : Ledger) (plan : ProjectPlan) (kept : Kept)

def placeWork (work : List Story) (listed : Story) : List Story :=
  if freshTasks kept listed = [] then work
  else if listed.id ∈ kept.ids then
    work ++ [continuationStory kept
      (nextFreeID "US" (work.map Story.id ++ plan.ids ++ ledger.ids)) listed]
  else work ++ [newWork kept listed]

variable (stories : List Story)

def workStories : List Story :=
  stories.foldl (placeWork ledger plan kept) []

def numbering (storyID : String) (entry : Task × Nat) : Option (String × String) :=
  let want := taskNumbered storyID (entry.2 + 1)
  if want ≠ entry.1.id ∧ want ∉ plan.ids ∧ want ∉ ledger.ids then some (entry.1.id, want) else none

def numberings (story : Story) : Refs :=
  story.tasks.zipIdx.filterMap (numbering ledger plan story.id)

def regrouping (listed : Story) : Option (String × String) :=
  if listed.id ∉ kept.ids ∧ freshTasks kept listed = [] then
    (heldStories kept listed).head?.map fun first => (listed.id, first)
  else none

/-- Every identifier change of the continuation of the given stories. -/
def identifierChanges : Refs :=
  stories.filterMap (regrouping kept) ++
    (workStories ledger plan kept stories).flatMap (numberings ledger plan)

def storiesBefore (position : Nat) : Nat :=
  ((stories.take position).flatMap (touchedStories kept)).dedup.length +
    ((stories.take position).filter fun listed => freshTasks kept listed ≠ []).length

/-- A work story carries the new tasks of a listed one, under the listed
identifier or under one nobody holds. -/
structure WorkOf (ledger : Ledger) (plan : ProjectPlan) (kept : Kept) (listed work : Story) :
    Prop where
  tasks : work.tasks = freshTasks kept listed
  nonempty : freshTasks kept listed ≠ []
  identity : (listed.id ∉ kept.ids ∧ work = newWork kept listed) ∨
    (listed.id ∈ kept.ids ∧ work.id ∉ plan.ids ∧ work.id ∉ ledger.ids ∧
      ∃ number, work.id = numbered "US" number)

structure WorkSpec (ledger : Ledger) (plan : ProjectPlan) (kept : Kept)
    (done work : List Story) : Prop where
  source : ∀ story ∈ work, ∃ listed ∈ done, WorkOf ledger plan kept listed story
  every : ∀ listed ∈ done, freshTasks kept listed ≠ [] →
    ∃ story ∈ work, WorkOf ledger plan kept listed story
  unique : (work.map Story.id).Nodup
  tasks : (work.flatMap fun story => story.tasks.map Task.id) <+
    done.flatMap fun listed => listed.tasks.map Task.id
  length : work.length = (done.filter fun listed => freshTasks kept listed ≠ []).length

variable {ledger : Ledger} {plan : ProjectPlan} {kept : Kept}

theorem freshTasks_sublist (kept : Kept) (listed : Story) :
    freshTasks kept listed <+ listed.tasks :=
  filter_sublist

theorem WorkSpec.append (spec : WorkSpec ledger plan kept done work)
    (isWork : WorkOf ledger plan kept listed story) (fresh : story.id ∉ work.map Story.id) :
    WorkSpec ledger plan kept (done ++ [listed]) (work ++ [story]) where
  source := by
    intro other member
    rcases mem_append.mp member with earlier | new
    · obtain ⟨origin, originMem, isWork⟩ := spec.source other earlier
      exact ⟨origin, mem_append_left _ originMem, isWork⟩
    · obtain rfl := mem_singleton.mp new
      exact ⟨listed, by simp, isWork⟩
  every := by
    intro other member nonempty
    rcases mem_append.mp member with earlier | new
    · obtain ⟨placed, placedMem, isPlaced⟩ := spec.every other earlier nonempty
      exact ⟨placed, mem_append_left _ placedMem, isPlaced⟩
    · obtain rfl := mem_singleton.mp new
      exact ⟨story, by simp, isWork⟩
  unique := by
    rw [map_append, map_singleton]
    exact nodup_append'.mpr ⟨spec.unique, nodup_singleton _, disjoint_singleton.mpr fresh⟩
  tasks := by
    simp only [flatMap_append, flatMap_singleton, isWork.tasks]
    exact spec.tasks.append ((freshTasks_sublist kept listed).map Task.id)
  length := by
    have counted : ([listed].filter fun listed => freshTasks kept listed ≠ []) = [listed] := by
      simp [isWork.nonempty]
    simp only [length_append, filter_append, counted, spec.length, length_singleton]

theorem WorkSpec.skip (spec : WorkSpec ledger plan kept done work)
    (nothing : freshTasks kept listed = []) :
    WorkSpec ledger plan kept (done ++ [listed]) work where
  source := by
    intro other member
    obtain ⟨origin, originMem, isWork⟩ := spec.source other member
    exact ⟨origin, mem_append_left _ originMem, isWork⟩
  every := by
    intro other member nonempty
    rcases mem_append.mp member with earlier | new
    · exact spec.every other earlier nonempty
    · obtain rfl := mem_singleton.mp new
      exact absurd nothing nonempty
  unique := spec.unique
  tasks := by
    rw [flatMap_append]
    exact spec.tasks.trans (sublist_append_left _ _)
  length := by
    simp [filter_append, nothing, spec.length]

theorem WorkOf.id_cases (isWork : WorkOf ledger plan kept listed story) :
    story.id = listed.id ∨ (story.id ∉ plan.ids ∧ story.id ∉ ledger.ids) := by
  rcases isWork.identity with ⟨_, rfl⟩ | ⟨_, unlisted, unpersisted, _⟩
  · exact .inl rfl
  · exact .inr ⟨unlisted, unpersisted⟩

theorem listed_id_fresh (unique : (ProjectPlan.storyRowIDs (done ++ listed :: rest)).Nodup)
    (listedMem : listed.id ∈ plan.ids) (spec : WorkSpec ledger plan kept done work) :
    listed.id ∉ work.map Story.id := by
  intro member
  obtain ⟨story, storyMem, same⟩ := mem_map.mp member
  obtain ⟨origin, originMem, isWork⟩ := spec.source story storyMem
  rcases isWork.id_cases with sameID | ⟨unlisted, _⟩
  · have apart := (nodup_append'.mp ((flatMap_append ▸ unique :
      (ProjectPlan.storyRowIDs done ++ ProjectPlan.storyRowIDs (listed :: rest)).Nodup))).2.2
    refine apart (ProjectPlan.mem_storyRowIDs.mpr ⟨origin, originMem, .inl rfl⟩)
      (ProjectPlan.mem_storyRowIDs.mpr ⟨listed, mem_cons_self, .inl ?_⟩)
    rw [← same, sameID]
  · exact unlisted (same ▸ listedMem)

theorem placeWork_spec (split : plan.stories = done ++ listed :: rest)
    (unique : (ProjectPlan.storyRowIDs plan.stories).Nodup)
    (spec : WorkSpec ledger plan kept done work) :
    WorkSpec ledger plan kept (done ++ [listed]) (placeWork ledger plan kept work listed) := by
  unfold placeWork
  split_ifs with nothing continued
  · exact spec.skip nothing
  · have free := nextFreeID_not_mem "US" (work.map Story.id ++ plan.ids ++ ledger.ids)
    obtain ⟨number, isNumber⟩ :=
      nextFreeID_eq_numbered "US" (work.map Story.id ++ plan.ids ++ ledger.ids)
    simp only [mem_append, not_or] at free
    refine spec.append ⟨rfl, nothing, .inr ⟨continued, free.1.2, free.2, number, isNumber⟩⟩ free.1.1
  · refine spec.append ⟨rfl, nothing, .inl ⟨continued, rfl⟩⟩ ?_
    have listedMem : listed ∈ plan.stories := by simp [split]
    have fresh : listed.id ∉ work.map Story.id :=
      listed_id_fresh (split ▸ unique) (ProjectPlan.story_mem_ids listedMem) spec
    exact fresh

theorem workStories_append (ledger : Ledger) (plan : ProjectPlan) (kept : Kept)
    (done : List Story) (listed : Story) : workStories ledger plan kept (done ++ [listed]) =
      placeWork ledger plan kept (workStories ledger plan kept done) listed := by
  simp [workStories]

theorem workStories_spec (ledger : Ledger) (kept : Kept) (split : plan.stories = done ++ rest)
    (unique : (ProjectPlan.storyRowIDs plan.stories).Nodup) :
    WorkSpec ledger plan kept done (workStories ledger plan kept done) := by
  induction done using reverseRecOn generalizing rest with
  | nil => exact ⟨by simp [workStories], by simp, by simp [workStories], by simp [workStories], rfl⟩
  | append_singleton done listed ih =>
    rw [append_assoc, singleton_append] at split
    rw [workStories_append]
    exact placeWork_spec split unique (ih split)

theorem mem_numberings {id value : String} :
    (id, value) ∈ numberings ledger plan story ↔
      ∃ task position, story.tasks[position]? = some task ∧ task.id = id ∧
        taskNumbered story.id (position + 1) = value ∧ value ≠ id ∧ value ∉ plan.ids ∧
        value ∉ ledger.ids := by
  simp only [numberings, mem_filterMap, numbering]
  constructor
  · rintro ⟨⟨task, position⟩, member, changed⟩
    rw [mem_zipIdx_iff_getElem?] at member
    simp only [Option.ite_none_right_eq_some, Option.some.injEq, Prod.mk.injEq] at changed
    obtain ⟨⟨different, unlisted, unpersisted⟩, rfl, rfl⟩ := changed
    exact ⟨task, position, member, rfl, rfl, different, unlisted, unpersisted⟩
  · rintro ⟨task, position, member, rfl, rfl, different, unlisted, unpersisted⟩
    refine ⟨(task, position), mem_zipIdx_iff_getElem?.mpr member, ?_⟩
    simp [different, unlisted, unpersisted]

theorem mem_regrouping {id value : String} :
    regrouping kept listed = some (id, value) ↔
      listed.id = id ∧ listed.id ∉ kept.ids ∧ freshTasks kept listed = [] ∧
        (heldStories kept listed).head? = some value := by
  unfold regrouping
  split_ifs with regrouped
  · simp only [Option.map_eq_some_iff, Prod.mk.injEq]
    constructor
    · rintro ⟨first, isFirst, rfl, rfl⟩
      exact ⟨rfl, regrouped.1, regrouped.2, isFirst⟩
    · rintro ⟨rfl, _, _, isFirst⟩
      exact ⟨value, isFirst, rfl, rfl⟩
  · simp only [false_iff]
    rintro ⟨_, plain, nothing, _⟩
    exact regrouped ⟨plain, nothing⟩

end OpenExec.Planner
