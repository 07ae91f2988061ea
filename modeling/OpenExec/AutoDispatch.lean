import OpenExec.BoundedLoop
import OpenExec.PrefixFold
import OpenExec.TaskLedger
import Mathlib.Data.Finset.Card
import Mathlib.Data.Finset.SDiff
import Mathlib.Order.Bounds.Basic

/-!
# Tasks held back from automatic dispatch

`filterAutoDispatchable` of `pkg/manager/scheduler.go` holds back the tasks that
need a person and, pass after pass, what depends on them.
-/

namespace OpenExec.TaskQueue

open List

section

variable (pending : List TaskRow) (storyMap : String → Option StoryRow)

/-- The two inner loops over the dependencies of a task and of its story. -/
def DependsOnHeld (excludedStories excluded : List String) (task : TaskRow) : Prop :=
  (∃ dep ∈ task.dependsOn, dep ∈ excluded) ∨
    ∃ story ∈ storyMap task.storyID, ∃ dep ∈ story.dependsOn, dep ∈ excludedStories

instance (excludedStories excluded : List String) (task : TaskRow) :
    Decidable (DependsOnHeld storyMap excludedStories excluded task) := by
  unfold DependsOnHeld
  infer_instance

def holdTask (excludedStories excluded : List String) (task : TaskRow) : List String :=
  if task.id ∈ excluded then excluded
  else if DependsOnHeld storyMap excludedStories excluded task then task.id :: excluded
  else excluded

variable (excluded : List String)

def storiesOf : List String :=
  (pending.filter fun task => task.id ∈ excluded).map TaskRow.storyID

/-- One pass.  The stories with an excluded task are collected before it, while
the tasks it excludes count at once. -/
def holdPass : List String :=
  pending.foldl (holdTask storyMap (storiesOf pending excluded)) excluded

def holdRound : Option (List String) :=
  if excluded = [] ∨ holdPass pending storyMap excluded = excluded then none
  else some (holdPass pending storyMap excluded)

def hitlIDs : List String :=
  (pending.filter fun task => task.metadata.mode = .hitl).map TaskRow.id

def excludedIDs : List String :=
  BoundedLoop.run (holdRound pending storyMap) (pending.length + 1) (hitlIDs pending)

def filterAutoDispatchable : List TaskRow × List TaskRow :=
  let excluded := excludedIDs pending storyMap
  (pending.filter fun task => task.id ∉ excluded, pending.filter fun task => task.id ∈ excluded)

/-- The tasks named by `ids` include those that need a person, and what depends
on one of them or is in a story that depends on the story of one. -/
structure HoldClosed (ids : Set String) : Prop where
  hitl : ∀ task ∈ pending, task.metadata.mode = .hitl → task.id ∈ ids
  task : ∀ task ∈ pending, ∀ dep ∈ task.dependsOn, dep ∈ ids → task.id ∈ ids
  story : ∀ task ∈ pending, ∀ story, storyMap task.storyID = some story →
    ∀ held ∈ pending, held.id ∈ ids → held.storyID ∈ story.dependsOn → task.id ∈ ids

end

section

variable {pending : List TaskRow} {storyMap : String → Option StoryRow}
  {excluded : List String}

/-- What a pass that has read `done` has added: when that is nothing, nothing fired. -/
structure Adds (pending : List TaskRow) (storyMap : String → Option StoryRow)
    (excluded : List String) (done : List TaskRow) (added : List String) : Prop where
  new : ∀ id ∈ added, id ∉ excluded ∧ ∃ task ∈ pending, task.id = id
  sound : ∀ ids, HoldClosed pending storyMap ids → (∀ id ∈ excluded, id ∈ ids) →
    ∀ id ∈ added, id ∈ ids
  quiet : added = [] → ∀ task ∈ done,
    DependsOnHeld storyMap (storiesOf pending excluded) excluded task → task.id ∈ excluded

theorem holdPass_spec (pending : List TaskRow) (storyMap : String → Option StoryRow)
    (excluded : List String) : ∃ added, holdPass pending storyMap excluded = added ++ excluded ∧
      Adds pending storyMap excluded pending added := by
  refine PrefixFold.foldl_prefix (fun done current => ∃ added, current = added ++ excluded ∧
    Adds pending storyMap excluded done added) ?_ ?_
  · exact ⟨[], rfl, by simp, by simp, by simp⟩
  · rintro done rest task _ split ⟨added, rfl, new, sound, quiet⟩
    have member : task ∈ pending := split ▸ by simp
    have quiet' (none : added = []) (last : DependsOnHeld storyMap (storiesOf pending excluded)
        excluded task → task.id ∈ excluded) : ∀ other ∈ done ++ [task], DependsOnHeld storyMap
        (storiesOf pending excluded) excluded other → other.id ∈ excluded := by
      intro other listed
      rcases mem_append.mp listed with earlier | isTask
      · exact quiet none other earlier
      · exact mem_singleton.mp isTask ▸ last
    simp only [holdTask]
    split
    · next known =>
        exact ⟨added, rfl, new, sound, fun none => quiet' none fun _ => by simpa [none] using known⟩
    split
    · next unknown depends =>
      refine ⟨task.id :: added, rfl, ?_, ?_, by simp⟩
      · intro id listed
        rcases mem_cons.mp listed with rfl | earlier
        · exact ⟨fun known => unknown (mem_append_right _ known), task, member, rfl⟩
        · exact new id earlier
      · intro ids closed known id listed
        rcases mem_cons.mp listed with rfl | earlier
        · rcases depends with ⟨dep, depends, isHeld⟩ | ⟨story, found, dep, depends, isHeld⟩
          · refine closed.task task member dep depends ?_
            rcases mem_append.mp isHeld with new | old
            · exact sound ids closed known dep new
            · exact known dep old
          · obtain ⟨held, kept, rfl⟩ := mem_map.mp isHeld
            obtain ⟨heldMember, isExcluded⟩ := mem_filter.mp kept
            exact closed.story task member story found held heldMember
              (known _ (of_decide_eq_true isExcluded)) depends
        · exact sound ids closed known id earlier
    · next independent =>
      refine ⟨added, rfl, new, sound, fun none => quiet' none fun depends => ?_⟩
      exact absurd (by simpa [none] using depends) independent

theorem holdClosed_of_stopped (hitl : ∀ id ∈ hitlIDs pending, id ∈ excluded)
    (stopped : holdRound pending storyMap excluded = none) :
    HoldClosed pending storyMap {id | id ∈ excluded} := by
  have quiet : excluded = [] ∨ ∀ task ∈ pending,
      DependsOnHeld storyMap (storiesOf pending excluded) excluded task → task.id ∈ excluded := by
    unfold holdRound at stopped
    split at stopped
    · next ends =>
      refine ends.imp id fun same => ?_
      obtain ⟨added, isPass, adds⟩ := holdPass_spec pending storyMap excluded
      exact adds.quiet (append_left_eq_self.mp (isPass.symm.trans same))
    · cases stopped
  refine ⟨?_, ?_, ?_⟩
  · intro task member needsPerson
    exact hitl _ (mem_map_of_mem (mem_filter.mpr ⟨member, by simpa using needsPerson⟩))
  · intro task member dep depends isHeld
    rcases quiet with rfl | quiet
    · exact absurd isHeld not_mem_nil
    · exact quiet task member (.inl ⟨dep, depends, isHeld⟩)
  · intro task member story found held heldMember isHeld depends
    rcases quiet with rfl | quiet
    · exact absurd isHeld not_mem_nil
    · have listed : held.storyID ∈ storiesOf pending excluded :=
        mem_map_of_mem (mem_filter.mpr ⟨heldMember, decide_eq_true isHeld⟩)
      exact quiet task member (.inr ⟨story, found, _, depends, listed⟩)

theorem excludedIDs_spec (pending : List TaskRow) (storyMap : String → Option StoryRow) :
  ((∀ id ∈ hitlIDs pending, id ∈ excludedIDs pending storyMap) ∧
      ∀ held, HoldClosed pending storyMap held → ∀ id ∈ excludedIDs pending storyMap, id ∈ held) ∧
      holdRound pending storyMap (excludedIDs pending storyMap) = none := by
  refine BoundedLoop.run_spec
    (fun excluded => (∀ id ∈ hitlIDs pending, id ∈ excluded) ∧
      ∀ held, HoldClosed pending storyMap held → ∀ id ∈ excluded, id ∈ held)
    (fun excluded => ((pending.map TaskRow.id).toFinset \ excluded.toFinset).card) ?_ ?_ ?_
  · rintro excluded next ⟨hitl, sound⟩ taken
    obtain ⟨added, isPass, adds⟩ := holdPass_spec pending storyMap excluded
    simp only [holdRound, isPass, Option.ite_none_left_eq_some, not_or, Option.some.injEq] at taken
    obtain ⟨⟨_, changed⟩, rfl⟩ := taken
    refine ⟨⟨fun id known => mem_append_right _ (hitl id known), ?_⟩, ?_⟩
    · intro held closed id listed
      rcases mem_append.mp listed with new | old
      · exact adds.sound held closed (sound held closed) id new
      · exact sound held closed id old
    · obtain ⟨id, isAdded⟩ := exists_mem_of_ne_nil added fun none => changed (by simp [none])
      obtain ⟨fresh, task, member, rfl⟩ := adds.new id isAdded
      refine Finset.card_lt_card (Finset.ssubset_iff_of_subset ?_ |>.mpr ⟨task.id, ?_, ?_⟩)
      · intro other
        simp only [Finset.mem_sdiff, mem_toFinset, mem_append, not_or]
        exact fun ⟨listed, _, unknown⟩ => ⟨listed, unknown⟩
      · simpa [fresh] using ⟨task, member, rfl⟩
      · simp [isAdded]
  · refine ⟨fun id known => known, ?_⟩
    intro held closed id known
    obtain ⟨task, kept, rfl⟩ := mem_map.mp known
    obtain ⟨member, needsPerson⟩ := mem_filter.mp kept
    exact closed.hitl task member (of_decide_eq_true needsPerson)
  · have most := Finset.card_le_card (Finset.sdiff_subset (s := (pending.map TaskRow.id).toFinset)
      (t := (hitlIDs pending).toFinset))
    have listed := toFinset_card_le (pending.map TaskRow.id)
    rw [length_map] at listed
    omega

end

/-- The passes end, and split the pending tasks by the least set that contains
the tasks that need a person and is closed under both kinds of dependencies. -/
theorem filterAutoDispatchable_least (pending : List TaskRow)
    (storyMap : String → Option StoryRow) : ∃ ids : List String,
      IsLeast {held | HoldClosed pending storyMap held} {id | id ∈ ids} ∧
      holdRound pending storyMap ids = none ∧
      filterAutoDispatchable pending storyMap =
        (pending.filter fun task => task.id ∉ ids, pending.filter fun task => task.id ∈ ids) := by
  obtain ⟨⟨hitl, least⟩, stopped⟩ := excludedIDs_spec pending storyMap
  exact ⟨_, ⟨holdClosed_of_stopped hitl stopped, fun held closed id => least held closed id⟩,
    stopped, rfl⟩

end OpenExec.TaskQueue
