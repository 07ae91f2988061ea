import OpenExec.ContinuationWork

/-!
# The continuation pass computes its description

`Layout` relates the state of the pass to the stories it has read: the work
stories in order, the continued stories brought in once each, the identifier
changes, and the place of every listed story that brings nothing else along.
Each part of a step keeps it.
-/

namespace OpenExec.Planner

open Release FiniteRenaming PrefixFold KeyedRows List ProjectPlan
open scoped List

variable {story : Story} {id : String} {ids : List String} {state : ContinuationState}
  {ledger : Ledger}

/-- A story with its persisted content; only the bindings the ledger does not
hold may be the plan's. -/
def Carries (ledger : Ledger) (story : Story) : Prop :=
  ∃ base, ledgerStory ledger story.id = some base ∧
    story = { base with
      requirementID := story.requirementID
      role := story.role
      roleReason := story.roleReason
      realExample := story.realExample }

theorem adoptBindings_id (story listed : Story) : (adoptBindings story listed).id = story.id := by
  unfold adoptBindings
  simp only
  split <;> split <;> rfl

theorem Carries.adopt (carries : Carries ledger story) (listed : Story) :
    Carries ledger (adoptBindings story listed) := by
  obtain ⟨base, found, same⟩ := carries
  refine ⟨base, adoptBindings_id story listed ▸ found, ?_⟩
  unfold adoptBindings
  simp only
  split <;> split <;> (rw [same])

theorem FromLedger.carries {kept : Kept} (fromLedger : FromLedger ledger kept)
    (member : story ∈ kept) : Carries ledger story :=
  ⟨story, fromLedger.content story member, rfl⟩

structure Emission (before after : ContinuationState) (ids : List String) : Prop where
  continued : after.continued = before.continued
  used : after.used = before.used
  refs : after.refs = before.refs
  once : before.emitted.Nodup → after.emitted.Nodup
  emitted : ∀ id, id ∈ after.emitted ↔ id ∈ before.emitted ∨ id ∈ ids
  stories : ∃ added, after.stories = before.stories ++ added ∧
    (∀ story ∈ added, story ∈ before.continued) ∧
    after.emitted.length = before.emitted.length + added.length ∧
    ∀ id ∈ after.emitted, id ∈ before.emitted ∨ id ∈ added.map Story.id

theorem emission_refl (state : ContinuationState) : Emission state state [] where
  continued := rfl
  used := rfl
  refs := rfl
  once := fun once => once
  emitted := by simp
  stories := ⟨[], by simp, by simp, rfl, fun _ member => .inl member⟩

theorem emit_emission (known : id ∈ Kept.ids state.continued) :
    Emission state (state.emit id) [id] := by
  by_cases already : id ∈ state.emitted
  · rw [ContinuationState.emit, if_pos already]
    refine ⟨rfl, rfl, rfl, fun once => once, ?_, ⟨[], by simp, by simp, rfl, fun _ => .inl⟩⟩
    intro other
    refine ⟨.inl, ?_⟩
    rintro (member | isNew)
    · exact member
    · exact mem_singleton.mp isNew ▸ already
  · obtain ⟨story, found⟩ := Option.isSome_iff_exists.mp (story?_isSome.mpr known)
    have named : story.id = id := row?_key found
    rw [ContinuationState.emit, if_neg already]
    refine ⟨rfl, rfl, rfl, fun once => nodup_cons.mpr ⟨already, once⟩, ?_, ⟨[story], ?_⟩⟩
    · intro other
      simp [or_comm]
    · refine ⟨by simp [found], ?_, rfl, ?_⟩
      · intro other member
        exact mem_singleton.mp member ▸ row?_mem found
      · intro other member
        rcases mem_cons.mp member with rfl | earlier
        · exact .inr (by simp [named])
        · exact .inl earlier

theorem Emission.trans {first second third : ContinuationState} {later : List String}
    (emission : Emission first second ids) (next : Emission second third later) :
    Emission first third (ids ++ later) where
  continued := next.continued.trans emission.continued
  used := next.used.trans emission.used
  refs := next.refs.trans emission.refs
  once := fun once => next.once (emission.once once)
  emitted := by
    intro id
    rw [next.emitted, emission.emitted, mem_append, or_assoc]
  stories := by
    obtain ⟨added, stories, known, length, present⟩ := emission.stories
    obtain ⟨added', stories', known', length', present'⟩ := next.stories
    refine ⟨added ++ added', by rw [stories', stories, append_assoc], ?_, ?_, ?_⟩
    · intro story member
      rcases mem_append.mp member with earlier | new
      · exact known story earlier
      · exact emission.continued ▸ known' story new
    · rw [length', length, length_append, Nat.add_assoc]
    · intro id member
      rw [map_append, mem_append]
      rcases present' id member with earlier | new
      · exact (present id earlier).imp_right .inl
      · exact .inr (.inr new)

theorem emitAll_emission (known : ∀ id ∈ ids, id ∈ Kept.ids state.continued) :
    Emission state (ids.foldl ContinuationState.emit state) ids := by
  induction ids generalizing state with
  | nil => exact emission_refl state
  | cons id ids ih =>
    have first := emit_emission (known id mem_cons_self)
    refine first.trans (ih fun later member => ?_)
    rw [first.continued]
    exact known later (mem_cons_of_mem _ member)

structure Layout (ledger : Ledger) (plan : ProjectPlan) (kept : Kept) (touched : List String)
    (done : List Story) (state : ContinuationState) : Prop where
  continued : Kept.ids state.continued = kept.ids
  carried : ∀ story ∈ state.continued, Carries ledger story
  once : state.emitted.Nodup
  emitted : ∀ id, id ∈ state.emitted ↔ id ∈ touched
  retained : ∀ story ∈ state.stories, story.id ∈ kept.ids → Carries ledger story
  present : ∀ id ∈ state.emitted, id ∈ state.stories.map Story.id
  work : (state.stories.filter fun story => story.id ∉ kept.ids) =
    workStories ledger plan kept done
  length : state.stories.length =
    state.emitted.length + (workStories ledger plan kept done).length
  place : ∀ {position : Nat} {listed : Story}, done[position]? = some listed →
    listed.id ∉ kept.ids → freshTasks kept listed ≠ [] → heldStories kept listed = [] →
    state.stories[storiesBefore kept plan.stories position]? = some (newWork kept listed)
  refs : ∀ entry, entry ∈ state.refs ↔ entry ∈ identifierChanges ledger plan kept done
  refsOnce : (names state.refs).Nodup
  used : ∀ id ∈ state.used, id ∈ plan.ids ∨
    id ∈ (workStories ledger plan kept done).map Story.id ∨
    ∃ story ∈ workStories ledger plan kept done, ∃ number, id = taskNumbered story.id number
  reserved : plan.ids ⊆ state.used
  allocated : (workStories ledger plan kept done).map Story.id ⊆ state.used

section

variable {ledger : Ledger} {plan : ProjectPlan} {kept : Kept} {touched : List String}
  {done rest : List Story} {listed : Story} {state : ContinuationState} {storyID : String}
  {item : Task × Nat}

theorem layout_initial (fromLedger : FromLedger ledger kept) :
    Layout ledger plan kept [] [] (initialContinuation plan kept) where
  continued := rfl
  carried := fun _ member => fromLedger.carries member
  once := nodup_nil
  emitted := by simp [initialContinuation]
  retained := by simp [initialContinuation]
  present := by simp [initialContinuation]
  work := rfl
  length := rfl
  place := by simp
  refs := by simp [initialContinuation, identifierChanges, workStories]
  refsOnce := nodup_nil
  used := fun _ member => .inl member
  reserved := fun _ member => member
  allocated := by simp [workStories]

theorem Layout.adopt (layout : Layout ledger plan kept touched done state)
    (found : state.continued.story? listed.id = some story) :
    Layout ledger plan kept touched done (state.adopt story listed) := by
  have named : story.id = listed.id := row?_key found
  have ids : Kept.ids (state.adopt story listed).continued = Kept.ids state.continued := by
    simp only [Kept.ids, ContinuationState.adopt, map_map]
    apply map_congr_left
    intro other _
    by_cases same : other.id = listed.id
    · simp [same, adoptBindings_id, named]
    · simp [same]
  refine { layout with continued := ids.trans layout.continued, carried := ?_ }
  intro other member
  obtain ⟨original, originalMem, rfl⟩ := mem_map.mp member
  by_cases same : original.id = listed.id
  · rw [if_pos same]
    exact (layout.carried story (row?_mem found)).adopt listed
  · rw [if_neg same]
    exact layout.carried original originalMem

theorem Layout.emit (layout : Layout ledger plan kept touched done state)
    {after : ContinuationState} (emission : Emission state after ids) :
    Layout ledger plan kept (touched ++ ids) done after := by
  obtain ⟨added, stories, known, length, present⟩ := emission.stories
  have addedKept : ∀ story ∈ added, story.id ∈ kept.ids := fun story member =>
    layout.continued ▸ mem_map_of_mem (known story member)
  refine
    { continued := emission.continued ▸ layout.continued
      carried := emission.continued ▸ layout.carried
      once := emission.once layout.once
      emitted := ?_
      retained := ?_
      present := ?_
      work := ?_
      length := ?_
      place := ?_
      refs := emission.refs ▸ layout.refs
      refsOnce := emission.refs ▸ layout.refsOnce
      used := emission.used ▸ layout.used
      reserved := emission.used ▸ layout.reserved
      allocated := emission.used ▸ layout.allocated }
  · intro id
    rw [emission.emitted, layout.emitted, mem_append]
  · intro story member isKept
    rw [stories] at member
    rcases mem_append.mp member with earlier | new
    · exact layout.retained story earlier isKept
    · exact layout.carried story (known story new)
  · intro id member
    rw [stories, map_append, mem_append]
    exact (present id member).imp_left (layout.present id)
  · have nothing : (added.filter fun story => story.id ∉ kept.ids) = [] := by
      rw [filter_eq_nil_iff]
      intro story member
      simpa using addedKept story member
    rw [stories, filter_append, nothing, append_nil, layout.work]
  · rw [stories, length_append, layout.length, length]
    omega
  · intro position story placed plain fresh alone
    have found := layout.place placed plain fresh alone
    rw [stories, List.getElem?_append_left (List.getElem?_eq_some_iff.mp found).1]
    exact found

theorem identifierChanges_key {value : String}
    (spec : WorkSpec ledger plan kept done (workStories ledger plan kept done))
    (member : (id, value) ∈ identifierChanges ledger plan kept done) :
    id ∈ ProjectPlan.storyRowIDs done := by
  rcases mem_append.mp member with regrouped | numbered
  · obtain ⟨story, storyMem, isRegrouped⟩ := mem_filterMap.mp regrouped
    exact mem_storyRowIDs.mpr ⟨story, storyMem, .inl (mem_regrouping.mp isRegrouped).1⟩
  · obtain ⟨story, storyMem, isNumbered⟩ := mem_flatMap.mp numbered
    obtain ⟨task, _, owned, named, _⟩ := mem_numberings.mp isNumbered
    obtain ⟨origin, originMem, isWork⟩ := spec.source story storyMem
    have fresh : task ∈ freshTasks kept origin := isWork.tasks ▸ mem_of_getElem? owned
    exact mem_storyRowIDs.mpr
      ⟨origin, originMem, .inr ⟨task, (mem_freshTasks.mp fresh).1, named⟩⟩

theorem storyRowIDs_disjoint (unique : (ProjectPlan.storyRowIDs (done ++ listed :: rest)).Nodup)
    (earlier : id ∈ ProjectPlan.storyRowIDs done) : id ∉ ProjectPlan.storyRowIDs [listed] := by
  have apart := (nodup_append'.mp ((flatMap_append ▸ unique :
    (storyRowIDs done ++ storyRowIDs (listed :: rest)).Nodup))).2.2
  intro later
  obtain ⟨story, storyMem, rows⟩ := mem_storyRowIDs.mp later
  obtain rfl := mem_singleton.mp storyMem
  exact apart earlier (mem_storyRowIDs.mpr ⟨story, mem_cons_self, rows⟩)

theorem workStories_skip (ledger : Ledger) (plan : ProjectPlan) (done : List Story)
    (nothing : freshTasks kept listed = []) :
    workStories ledger plan kept (done ++ [listed]) = workStories ledger plan kept done := by
  rw [workStories_append, placeWork, if_pos nothing]

theorem getElem?_append_singleton {position : Nat} {other : Story}
    (found : (done ++ [listed])[position]? = some other) :
    done[position]? = some other ∨ (position = done.length ∧ other = listed) := by
  rw [List.getElem?_append, getElem?_singleton] at found
  split at found
  · exact .inl found
  · obtain ⟨last, same⟩ := Option.ite_none_right_eq_some.mp found
    exact .inr ⟨by omega, (Option.some.inj same).symm⟩

/-- A story with nothing new can change the references alone. -/
theorem Layout.rename (layout : Layout ledger plan kept touched done state)
    (nothing : freshTasks kept listed = []) {refs : Refs} (once : (names refs).Nodup)
    (renamed : ∀ entry, entry ∈ refs ↔ entry ∈ state.refs ∨ regrouping kept listed = some entry) :
    Layout ledger plan kept touched (done ++ [listed]) { state with refs } := by
  have same := workStories_skip ledger plan done nothing
  refine
    { layout with
      work := same ▸ layout.work
      length := same ▸ layout.length
      place := ?_
      refs := ?_
      refsOnce := once
      used := same ▸ layout.used
      allocated := same ▸ layout.allocated }
  · intro position other found otherPlain fresh alone
    rcases getElem?_append_singleton found with earlier | ⟨_, rfl⟩
    · exact layout.place earlier otherPlain fresh alone
    · exact absurd nothing fresh
  · intro entry
    rw [renamed, layout.refs, identifierChanges, identifierChanges, same, filterMap_append]
    simp [or_comm, or_left_comm]

theorem Layout.skip (layout : Layout ledger plan kept touched done state)
    (nothing : freshTasks kept listed = []) (plain : regrouping kept listed = none) :
    Layout ledger plan kept touched (done ++ [listed]) state :=
  layout.rename nothing layout.refsOnce (by simp [plain])

variable (split : plan.stories = done ++ listed :: rest)
  (unique : (ProjectPlan.storyRowIDs plan.stories).Nodup)

include split unique in
theorem Layout.unnamed (layout : Layout ledger plan kept touched done state)
    (row : id ∈ ProjectPlan.storyRowIDs [listed]) : id ∉ names state.refs := by
  intro member
  obtain ⟨_, entry, rfl⟩ := mem_map.mp member
  have earlier := identifierChanges_key (workStories_spec ledger kept split unique)
    ((layout.refs _).mp entry)
  exact storyRowIDs_disjoint (split ▸ unique) earlier row

include split unique in
theorem Layout.regroup (layout : Layout ledger plan kept touched done state) {first : String}
    (regrouped : regrouping kept listed = some (listed.id, first)) :
    Layout ledger plan kept touched (done ++ [listed])
      { state with refs := assign state.refs listed.id first } := by
  obtain ⟨_, plain, nothing, _⟩ := mem_regrouping.mp regrouped
  have new : listed.id ∉ names state.refs := layout.unnamed split unique
    (mem_storyRowIDs.mpr ⟨listed, mem_singleton_self _, .inl rfl⟩)
  refine layout.rename nothing (names_assign_nodup layout.refsOnce _ _) fun entry => ?_
  rw [mem_assign new, regrouped, Option.some.injEq, eq_comm, or_comm]

structure Renumbered (ledger : Ledger) (plan : ProjectPlan) (storyID : String)
    (base : ContinuationState) (entries : List (Task × Nat)) (state : ContinuationState) :
    Prop where
  continued : state.continued = base.continued
  emitted : state.emitted = base.emitted
  stories : state.stories = base.stories
  refs : ∀ entry, entry ∈ state.refs ↔
    entry ∈ base.refs ∨ entry ∈ entries.filterMap (numbering ledger plan storyID)
  refsOnce : (names state.refs).Nodup
  used : ∀ id, id ∈ state.used ↔ id ∈ base.used ∨
    id ∈ (entries.filterMap (numbering ledger plan storyID)).map Prod.snd

theorem numbering_eq_some {entry : String × String}
    (numbered : numbering ledger plan storyID item = some entry) :
    entry = (item.1.id, taskNumbered storyID (item.2 + 1)) := by
  unfold numbering at numbered
  simp only [Option.ite_none_right_eq_some, Option.some.injEq] at numbered
  exact numbered.2.symm

theorem renumberTask_renumbered {base : ContinuationState}
    {entries : List (Task × Nat)} (free : ∀ number, taskNumbered storyID number ∈ base.used ↔
      taskNumbered storyID number ∈ plan.ids)
    (newKey : item.1.id ∉ names base.refs) (otherKeys : ∀ entry ∈ entries, entry.1.id ≠ item.1.id)
    (otherPositions : ∀ entry ∈ entries, entry.2 ≠ item.2)
    (renumbered : Renumbered ledger plan storyID base entries state) :
    Renumbered ledger plan storyID base (entries ++ [item])
      (renumberTask ledger storyID state item) := by
  have wanted : taskNumbered storyID (item.2 + 1) ∈ state.used ↔
      taskNumbered storyID (item.2 + 1) ∈ plan.ids := by
    rw [renumbered.used, free]
    refine ⟨?_, .inl⟩
    rintro (member | taken)
    · exact member
    · obtain ⟨entry, entryMem, same⟩ := mem_map.mp taken
      obtain ⟨other, otherMem, numbered⟩ := mem_filterMap.mp entryMem
      rw [numbering_eq_some numbered] at same
      have positions := (taskNumbered_inj same).2
      exact absurd (by omega) (otherPositions other otherMem)
  have unchanged : item.1.id ∉ names state.refs := by
    intro member
    obtain ⟨entry, entryMem, named⟩ := mem_map.mp member
    rcases (renumbered.refs entry).mp entryMem with earlier | numbered
    · exact newKey (named ▸ mem_map_of_mem earlier)
    · obtain ⟨other, otherMem, isNumbered⟩ := mem_filterMap.mp numbered
      rw [numbering_eq_some isNumbered] at named
      exact otherKeys other otherMem named
  have condition : (taskNumbered storyID (item.2 + 1) ≠ item.1.id ∧
      taskNumbered storyID (item.2 + 1) ∉ state.used ∧
      taskNumbered storyID (item.2 + 1) ∉ ledger.ids) ↔
      (numbering ledger plan storyID item).isSome := by
    rw [wanted]
    simp [numbering]
  unfold renumberTask
  cases numbered : numbering ledger plan storyID item with
  | none =>
    rw [if_neg (by rw [condition, numbered]; simp)]
    have same : (entries ++ [item]).filterMap (numbering ledger plan storyID) =
        entries.filterMap (numbering ledger plan storyID) := by
      simp [filterMap_append, numbered]
    exact { renumbered with refs := same ▸ renumbered.refs, used := same ▸ renumbered.used }
  | some entry =>
    obtain rfl := numbering_eq_some numbered
    rw [if_pos (by rw [condition, numbered]; rfl)]
    have extended : (entries ++ [item]).filterMap (numbering ledger plan storyID) =
        entries.filterMap (numbering ledger plan storyID) ++
          [(item.1.id, taskNumbered storyID (item.2 + 1))] := by
      simp [filterMap_append, numbered]
    refine
      { renumbered with
        refs := ?_
        refsOnce := names_assign_nodup renumbered.refsOnce _ _
        used := ?_ }
    · intro entry
      rw [mem_assign unchanged, renumbered.refs, extended, mem_append, mem_singleton,
        or_comm, or_assoc]
    · intro id
      rw [mem_cons, renumbered.used, extended, map_append, mem_append,
        map_singleton, mem_singleton, or_comm, or_assoc]

theorem renumberTasks_renumbered (ledger : Ledger) (story : Story) (base : ContinuationState)
    (free : ∀ number, taskNumbered story.id number ∈ base.used ↔
      taskNumbered story.id number ∈ plan.ids)
    (taskIDs : (story.tasks.map Task.id).Nodup)
    (newKeys : ∀ task ∈ story.tasks, task.id ∉ names base.refs) (once : (names base.refs).Nodup) :
    Renumbered ledger plan story.id base story.tasks.zipIdx
      (story.tasks.zipIdx.foldl (renumberTask ledger story.id) base) := by
  have keys : (story.tasks.zipIdx.map fun entry => entry.1.id).Nodup := by
    have same : (story.tasks.zipIdx.map fun entry => entry.1.id) = story.tasks.map Task.id := by
      calc (story.tasks.zipIdx.map fun entry => entry.1.id)
          = (story.tasks.zipIdx.map Prod.fst).map Task.id := by rw [map_map]; rfl
        _ = story.tasks.map Task.id := by rw [zipIdx_map_fst]
    exact same ▸ taskIDs
  have positions : (story.tasks.zipIdx.map Prod.snd).Nodup := by
    rw [zipIdx_map_snd]
    exact nodup_range'
  refine foldl_prefix (Renumbered ledger plan story.id base) ?_ ?_
  · exact ⟨rfl, rfl, rfl, by simp, once, by simp⟩
  · intro done rest item accumulator split renumbered
    rw [split, map_append, map_cons] at keys positions
    refine renumberTask_renumbered free ?_ ?_ ?_ renumbered
    · have member : item ∈ story.tasks.zipIdx := by simp [split]
      exact newKeys item.1 (mem_of_getElem? (mem_zipIdx_iff_getElem?.mp member))
    · intro entry member same
      exact (nodup_append'.mp keys).2.2 (mem_map_of_mem member)
        (same ▸ mem_cons_self)
    · intro entry member same
      exact (nodup_append'.mp positions).2.2 (mem_map_of_mem member)
        (same ▸ mem_cons_self)

theorem WorkOf.id_listed_or_numbered (listedMem : listed ∈ plan.stories)
    (isWork : WorkOf ledger plan kept listed story) :
    story.id ∈ plan.ids ∨ ∃ number, story.id = numbered "US" number := by
  rcases isWork.identity with ⟨_, rfl⟩ | ⟨_, _, _, number, same⟩
  · exact .inl (story_mem_ids listedMem : listed.id ∈ plan.ids)
  · exact .inr ⟨number, same⟩

include split unique in
theorem Layout.free_numbers (layout : Layout ledger plan kept touched done state)
    (isWork : WorkOf ledger plan kept listed story)
    (new : story.id ∉ (workStories ledger plan kept done).map Story.id) {extra : List String}
    (own : ∀ id ∈ extra, id = story.id) (number : Nat) :
    taskNumbered story.id number ∈ extra ++ state.used ↔
      taskNumbered story.id number ∈ plan.ids := by
  have notStory {other origin : Story} (originMem : origin ∈ plan.stories)
      (otherWork : WorkOf ledger plan kept origin other)
      (same : taskNumbered story.id number = other.id) :
      taskNumbered story.id number ∈ plan.ids := by
    rcases otherWork.id_listed_or_numbered originMem with listedID | ⟨_, isNumbered⟩
    · exact same ▸ listedID
    · exact absurd (same.trans isNumbered) (taskNumbered_ne_numbered _ _ _)
  have spec := workStories_spec ledger kept split unique
  constructor
  · intro member
    rcases mem_append.mp member with inExtra | inUsed
    · exact notStory (by simp [split]) isWork (own _ inExtra)
    · rcases layout.used _ inUsed with incoming | workID | ⟨other, otherMem, _, same⟩
      · exact incoming
      · obtain ⟨other, otherMem, same⟩ := mem_map.mp workID
        obtain ⟨origin, originMem, otherWork⟩ := spec.source other otherMem
        exact notStory (by simp [split, originMem]) otherWork same.symm
      · exact absurd ((taskNumbered_inj same).1 ▸ mem_map_of_mem otherMem) new
  · exact fun incoming => mem_append_right _ (layout.reserved incoming)

include split in
theorem take_length_of_split : plan.stories.take done.length = done := by
  rw [split, take_left' rfl]

include split unique in
theorem Layout.storiesBefore_eq (layout : Layout ledger plan kept touched done state)
    (alone : touched = done.flatMap (touchedStories kept)) :
    storiesBefore kept plan.stories done.length = state.stories.length := by
  have emittedCount : state.emitted.length = (done.flatMap (touchedStories kept)).dedup.length := by
    refine ((perm_ext_iff_of_nodup layout.once (nodup_dedup _)).mpr ?_).length_eq
    intro id
    rw [layout.emitted, alone, mem_dedup]
  rw [storiesBefore, take_length_of_split split, layout.length, emittedCount,
    (workStories_spec ledger kept split unique).length]

include split unique in
theorem Layout.append (extra : List String) (layout : Layout ledger plan kept touched done state)
    (isWork : WorkOf ledger plan kept listed story)
    (appended : workStories ledger plan kept (done ++ [listed]) =
      workStories ledger plan kept done ++ [story]) (plain : story.id ∉ kept.ids)
    (own : ∀ id ∈ extra, id = story.id) (named : story.id ∈ extra ++ state.used)
    (alone : listed.id ∉ kept.ids → heldStories kept listed = [] →
      touched = done.flatMap (touchedStories kept)) :
    Layout ledger plan kept touched (done ++ [listed])
      (placeStory ledger { state with used := extra ++ state.used } story) := by
  have nextSplit : plan.stories = (done ++ [listed]) ++ rest := by simp [split]
  have nextSpec := workStories_spec ledger kept nextSplit unique
  have new : story.id ∉ (workStories ledger plan kept done).map Story.id := by
    have once := nextSpec.unique
    rw [appended, map_append, map_singleton] at once
    exact disjoint_singleton.mp (nodup_append'.mp once).2.2
  have taskIDs : (story.tasks.map Task.id).Nodup := by
    have rows := (nodup_flatMap.mp unique).1 listed (by simp [split])
    rw [isWork.tasks]
    exact ((nodup_cons.mp rows).2).sublist ((freshTasks_sublist kept listed).map _)
  have newKeys : ∀ task ∈ story.tasks, task.id ∉ names state.refs := by
    intro task member
    refine layout.unnamed split unique (mem_storyRowIDs.mpr ⟨listed, mem_singleton_self _, ?_⟩)
    exact .inr ⟨task, (mem_freshTasks.mp (isWork.tasks ▸ member)).1, rfl⟩
  have renumbered := renumberTasks_renumbered ledger story
    { state with used := extra ++ state.used }
    (layout.free_numbers split unique isWork new own) taskIDs newKeys layout.refsOnce
  have stories : (placeStory ledger { state with used := extra ++ state.used } story).stories =
      state.stories ++ [story] := by
    simp only [placeStory, renumbered.stories]
  refine
    { continued := ?_
      carried := ?_
      once := ?_
      emitted := ?_
      retained := ?_
      present := ?_
      work := ?_
      length := ?_
      place := ?_
      refs := ?_
      refsOnce := renumbered.refsOnce
      used := ?_
      reserved := ?_
      allocated := ?_ }
  · simp only [placeStory, renumbered.continued, layout.continued]
  · simpa only [placeStory, renumbered.continued] using layout.carried
  · simpa only [placeStory, renumbered.emitted] using layout.once
  · simpa only [placeStory, renumbered.emitted] using layout.emitted
  · intro other member isKept
    rw [stories] at member
    rcases mem_append.mp member with earlier | isNew
    · exact layout.retained other earlier isKept
    · exact absurd (mem_singleton.mp isNew ▸ isKept) plain
  · intro id member
    rw [stories, map_append, mem_append]
    simp only [placeStory, renumbered.emitted] at member
    exact .inl (layout.present id member)
  · rw [stories, filter_append, layout.work, appended]
    simp [plain]
  · rw [stories, length_append, layout.length, appended, length_append]
    simp only [placeStory, renumbered.emitted]
    omega
  · intro position other found otherPlain fresh otherAlone
    rw [stories]
    rcases getElem?_append_singleton found with earlier | ⟨rfl, rfl⟩
    · have placed := layout.place earlier otherPlain fresh otherAlone
      rw [List.getElem?_append_left (List.getElem?_eq_some_iff.mp placed).1]
      exact placed
    · -- Nothing was brought in, so the story stands right after the earlier ones.
      have position := layout.storiesBefore_eq split unique (alone otherPlain otherAlone)
      have same : story = newWork kept other := by
        rcases isWork.identity with ⟨_, same⟩ | ⟨continued, _⟩
        · exact same
        · exact absurd continued otherPlain
      rw [position, same]
      simp
  · intro entry
    have changes : (placeStory ledger { state with used := extra ++ state.used } story).refs =
        (story.tasks.zipIdx.foldl (renumberTask ledger story.id)
          { state with used := extra ++ state.used }).refs := rfl
    have plainListed : regrouping kept listed = none := by
      rw [regrouping, if_neg fun both => isWork.nonempty both.2]
    rw [changes, renumbered.refs, layout.refs, identifierChanges, identifierChanges, appended,
      filterMap_append, flatMap_append]
    simp only [filterMap_cons, plainListed, filterMap_nil, append_nil,
      mem_append, flatMap_singleton, or_assoc]
    rfl
  · intro id member
    rw [appended]
    rcases (renumbered.used id).mp member with earlier | numbered
    · rcases mem_append.mp earlier with inExtra | inUsed
      · exact .inr (.inl (by simp [own id inExtra]))
      · rcases layout.used id inUsed with incoming | workID | ⟨other, otherMem, number, same⟩
        · exact .inl incoming
        · exact .inr (.inl (by
            rw [map_append]
            exact mem_append_left _ workID))
        · exact .inr (.inr ⟨other, mem_append_left _ otherMem, number, same⟩)
    · obtain ⟨entry, entryMem, rfl⟩ := mem_map.mp numbered
      obtain ⟨item, _, isNumbered⟩ := mem_filterMap.mp entryMem
      refine .inr (.inr ⟨story, by simp, item.2 + 1, ?_⟩)
      rw [numbering_eq_some isNumbered]
  · intro id member
    exact (renumbered.used id).mpr (.inl (mem_append_right _ (layout.reserved member)))
  · intro id member
    rw [appended, map_append, mem_append] at member
    rcases member with earlier | isNew
    · exact (renumbered.used id).mpr (.inl (mem_append_right _ (layout.allocated earlier)))
    · obtain rfl : id = story.id := by simpa using isNew
      exact (renumbered.used _).mpr (.inl named)

theorem touchedStories_of_continued (continued : listed.id ∈ kept.ids) :
    touchedStories kept listed = listed.id :: heldStories kept listed := by
  rw [touchedStories, if_pos continued, singleton_append]

theorem touchedStories_of_plain (plain : listed.id ∉ kept.ids) :
    touchedStories kept listed = heldStories kept listed := by
  rw [touchedStories, if_neg plain, nil_append]

theorem touchedStories_kept [ledger.Consistent] (fromLedger : FromLedger ledger kept)
    (member : id ∈ touchedStories kept listed) : id ∈ kept.ids := by
  rcases mem_append.mp member with own | held
  · split_ifs at own with continued
    · exact mem_singleton.mp own ▸ continued
    · exact absurd own not_mem_nil
  · obtain ⟨_, _, retained⟩ := mem_heldStories.mp held
    exact ((retainedStory_eq_some fromLedger).mp retained).1

theorem Layout.emitTouched [ledger.Consistent] (listed : Story)
    (layout : Layout ledger plan kept touched done state)
    (fromLedger : FromLedger ledger kept) :
    Layout ledger plan kept (touched ++ touchedStories kept listed) done
      ((touchedStories kept listed).foldl ContinuationState.emit state) :=
  layout.emit (emitAll_emission fun _ member =>
    layout.continued.symm ▸ touchedStories_kept fromLedger member)

section

variable (layout : Layout ledger plan kept touched done state)
include layout

theorem Layout.nextFreeID_eq :
    nextFreeID "US" (state.used ++ ledger.ids) =
      nextFreeID "US" ((workStories ledger plan kept done).map Story.id ++ plan.ids ++
        ledger.ids) := by
  apply nextFreeID_congr
  intro number
  rw [mem_append, mem_append, mem_append]
  refine or_congr_left ⟨?_, ?_⟩
  · intro member
    rcases layout.used _ member with incoming | workID | ⟨_, _, _, same⟩
    · exact .inr incoming
    · exact .inl workID
    · exact absurd same.symm (taskNumbered_ne_numbered _ _ _)
  · rintro (workID | incoming)
    · exact layout.allocated workID
    · exact layout.reserved incoming

include split unique in
theorem Layout.continued_step [ledger.Consistent] (fromLedger : FromLedger ledger kept)
    (found : state.continued.story? listed.id = some story) :
    Layout ledger plan kept (touched ++ touchedStories kept listed) (done ++ [listed])
      (continueStory ledger kept state listed) := by
  have continued : listed.id ∈ kept.ids := by
    rw [← layout.continued, ← story?_isSome, found]
    rfl
  have emitted := (layout.adopt found).emitTouched listed fromLedger
  rw [touchedStories_of_continued continued, foldl_cons] at emitted
  rw [touchedStories_of_continued continued, continueStory, found]
  simp only
  by_cases nothing : freshTasks kept listed = []
  · rw [if_pos nothing]
    exact emitted.skip nothing (by rw [regrouping, if_neg fun both => both.1 continued])
  rw [if_neg nothing]
  have appended := workStories_append ledger plan kept done listed
  rw [placeWork, if_neg nothing, if_pos continued, ← emitted.nextFreeID_eq] at appended
  have free := nextFreeID_not_mem "US"
    ((workStories ledger plan kept done).map Story.id ++ plan.ids ++ ledger.ids)
  rw [← emitted.nextFreeID_eq] at free
  simp only [mem_append, not_or] at free
  obtain ⟨number, isNumber⟩ := nextFreeID_eq_numbered "US" (_ ++ ledger.ids)
  refine emitted.append split unique [_]
    ⟨rfl, nothing, .inr ⟨continued, free.1.2, free.2, number, isNumber⟩⟩ appended ?_
    (fun id member => mem_singleton.mp member) (by simp [continuationStory]) ?_
  · intro isKept
    obtain ⟨_, persisted⟩ := fromLedger.persisted isKept
    exact free.2 (Ledger.mem_ids_of_getStory (Option.isSome_of_eq_some persisted))
  · exact fun plain => absurd continued plain

include split unique in
theorem Layout.plain_step [ledger.Consistent] (fromLedger : FromLedger ledger kept)
    (all : touched = done.flatMap (touchedStories kept))
    (missing : state.continued.story? listed.id = none) :
    Layout ledger plan kept (touched ++ touchedStories kept listed) (done ++ [listed])
      (continueStory ledger kept state listed) := by
  have plain : listed.id ∉ kept.ids := layout.continued ▸ story?_eq_none.mp missing
  have emitted := layout.emitTouched listed fromLedger
  rw [touchedStories_of_plain plain] at emitted ⊢
  rw [continueStory, missing]
  simp only
  by_cases nothing : freshTasks kept listed = []
  · rw [if_pos nothing]
    split
    · next empty =>
      refine emitted.skip nothing ?_
      rw [regrouping, if_pos ⟨plain, nothing⟩, empty, Option.map_none]
    · next first isFirst =>
      refine emitted.regroup split unique ?_
      rw [regrouping, if_pos ⟨plain, nothing⟩, isFirst, Option.map_some]
  · rw [if_neg nothing]
    have appended := workStories_append ledger plan kept done listed
    rw [placeWork, if_neg nothing, if_neg plain] at appended
    refine emitted.append split unique [] ⟨rfl, nothing, .inl ⟨plain, rfl⟩⟩ appended
      plain (by simp) ?_ ?_
    · have listedMem : listed ∈ plan.stories := by simp [split]
      exact emitted.reserved (story_mem_ids listedMem : listed.id ∈ plan.ids)
    · intro _ alone
      rw [alone, append_nil, all]

end

include split unique in
theorem continueStory_layout [ledger.Consistent] (fromLedger : FromLedger ledger kept)
    (layout : Layout ledger plan kept (done.flatMap (touchedStories kept)) done state) :
    Layout ledger plan kept ((done ++ [listed]).flatMap (touchedStories kept)) (done ++ [listed])
      (continueStory ledger kept state listed) := by
  rw [flatMap_append, flatMap_singleton]
  cases found : state.continued.story? listed.id with
  | some story => exact layout.continued_step split unique fromLedger found
  | none => exact layout.plain_step split unique fromLedger rfl found

end

theorem continuationPass_layout (ledger : Ledger) [ledger.Consistent] {plan : ProjectPlan}
    (unique : (ProjectPlan.storyRowIDs plan.stories).Nodup) :
    let kept := keptStories ledger plan
    Layout ledger plan kept (plan.stories.flatMap (touchedStories kept)) plan.stories
      (continuationPass ledger plan) := by
  have fromLedger := keptStories_fromLedger ledger plan
  exact foldl_prefix
    (fun done state => Layout ledger plan (keptStories ledger plan)
      (done.flatMap (touchedStories (keptStories ledger plan))) done state)
    (layout_initial fromLedger)
    (fun split layout => continueStory_layout split unique fromLedger layout)

end OpenExec.Planner
