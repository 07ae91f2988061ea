import OpenExec.GraphBuilds
import OpenExec.GuardedRuns

/-!
# The read gate of the graph

A read recomputes the manifest of the worktree and answers from the active generation if
that was built from it.
-/

namespace OpenExec.Knowledge

open KeyedRows GuardedRuns Option List Table

variable {ρ : Type} {status : GraphStatus}

def Generation.IsOf (generation : Generation) (manifest : Manifest) : Prop :=
  generation.manifestHash = manifest.manifestHash ∧
    generation.configurationDigest = manifest.configurationDigest

instance (generation : Generation) (manifest : Manifest) : Decidable (generation.IsOf manifest) :=
  inferInstanceAs (Decidable (_ ∧ _))

def Generation.Answerable (generation : Generation) : Prop :=
  generation.status = .current ∨ generation.status = .incomplete

instance (generation : Generation) : Decidable generation.Answerable :=
  inferInstanceAs (Decidable (_ ∨ _))

/-- What one read meets: the manifests in the order in which they are read, and the builds. -/
structure ReadRun (ρ : Type) where
  cancelled : Bool
  gate : Option Manifest
  markFails : Bool
  planned : Option Manifest
  refresh : BuildRun ρ
  rescan : BuildRun ρ
  queryFails : Bool
  last : Option Manifest

structure Answer where
  generation : Generation
  manifest : Manifest

namespace GraphStore

variable (orders : QueryOrders) (store : GraphStore ρ) (run : ReadRun ρ)
  (identity : RepositoryIdentity)
  (version : String)

def answerAgain : Option Answer :=
  if run.queryFails then none
  else
    match store.activeGeneration orders identity.worktreeID, run.last with
    | some generation, some last => if generation.IsOf last then some ⟨generation, last⟩ else none
    | _, _ => none

/-- Only drifted inputs make a current generation stale. -/
def markDrifted (generation : Generation) (manifest : Manifest) : GraphStore ρ :=
  if generation.status = .current ∧ ¬generation.IsOf manifest ∧ run.markFails = false then
    { store with generations := store.generations.markStale generation.id }
  else store

/-- A refresh that changed nothing is followed by a full scan. -/
def refreshOnRead : GraphStore ρ × Option Answer :=
  let refreshed := store.refreshRepository orders run.refresh identity run.planned version
  match refreshed.2 with
  | none => (refreshed.1, none)
  | some true => (refreshed.1, refreshed.1.answerAgain orders run identity)
  | some false =>
    let scanned := refreshed.1.scanRepository orders run.rescan identity version
    (scanned.1, if scanned.2 then scanned.1.answerAgain orders run identity else none)

def freshGeneration (noRefreshOnRead : Bool) : GraphStore ρ × Option Answer :=
  if run.cancelled then (store, none)
  else
    match store.activeGeneration orders identity.worktreeID, run.gate with
    | some generation, some manifest =>
      if generation.extractorVersion = version ∧ generation.IsOf manifest ∧
        generation.Answerable then
        (store, some ⟨generation, manifest⟩)
      else if noRefreshOnRead then (store, none)
      else (store.markDrifted run generation manifest).refreshOnRead orders run identity version
    | _, _ => (store, none)

end GraphStore

namespace Generations

variable {version worktreeID : String} {generations later last : Generations} {complete : Prop}

/-- Every generation that can answer was there before, is of this extractor, or holds legacy
pointers. -/
def Added (version : String) (generations later : Generations) : Prop :=
  ∀ generation ∈ later.rows, generation.Answerable →
    generation ∈ generations.rows ∨ generation.extractorVersion = version ∨
      generation.manifestHash = legacyHash

theorem Added.refl : Added version generations generations :=
  fun _ member _ => .inl member

theorem Added.trans (first : Added version generations later) (second : Added version later last) :
    Added version generations last := by
  intro generation member answerable
  rcases second generation member answerable with earlier | added
  · exact first generation earlier answerable
  · exact .inr added

theorem added_setStatus {applies : Generation → Bool}
    (dead : status ≠ .current ∧ status ≠ .incomplete) :
    Added version generations (generations.setStatus applies status) := by
  intro generation member answerable
  obtain ⟨old, isOld, rfl⟩ := mem_map.mp member
  split at answerable
  · exact (answerable.elim dead.1 dead.2).elim
  · next unchanged =>
    rw [if_neg unchanged]
    exact .inl isOld

theorem added_insert {row : Generation} (inserted : generations.insert? row = some later)
    (allowed : row.Answerable → row.manifestHash = legacyHash) :
    Added version generations later := by
  unfold insert? at inserted
  split at inserted
  · cases inserted
  cases inserted
  intro generation member answerable
  rcases mem_put member with rfl | earlier
  · exact .inr (.inr (allowed answerable))
  · exact .inl earlier

/-- The worktree has a generation that can answer, and if nothing was left out its current one
is of this extractor. -/
structure Settled (version worktreeID : String) (complete : Prop)
    (generations : Generations) : Prop where
  answers : ∃ generation ∈ generations.rows, generation.worktreeID = worktreeID ∧
    generation.Answerable ∧ (complete → generation.status = .current)
  ours : complete → ∀ generation ∈ generations.rows, generation.worktreeID = worktreeID →
    generation.status = .current → generation.extractorVersion = version

def Building (version worktreeID id : String) (generations : Generations) : Prop :=
  ∃ built, generations.get? id = some built ∧ built.worktreeID = worktreeID ∧
    built.extractorVersion = version

variable {id : String}

theorem Building.promote {now : Nat} (building : Building version worktreeID id generations)
    (promoted : generations.promoteGeneration id now = some later) :
    Added version generations later ∧ Settled version worktreeID complete later := by
  obtain ⟨built, isBuilt, rfl, rfl⟩ := building
  unfold Generations.promoteGeneration at promoted
  rw [isBuilt] at promoted
  dsimp only at promoted
  split at promoted
  · cases promoted
  cases promoted
  refine ⟨fun generation member answerable => ?_,
    ?_, fun _ generation member inTree isCurrent => ?_⟩
  · rcases mem_put member with rfl | earlier
    · exact .inr (.inl rfl)
    · exact added_setStatus (by simp) generation earlier answerable
  · have isPut {table : Generations} {row : Generation} : (table.put row).get? row.id =
      some row := by
      rw [get?_put, if_pos rfl]
    exact ⟨_, get?_mem isPut, rfl, .inl rfl, fun _ => rfl⟩
  · rcases mem_put member with rfl | earlier
    · rfl
    · obtain ⟨old, _, rfl⟩ := mem_map.mp earlier
      split at isCurrent
      · cases isCurrent
      · next other =>
        rw [if_neg other] at inTree
        exact absurd (decide_eq_true ⟨inTree, isCurrent⟩) other

theorem Building.completePartial (building : Building version worktreeID id generations)
    (incomplete : ¬complete) (completed : generations.completePartialGeneration id = some later) :
    Added version generations later ∧ Settled version worktreeID complete later := by
  obtain ⟨built, isBuilt, rfl, rfl⟩ := building
  unfold Generations.completePartialGeneration Generations.isBuilding at completed
  rw [isBuilt] at completed
  split at completed
  case isFalse => cases completed
  next isBuilding =>
  cases completed
  have named := get?_key isBuilt
  refine ⟨fun generation member answerable => ?_, ⟨{ built with status := .incomplete }, ?_, rfl,
    .inr rfl, fun whole => absurd whole incomplete⟩, fun whole => absurd whole incomplete⟩
  · obtain ⟨old, isOld, rfl⟩ := mem_map.mp member
    split
    · next applies =>
      have same : old = built := by
        have found := get?_of_mem isOld
        rw [(of_decide_eq_true applies).1, isBuilt] at found
        exact (Option.some.inj found).symm
      exact .inr (.inl (by rw [same]))
    · exact .inl isOld
  · have found : (generations.endBuild id .incomplete).get? id =
        some { built with status := .incomplete } := by
      unfold Generations.endBuild
      rw [Generations.get?_setStatus, isBuilt, map_some, if_pos]
      simpa [named] using isBuilding
    exact get?_mem found

end Generations

namespace GraphStore

open Generations

variable {orders : QueryOrders} {store next : GraphStore ρ} {run : BuildRun ρ}
  {identity : RepositoryIdentity} {version : String} {before : Generations}
  {result : GraphStore ρ × Bool} {manifest : Manifest}

structure Outcome (version worktreeID : String) (run : BuildRun ρ) (before after : Generations)
    (succeeded : Bool) : Prop where
  added : Added version before after
  settled : succeeded = true → Settled version worktreeID (run.incomplete = false) after

theorem outcome_of_added {after : Generations} (added : Added version before after) :
    Outcome version identity.worktreeID run before after false :=
  ⟨added, fun failed => by cases failed⟩

theorem outcome_failBuild (failure : IsFailure status)
    (added : Added version before store.generations) :
    Outcome version identity.worktreeID run before
      (store.failBuild run status).generations false := by
  refine outcome_of_added (added.trans ?_)
  unfold failBuild
  split
  · exact .refl
  · exact added_setStatus (by rcases failure with rfl | rfl <;> simp)

theorem beginGeneration_building
    (isBegun : store.beginGeneration run identity version manifest = some next) :
    Building version identity.worktreeID run.generationID next.generations ∧
      Added version store.generations next.generations := by
  unfold beginGeneration at isBegun
  split at isBegun
  · cases isBegun
  obtain ⟨generations, inserted, written⟩ := bind_eq_some_iff.mp isBegun
  rw [(write?_eq written).1]
  unfold Generations.beginGeneration at inserted
  refine ⟨?_, added_insert inserted fun answers => by cases answers <;> contradiction⟩
  unfold insert? at inserted
  split at inserted
  · cases inserted
  · cases inserted
    exact ⟨_, by rw [get?_put]; exact if_pos rfl, rfl, rfl⟩

theorem storeExtractedGraph_generations
    (isStored : store.storeExtractedGraph orders run identity = some next) :
    next.generations = store.generations := by
  unfold storeExtractedGraph at isStored
  split at isStored
  · cases isStored
  · obtain ⟨_, _, written⟩ := bind_eq_some_iff.mp isStored
    exact (write?_eq written).1

theorem outcome_of_builds (builds : Builds orders store run identity version manifest result)
    (added : Added version before store.generations) :
    Outcome version identity.worktreeID run before result.1.generations result.2 := by
  cases builds with
  | refused => exact outcome_of_added added
  | failed isBegun failure =>
    exact outcome_failBuild failure (added.trans (beginGeneration_building isBegun).2)
  | discarded isBegun isStored failure =>
    refine outcome_failBuild failure ?_
    rw [storeExtractedGraph_generations isStored]
    exact added.trans (beginGeneration_building isBegun).2
  | completed isBegun isStored incomplete isCompleted =>
    obtain ⟨building, begins⟩ := beginGeneration_building isBegun
    rw [storeExtractedGraph_generations isStored] at isCompleted
    have left : ¬run.incomplete = false := by simp [incomplete]
    obtain ⟨new, settled⟩ := building.completePartial left isCompleted
    exact ⟨(added.trans begins).trans new, fun _ => settled⟩
  | promoted isBegun isStored complete isPromoted =>
    obtain ⟨building, begins⟩ := beginGeneration_building isBegun
    unfold GraphStore.promoteGeneration at isPromoted
    split at isPromoted
    · cases isPromoted
    obtain ⟨later, promoted, rfl⟩ := map_eq_some_iff.mp isPromoted
    rw [storeExtractedGraph_generations isStored] at promoted
    obtain ⟨new, settled⟩ := building.promote promoted
    exact ⟨(added.trans begins).trans new, fun _ => settled⟩

theorem migrateLegacySymbols_added :
    Added version store.generations (store.migrateLegacySymbols run identity).generations := by
  unfold migrateLegacySymbols
  split
  · exact .refl
  cases isMigrated : store.migrated run identity with
  | none => exact .refl
  | some next =>
    obtain ⟨generations, inserted, migrated⟩ := bind_eq_some_iff.mp isMigrated
    obtain ⟨_, _, written⟩ := bind_eq_some_iff.mp migrated
    rw [getD_some, (write?_eq written).1]
    exact added_insert inserted fun _ => rfl

theorem outcome_of_acts (acts : Acts orders store run identity version result) :
    Outcome version identity.worktreeID run store.generations result.1.generations result.2 := by
  cases acts with
  | unchanged => exact outcome_of_added .refl
  | migrated => exact outcome_of_added migrateLegacySymbols_added
  | scanned builds =>
    exact outcome_of_builds builds (migrateLegacySymbols_added.trans (added_setStatus (by simp)))
  | refreshed builds => exact outcome_of_builds builds .refl

end GraphStore

structure Answer.Right (answer : Answer) (version : String) : Prop where
  answerable : answer.generation.Answerable
  extractor : answer.generation.extractorVersion = version
  inputs : answer.generation.IsOf answer.manifest

/-- The builds of the read leave nothing out, or no generation that could answer holds the
inputs of the last manifest from another extractor. -/
def ReadRun.Unmixed (run : ReadRun ρ) (store : GraphStore ρ) (worktreeID version : String) : Prop :=
  run.refresh.incomplete = false ∧ run.rescan.incomplete = false ∨
    ∀ generation ∈ store.generations.rows, generation.worktreeID = worktreeID →
      generation.Answerable → ∀ last, run.last = some last → generation.IsOf last →
        generation.extractorVersion = version

namespace GraphStore

open Generations

variable {orders : QueryOrders} {store : GraphStore ρ} {run : ReadRun ρ}
  {identity : RepositoryIdentity} {version : String} {answer : Answer} {complete : Prop}
  {before : Generations}

theorem rank_of_answerable {generation : Generation} :
    generation.Answerable ↔ generation.rank ≤ 1 := by
  unfold Generation.Answerable Generation.rank
  cases generation.status <;> simp

theorem answerAgain_right (added : Added version before store.generations)
    (settled : Settled version identity.worktreeID complete store.generations)
    (unmixed : complete ∨ ∀ generation ∈ before.rows, generation.worktreeID = identity.worktreeID →
      generation.Answerable → ∀ last, run.last = some last → generation.IsOf last →
        generation.extractorVersion = version)
    (answered : store.answerAgain orders run identity = some answer) : answer.Right version := by
  unfold answerAgain at answered
  split at answered
  · cases answered
  split at answered
  case h_2 => cases answered
  next generation last isActive isLast =>
  split at answered
  case isFalse => cases answered
  next inputs =>
  cases answered
  have listed := orders.active.first_mem isActive
  obtain ⟨member, inTree⟩ := mem_filter.mp listed
  obtain ⟨built, isBuilt, builtTree, builtAnswers, builtCurrent⟩ := settled.answers
  have least : generation.rank ≤ built.rank := by
    have builtListed : built ∈ store.generations.rows.filter fun generation =>
        generation.worktreeID = identity.worktreeID :=
      mem_filter.mpr ⟨isBuilt, decide_eq_true builtTree⟩
    rcases orders.active.first_before isActive builtListed with rfl | less | ⟨same, _⟩ <;> omega
  have answers : generation.Answerable :=
    rank_of_answerable.mpr (Nat.le_trans least (rank_of_answerable.mp builtAnswers))
  refine ⟨answers, ?_, inputs⟩
  rcases unmixed with whole | unmixed
  · have isCurrent : generation.status = .current := by
      have isZero : built.rank = 0 := by simp [Generation.rank, builtCurrent whole]
      rw [isZero] at least
      unfold Generation.rank at least
      split at least <;> first | assumption | omega
    exact settled.ours whole generation member (of_decide_eq_true inTree) isCurrent
  · rcases added generation member answers with earlier | ours | isLegacy
    · exact unmixed generation earlier (of_decide_eq_true inTree) answers last isLast inputs
    · exact ours
    · have hashed := last.hashed
      rw [← inputs.1, isLegacy] at hashed
      exact absurd hashed (by decide)

theorem refreshOnRead_right (added : Added version before store.generations)
    (unmixed : run.refresh.incomplete = false ∧ run.rescan.incomplete = false ∨
      ∀ generation ∈ before.rows, generation.worktreeID = identity.worktreeID →
        generation.Answerable → ∀ last, run.last = some last → generation.IsOf last →
          generation.extractorVersion = version)
    (answered : (store.refreshOnRead orders run identity version).2 = some answer) :
    answer.Right version := by
  have refreshed := outcome_of_acts (@refreshRepository_acts _ orders store run.refresh identity
    version run.planned)
  unfold refreshOnRead at answered
  dsimp only at answered
  split at answered
  · cases answered
  · next changed =>
    exact answerAgain_right (added.trans refreshed.added) (refreshed.settled (by simp [changed]))
      (unmixed.imp And.left id) answered
  · dsimp only at answered
    split at answered
    case isFalse => cases answered
    next succeeded =>
    have scanned := outcome_of_acts (@scanRepository_acts _ orders
      (store.refreshRepository orders run.refresh identity run.planned version).1
        run.rescan identity
      version)
    exact answerAgain_right ((added.trans refreshed.added).trans scanned.added)
      (scanned.settled succeeded) (unmixed.imp And.right id) answered

theorem freshGeneration_right {noRefreshOnRead : Bool}
    (unmixed : run.Unmixed store identity.worktreeID version)
    (answered : (store.freshGeneration orders run identity version noRefreshOnRead).2 =
      some answer) : answer.Right version := by
  unfold freshGeneration at answered
  split at answered
  · cases answered
  split at answered
  case h_2 => cases answered
  next generation manifest _ _ =>
  split at answered
  · next fresh =>
    cases answered
    exact ⟨fresh.2.2, fresh.1, fresh.2.1⟩
  split at answered
  · cases answered
  · refine refreshOnRead_right ?_ unmixed answered
    unfold markDrifted
    split
    · exact added_setStatus (by simp)
    · exact .refl

theorem freshGeneration_writes_nothing :
    (store.freshGeneration orders run identity version true).1 = store := by
  unfold freshGeneration
  split
  · rfl
  split
  · split <;> rfl
  · rfl

end GraphStore

inductive GraphAction (ρ : Type)
  | build (action : BuildAction ρ)
  | read (run : ReadRun ρ) (identity : RepositoryIdentity) (version : String)
      (noRefreshOnRead : Bool)

/-- The store, and the last answer with the extractor that asked for it. -/
structure GraphUse (ρ : Type) where
  store : GraphStore ρ
  answered : Option (String × Answer)

namespace GraphUse

def initial : GraphUse ρ := ⟨.empty, none⟩

def step (orders : QueryOrders) (state : GraphUse ρ) : GraphAction ρ → Option (GraphUse ρ)
  | .build action => some ⟨(state.store.build orders action).1, none⟩
  | .read run identity version noRefreshOnRead =>
    let read := state.store.freshGeneration orders run identity version noRefreshOnRead
    some ⟨read.1, read.2.map (version, ·)⟩

def Unmixed (state : GraphUse ρ) : GraphAction ρ → Prop
  | .build _ => True
  | .read run identity version _ => run.Unmixed state.store identity.worktreeID version

/-- Every answer comes from the worktree as it is and from the extractor that asked, and a read
that may not refresh writes nothing. -/
theorem fresh_generation_is_ours (orders : QueryOrders) (state : GraphUse ρ)
    (reachable : Reachable (step orders) Unmixed initial state) :
    (∀ version answer, state.answered = some (version, answer) → answer.Right version) ∧
      ∀ run identity version next, state.step orders (.read run identity version true) = some next →
        next.store = state.store := by
  constructor
  · intro version answer answered
    cases reachable with
    | initial => cases answered
    | @after earlier _ action _ meets taken =>
      cases action with
      | build action =>
        cases taken
        cases answered
      | read run identity asked noRefreshOnRead =>
        cases taken
        obtain ⟨given, isGiven, same⟩ := map_eq_some_iff.mp answered
        obtain ⟨rfl, rfl⟩ := Prod.mk.inj same
        exact GraphStore.freshGeneration_right meets isGiven
  · intro run identity version next taken
    cases taken
    exact GraphStore.freshGeneration_writes_nothing

/-- A read whose refresh extracts the files as `incomplete` says. -/
def smallRead (incomplete : Bool) : ReadRun Unit where
  cancelled := false
  gate := some smallManifest
  markFails := false
  planned := some smallManifest
  refresh := smallRun "G2" [] incomplete
  rescan := smallRun "G3" [] incomplete
  queryFails := false
  last := some smallManifest

def otherScan : GraphAction Unit := .build (.scan (smallRun "G1" [] false) smallIdentity "v1")

theorem fresh_generation_is_ours_rescanned : ∃ state : GraphUse Unit,
      (∃ answer, state.answered = some ("v2", answer) ∧ answer.Right "v2") ∧
        Reachable (step .stable) Unmixed initial state := by
  have scanned := (reachable_start (step QueryOrders.stable) Unmixed initial).next otherScan
    trivial rfl
  have read := scanned.next (.read (smallRead false) smallIdentity "v2" false)
    (.inl ⟨rfl, rfl⟩) rfl
  exact ⟨_, ⟨_, rfl, (fresh_generation_is_ours .stable _ read).1 "v2" _ rfl⟩, read⟩

/-- Another extractor's current generation answers after a refresh that left source out. -/
theorem fresh_generation_of_another_extractor :
    ∃ state : GraphUse Unit, Reachable (step .stable) anyStep initial state ∧
      ∃ answer, state.answered = some ("v2", answer) ∧
        answer.generation.extractorVersion = "v1" := by
  have scanned := (reachable_start (step QueryOrders.stable) anyStep initial).next otherScan
    trivial rfl
  have read := scanned.next (.read (smallRead true) smallIdentity "v2" false) trivial rfl
  exact ⟨_, read, _, rfl, rfl⟩

end GraphUse

end OpenExec.Knowledge
