import OpenExec.AcyclicHeights
import OpenExec.BlueprintEngine
import Mathlib.Data.List.Count

/-!
# Bounded and accounted blueprint runs

Every run of a valid blueprint without a cycle of success edges returns: a failure edge
uses up the total retry budget, and a success edge lowers the height of the current
stage.
-/

namespace OpenExec.BlueprintEngine

open GuardedRuns AcyclicHeights List Option

variable {executed : ExecutedStage} {execution : Execution} {stage : Stage} {result : StageResult}
  {answers : List Answer} {final : Account}

def ExecutedStage.Concludes (executed : ExecutedStage) : Prop :=
  executed.result.status = .completed ∧ executed.stage.isTerminal = true

instance (executed : ExecutedStage) : Decidable executed.Concludes :=
  inferInstanceAs (Decidable (_ ∧ _))

namespace Account

def recoveries (account : Account) (key : String) : Nat :=
  account.executed.countP fun executed => executed.key = key ∧ executed.recovered

def totalRecoveries (account : Account) : Nat :=
  account.executed.countP fun executed => executed.recovered

end Account

def LastConcludes (stages : List ExecutedStage) : Prop :=
  ∃ last, stages.getLast? = some last ∧ last.Concludes

/-- Neither the initial stage nor a failure edge the engine went along is the
end marker. -/
def Direct (blueprint : Blueprint) (stages : List ExecutedStage) : Prop :=
  blueprint.initialStage ≠ "complete" ∧
    ∀ executed ∈ stages, executed.recovered → executed.stage.onFailure ≠ "complete"

variable {blueprint : Blueprint} {config : EngineConfig} {account next : Account} {answer : Answer}
  {runID : String}

structure Accounted (blueprint : Blueprint) (config : EngineConfig) (account : Account) : Prop where
  results : account.execution.run.results = account.executed.map ExecutedStage.result
  previous : account.execution.previousStages = account.executed.map ExecutedStage.result
  counted : ∀ {key stage}, blueprint.getStage key = some stage →
    account.recoveries key ≤ account.execution.run.stageRetries stage.name
  limited : ∀ {key stage}, blueprint.getStage key = some stage →
    account.recoveries key ≤ stage.maxRetries.toNat
  totalCounted : account.totalRecoveries ≤ account.execution.totalRetries
  totalLimited : account.totalRecoveries ≤ config.maxTotalRetries.toNat
  known : ∀ executed ∈ account.executed, blueprint.getStage executed.key = some executed.stage ∧
    (executed.recovered → executed.stage.onFailure ≠ "")

section

variable (accounted : Accounted blueprint config account)
include accounted

theorem Accounted.known_append
    (found : blueprint.getStage executed.key = some executed.stage)
    (leads : executed.recovered → executed.stage.onFailure ≠ "") :
    ∀ member ∈ account.executed ++ [executed],
      blueprint.getStage member.key = some member.stage ∧
        (member.recovered → member.stage.onFailure ≠ "") := by
  rw [forall_mem_append, forall_mem_singleton]
  exact ⟨accounted.known, found, leads⟩

theorem Accounted.of_unrecovered (stays : executed.recovered = false)
    (found : blueprint.getStage executed.key = some executed.stage)
    (results : execution.run.results = account.execution.run.results ++ [executed.result])
    (previous : execution.previousStages = account.execution.previousStages ++ [executed.result])
    (retries : ∀ name, account.execution.run.stageRetries name ≤ execution.run.stageRetries name)
    (total : account.execution.totalRetries ≤ execution.totalRetries) :
    Accounted blueprint config ⟨execution, account.executed ++ [executed]⟩ := by
  have sameRecoveries : ∀ key, Account.recoveries ⟨execution, account.executed ++ [executed]⟩ key =
      account.recoveries key := by
    intro key
    simp [Account.recoveries, countP_append, stays]
  have sameTotal : Account.totalRecoveries ⟨execution, account.executed ++ [executed]⟩ =
      account.totalRecoveries := by
    simp [Account.totalRecoveries, countP_append, stays]
  constructor
  · simp [results, accounted.results]
  · simp [previous, accounted.previous]
  · intro key stage found
    rw [sameRecoveries]
    exact (accounted.counted found).trans (retries stage.name)
  · intro key stage found
    rw [sameRecoveries]
    exact accounted.limited found
  · rw [sameTotal]
    exact accounted.totalCounted.trans total
  · rw [sameTotal]
    exact accounted.totalLimited
  · exact accounted.known_append found fun recovered => absurd recovered (by simp [stays])

theorem Accounted.of_recovered
    (found : blueprint.getStage account.execution.run.currentStage = some stage)
    (leads : stage.onFailure ≠ "")
    (stageLimit : (account.execution.run.getRetries stage.name : Int) < stage.maxRetries)
    (totalLimit : ((account.execution.totalRetries + 1 : Nat) : Int) ≤ config.maxTotalRetries) :
    Accounted blueprint config
      ⟨(((account.execution.record result).retry stage).moveTo stage.onFailure).atHead,
        account.executed ++ [⟨account.execution.run.currentStage, stage, result, true⟩]⟩ := by
  have grown : ∀ key (execution : Execution), Account.recoveries ⟨execution, account.executed ++
      [⟨account.execution.run.currentStage, stage, result, true⟩]⟩ key =
      account.recoveries key + if account.execution.run.currentStage = key then 1 else 0 := by
    intro key execution
    by_cases same : account.execution.run.currentStage = key <;>
      simp [Account.recoveries, countP_append, same]
  have totalGrown : ∀ execution : Execution, Account.totalRecoveries ⟨execution,
      account.executed ++ [⟨account.execution.run.currentStage, stage, result, true⟩]⟩ =
      account.totalRecoveries + 1 := by
    intro execution
    simp [Account.totalRecoveries, countP_append]
  constructor
  · simp [Execution.moveTo, Execution.retry, Execution.record, Run.incrementRetries,
      Run.addResult, accounted.results]
  · simp [Execution.moveTo, Execution.retry, Execution.record, accounted.previous]
  · intro key other otherFound
    rw [grown, Execution.atHead_stageRetries]
    have before := accounted.counted otherFound
    by_cases here : account.execution.run.currentStage = key
    · subst here
      obtain rfl := mem_unique found otherFound
      simpa [Execution.moveTo, Execution.retry, Execution.record, Run.incrementRetries,
        Run.addResult] using before
    · rw [if_neg here]
      simp only [Execution.moveTo, Execution.retry, Execution.record, Run.incrementRetries,
        Run.addResult]
      split <;> omega
  · intro key other otherFound
    rw [grown]
    by_cases here : account.execution.run.currentStage = key
    · subst here
      obtain rfl := mem_unique found otherFound
      have before := accounted.counted found
      rw [if_pos rfl]
      unfold Run.getRetries at stageLimit
      omega
    · rw [if_neg here]
      exact accounted.limited otherFound
  · rw [totalGrown, Execution.atHead_totalRetries]
    have before := accounted.totalCounted
    simp only [Execution.moveTo, Execution.retry, Execution.record]
    omega
  · rw [totalGrown]
    have before := accounted.totalCounted
    omega
  · exact accounted.known_append found fun _ => leads

theorem Accounted.round
    (taken : Round blueprint config account answer next) : Accounted blueprint config next := by
  cases taken with
  | cancelled | missing live absent =>
    exact { accounted with }
  | completed recorded found status =>
    apply accounted.of_unrecovered rfl found
    · simp [Execution.moveTo, Execution.record, Run.addResult]
    · simp [Execution.moveTo, Execution.record]
    · intro name
      simp [Execution.moveTo, Execution.record, Run.addResult]
    · simp [Execution.moveTo, Execution.record]
  | recovered recorded found status leads stageLimit totalLimit =>
    exact accounted.of_recovered found leads stageLimit totalLimit
  | @exhausted answer stage result recorded found status err =>
    refine accounted.of_unrecovered rfl found rfl rfl ?_ (Nat.le_succ _)
    intro name
    show _ ≤ if name = stage.name then _ else _
    split
    · exact Nat.le_succ _
    · exact Nat.le_refl _
  | failed recorded found status err returned | ignored recorded found completed failed =>
    exact accounted.of_unrecovered rfl found rfl rfl (fun _ => Nat.le_refl _) (Nat.le_refl _)

end

theorem accounted_opened : Accounted blueprint config (opened blueprint runID) := by
  constructor
  · simp [opened, startRun, Run.newRun]
  · simp [opened]
  · intro key stage found
    exact Nat.zero_le _
  · intro key stage found
    exact Nat.zero_le _
  · exact Nat.zero_le _
  · exact Nat.zero_le _
  · nofun

theorem Accounted.direct (accounted : Accounted blueprint config account)
    (connected : blueprint.Connected) (unused : blueprint.getStage "complete" = none) :
    Direct blueprint account.executed := by
  constructor
  · intro isEnd
    obtain ⟨stage, found⟩ := connected.initialStage
    exact absurd (unused.symm.trans (isEnd ▸ found)) (by simp)
  · intro executed isMember recovered toEnd
    obtain ⟨found, leads⟩ := accounted.known executed isMember
    obtain ⟨next, nextFound⟩ := connected.failure found (leads recovered)
    exact absurd (unused.symm.trans (toEnd ▸ nextFound)) (by simp)

/-- A run that goes on is at a stage, and nothing it did could have ended it. -/
structure Standing (blueprint : Blueprint) (account : Account) : Prop where
  named : account.execution.run.currentStage ≠ "complete"
  present : account.execution.run.currentStage ≠ ""
  located : ∃ stage, blueprint.getStage account.execution.run.currentStage = some stage
  direct : Direct blueprint account.executed
  unconcluded : ∀ executed ∈ account.executed, ¬ executed.Concludes

/-- A returned run has one of the three final statuses.  It is completed exactly
when its last stage concludes it, provided the end marker is used for nothing
else. -/
structure Concluded (blueprint : Blueprint) (account : Account) : Prop where
  status : account.execution.run.status = .completed ∨ account.execution.run.status = .failed ∨
    account.execution.run.status = .cancelled
  completed_iff : (account.execution.run.status = .completed ↔ LastConcludes account.executed) ↔
    Direct blueprint account.executed

def Placed (blueprint : Blueprint) (account : Account) : Prop :=
  (account.execution.returned = none → Standing blueprint account) ∧
    (account.execution.returned.isSome → Concluded blueprint account)

theorem lastConcludes_append {stages : List ExecutedStage} {last : ExecutedStage} :
    LastConcludes (stages ++ [last]) ↔ last.Concludes := by
  simp [LastConcludes]

section

variable (standing : Standing blueprint account)
include standing

theorem Standing.not_lastConcludes : ¬ LastConcludes account.executed := by
  rintro ⟨last, isLast, concludes⟩
  exact standing.unconcluded last (mem_of_getLast? isLast) concludes

theorem Standing.direct_append
    (avoids : executed.recovered → executed.stage.onFailure ≠ "complete") :
    Direct blueprint (account.executed ++ [executed]) := by
  refine ⟨standing.direct.1, ?_⟩
  rw [forall_mem_append, forall_mem_singleton]
  exact ⟨standing.direct.2, avoids⟩

theorem Standing.unconcluded_append (goesOn : ¬ executed.Concludes) : ∀ member ∈ account.executed ++
    [executed], ¬ member.Concludes := by
  rw [forall_mem_append, forall_mem_singleton]
  exact ⟨standing.unconcluded, goesOn⟩

theorem Standing.concluded_unfinished (stays : executed.recovered = false)
    (failed : executed.result.status = .failed) (status : execution.run.status = .failed) :
    Concluded blueprint ⟨execution, account.executed ++ [executed]⟩ := by
  refine ⟨.inr (.inl status), ?_⟩
  have direct : Direct blueprint (account.executed ++ [executed]) :=
    standing.direct_append fun recovered => absurd recovered (by simp [stays])
  rw [lastConcludes_append]
  simp [direct, status, ExecutedStage.Concludes, failed]

end

theorem placed_moved {executed : List ExecutedStage} (going : execution.returned = none)
    (located : execution.run.currentStage ≠ "complete" → execution.run.currentStage ≠ "" →
      Standing blueprint ⟨execution, executed⟩)
    (ended : execution.run.currentStage = "complete" ∨ execution.run.currentStage = "" →
      (LastConcludes executed ↔ Direct blueprint executed)) :
    Placed blueprint ⟨execution.atHead, executed⟩ := by
  rcases execution.atHead_cases with ⟨named, present⟩ | done
  · rw [Execution.atHead_going named present]
    refine ⟨fun _ => located named present, ?_⟩
    intro returned
    simp [going] at returned
  · rw [Execution.atHead_done done]
    refine ⟨fun returned => absurd returned (by simp), ?_⟩
    intro _
    refine ⟨.inl rfl, ?_⟩
    have sides := ended done
    simpa [Run.complete] using sides

section

variable (connected : blueprint.Connected)
include connected

theorem Standing.placed_completed
    (standing : Standing blueprint account) (going : account.execution.returned = none)
    (found : blueprint.getStage account.execution.run.currentStage = some stage)
    (status : result.status = .completed) :
    Placed blueprint
      ⟨(((account.execution.record result).checkpoint stage).moveTo stage.onSuccess).atHead,
        account.executed ++ [⟨account.execution.run.currentStage, stage, result, false⟩]⟩ := by
  apply placed_moved
  · simpa [Execution.moveTo, Execution.record] using going
  · intro named present
    have goesOn : stage.isTerminal = false :=
      Stage.isTerminal_eq_false_iff.mpr ⟨present, named⟩
    refine ⟨named, present, connected.success found goesOn,
      standing.direct_append fun recovered => absurd recovered (by simp), ?_⟩
    apply standing.unconcluded_append
    simp [ExecutedStage.Concludes, goesOn]
  · intro ended
    have terminal : stage.isTerminal := Stage.isTerminal_iff.mpr ended.symm
    rw [lastConcludes_append]
    exact iff_of_true ⟨status, terminal⟩
      (standing.direct_append fun recovered => absurd recovered (by simp))

theorem Standing.placed_recovered
    (standing : Standing blueprint account) (going : account.execution.returned = none)
    (found : blueprint.getStage account.execution.run.currentStage = some stage)
    (status : result.status = .failed) (leads : stage.onFailure ≠ "") :
    Placed blueprint
      ⟨(((account.execution.record result).retry stage).moveTo stage.onFailure).atHead,
        account.executed ++ [⟨account.execution.run.currentStage, stage, result, true⟩]⟩ := by
  have goesOn : ∀ key, ¬ ExecutedStage.Concludes ⟨key, stage, result, true⟩ := by
    intro key concludes
    exact absurd (status.symm.trans concludes.1) (by simp)
  apply placed_moved
  · exact going
  · intro named present
    exact ⟨named, present, connected.failure found leads,
      standing.direct_append fun _ => named, standing.unconcluded_append (goesOn _)⟩
  · intro ended
    have toEnd : stage.onFailure = "complete" := ended.resolve_right leads
    rw [lastConcludes_append]
    refine iff_of_false (goesOn _) ?_
    intro direct
    exact direct.2 _ (mem_append_right _ (mem_singleton.mpr rfl)) rfl toEnd

theorem Placed.round (placed : Placed blueprint account)
    (going : account.execution.returned = none) (settled : answer.Settled)
    (taken : Round blueprint config account answer next) : Placed blueprint next := by
  have standing := placed.1 going
  cases taken with
  | cancelled =>
    refine ⟨fun returned => absurd returned (by simp [Execution.cancel]), ?_⟩
    intro _
    refine ⟨.inr (.inr rfl), ?_⟩
    simp [Execution.cancel, Run.cancel, standing.direct, standing.not_lastConcludes]
  | missing live absent =>
    obtain ⟨stage, found⟩ := standing.located
    exact absurd (absent.symm.trans found) (by simp)
  | completed recorded found status => exact standing.placed_completed connected going found status
  | recovered recorded found status leads stageLimit totalLimit =>
    exact standing.placed_recovered connected going found status leads
  | exhausted recorded found status err | failed recorded found status err returned =>
    exact ⟨fun returned => absurd returned (by simp [Execution.fail]),
      fun _ => standing.concluded_unfinished rfl status rfl⟩
  | ignored recorded found completed failed =>
    exact absurd (recorded.settled settled) (not_or.mpr ⟨completed, failed⟩)

theorem placed_opened : Placed blueprint (opened blueprint runID) := by
  apply placed_moved
  · rfl
  · intro named present
    exact ⟨named, present, connected.initialStage, ⟨named, nofun⟩, nofun⟩
  · intro ended
    have atEnd : blueprint.initialStage = "complete" := ended.resolve_right connected.initialNamed
    refine iff_of_false ?_ ?_
    · rintro ⟨last, isLast, _⟩
      simp at isLast
    · exact fun direct => direct.1 atEnd

end

def settledAnswer (_ : Account) (answer : Answer) : Prop := answer.Settled

instance (account : Account) (answer : Answer) : Decidable (settledAnswer account answer) :=
  inferInstanceAs (Decidable answer.Settled)

/-- The accounts of the runs of a blueprint whose executor settles every stage. -/
abbrev Accessible (blueprint : Blueprint) (config : EngineConfig) (runID : String) :
    Account → Prop :=
  Reachable (round blueprint config) settledAnswer (opened blueprint runID)

theorem placed_of_accessible (connected : blueprint.Connected)
    (accessible : Accessible blueprint config runID account) : Placed blueprint account :=
  accessible.invariant (placed_opened connected) fun placed settled taken =>
    placed.round connected (returned_none_of_round taken) settled (round_spec taken)

theorem accounted_of_accessible (accessible : Accessible blueprint config runID account) :
    Accounted blueprint config account :=
  accessible.invariant accounted_opened fun accounted _ taken =>
    accounted.round (round_spec taken)

namespace Blueprint

theorem acyclic_of_rows (measure : String → Nat)
    (lowers : ∀ entry ∈ blueprint.stages.rows, measure entry.2.onSuccess < measure entry.1) :
    Acyclic blueprint.SuccessEdge := by
  apply acyclic_of_measure measure
  rintro first second ⟨stage, found, rfl⟩
  exact lowers _ (getStage_mem found)

def keys (blueprint : Blueprint) : Finset String :=
  (blueprint.stages.rows.map Prod.fst).toFinset

theorem mem_keys {name : String} (found : blueprint.getStage name = some stage) :
    name ∈ blueprint.keys :=
  mem_toFinset.mpr (mem_map_of_mem (getStage_mem found))

end Blueprint

/-- The rounds that are left at most: what remains of the retry budget, each unit
worth a walk through all stages, and the height of the current stage. -/
noncomputable def roundsLeft (blueprint : Blueprint) (config : EngineConfig)
    (account : Account) : Nat :=
  if account.execution.returned.isSome then 0
  else (config.maxTotalRetries.toNat - account.execution.totalRetries) *
      (blueprint.keys.card + 1) +
    height blueprint.SuccessEdge blueprint.keys account.execution.run.currentStage + 1

section

variable (going : account.execution.returned = none)
include going

theorem roundsLeft_going : roundsLeft blueprint config account =
    (config.maxTotalRetries.toNat - account.execution.totalRetries) * (blueprint.keys.card + 1) +
    height blueprint.SuccessEdge blueprint.keys account.execution.run.currentStage + 1 := by
  simp [roundsLeft, going]

theorem roundsLeft_lt_of_returned (returned : next.execution.returned.isSome) :
    roundsLeft blueprint config next < roundsLeft blueprint config account := by
  rw [roundsLeft_going going]
  simp [roundsLeft, returned]

theorem roundsLeft_lt_of_moved
    {executed : List ExecutedStage} (moved : execution.returned = none)
    (fewer : (config.maxTotalRetries.toNat - execution.totalRetries) *
          (blueprint.keys.card + 1) +
        height blueprint.SuccessEdge blueprint.keys execution.run.currentStage <
      (config.maxTotalRetries.toNat - account.execution.totalRetries) *
          (blueprint.keys.card + 1) +
        height blueprint.SuccessEdge blueprint.keys account.execution.run.currentStage) :
    roundsLeft blueprint config ⟨execution.atHead, executed⟩ <
      roundsLeft blueprint config account := by
  rcases execution.atHead_cases with ⟨named, present⟩ | done
  · rw [Execution.atHead_going named present, roundsLeft_going going,
      @roundsLeft_going _ _ ⟨execution, executed⟩ moved]
    exact Nat.succ_lt_succ fewer
  · apply roundsLeft_lt_of_returned going
    rw [Execution.atHead_done done]
    rfl

end

theorem roundsLeft_lt_of_round (connected : blueprint.Connected)
    (acyclic : Acyclic blueprint.SuccessEdge) (going : account.execution.returned = none)
    (settled : answer.Settled) (taken : Round blueprint config account answer next) :
    roundsLeft blueprint config next < roundsLeft blueprint config account := by
  cases taken with
  | cancelled | missing live absent | exhausted recorded found status err
  | failed recorded found status err returned => exact roundsLeft_lt_of_returned going rfl
  | @completed answer stage result recorded found status =>
    by_cases terminal : stage.isTerminal = true
    · apply roundsLeft_lt_of_returned going
      rw [Execution.atHead_done]
      · rfl
      · exact (Stage.isTerminal_iff.mp terminal).symm
    · obtain ⟨target, targetFound⟩ := connected.success found (by simpa using terminal)
      have lower := height_lt_of_edge acyclic (Blueprint.mem_keys targetFound)
        (show blueprint.SuccessEdge account.execution.run.currentStage stage.onSuccess from
          ⟨stage, found, rfl⟩)
      apply roundsLeft_lt_of_moved going
      · simpa [Execution.moveTo, Execution.record] using going
      · simp only [Execution.moveTo, Execution.checkpoint_totalRetries, Execution.record]
        omega
  | @recovered answer stage result recorded found status leads stageLimit totalLimit =>
    apply roundsLeft_lt_of_moved going
    · exact going
    have bounded : height blueprint.SuccessEdge blueprint.keys stage.onFailure ≤
        blueprint.keys.card := height_le_card _ _
    obtain ⟨budget, remaining⟩ : ∃ budget,
        config.maxTotalRetries.toNat - account.execution.totalRetries = budget + 1 :=
      ⟨config.maxTotalRetries.toNat - account.execution.totalRetries - 1, by omega⟩
    have used : config.maxTotalRetries.toNat - (account.execution.totalRetries + 1) = budget := by
      omega
    simp only [Execution.moveTo, Execution.retry, Execution.record]
    rw [remaining, used, Nat.succ_mul]
    omega
  | ignored recorded found completed failed =>
    exact absurd (recorded.settled settled) (not_or.mpr ⟨completed, failed⟩)

theorem exists_return (valid : blueprint.validate = none) (acyclic : Acyclic blueprint.SuccessEdge)
    (answers : Nat → Answer) (settled : ∀ index, (answers index).Settled) :
    ∃ rounds final, run (round blueprint config) settledAnswer (opened blueprint runID)
        ((List.range rounds).map answers) = some final ∧ final.execution.returned.isSome := by
  have connected := Blueprint.connected_of_validate valid
  obtain ⟨rounds, final, runs, stops⟩ := @exists_stop_of_stream _ _ (round blueprint config)
    settledAnswer (opened blueprint runID) _ (roundsLeft blueprint config)
    (fun _ meets taken => roundsLeft_lt_of_round connected acyclic
      (returned_none_of_round taken) meets (round_spec taken))
    answers (fun _ index => settled index)
  refine ⟨rounds, final, runs, ?_⟩
  cases returned : final.execution.returned with
  | some value => rfl
  | none =>
    have goesOn : (round blueprint config final (answers rounds)).isSome := round_isSome returned
    simp [stops] at goesOn

theorem run_of_returned (returned : account.execution.returned.isSome)
    (runs : run (round blueprint config) settledAnswer account answers = some final) :
    answers = [] ∧ final = account := by
  cases answers with
  | nil => exact ⟨rfl, (Option.some.inj runs).symm⟩
  | cons answer rest =>
    obtain ⟨_, next, taken, _⟩ := run_cons_iff.mp runs
    simp [returned_none_of_round taken] at returned

theorem status_ne_cancelled_of_round (live : answer ≠ .cancelled)
    (before : account.execution.run.status ≠ .cancelled)
    (taken : Round blueprint config account answer next) :
    next.execution.run.status ≠ .cancelled := by
  have atHead : ∀ {execution : Execution}, execution.run.status ≠ .cancelled →
      execution.atHead.run.status ≠ .cancelled := by
    intro execution kept
    unfold Execution.atHead
    split
    · exact kept
    · simp [Run.complete]
  cases taken with
  | cancelled => exact absurd rfl live
  | missing live absent => simp [Execution.notFound, Execution.fail, Run.fail]
  | completed recorded found status =>
    apply atHead
    simpa [Execution.moveTo, Execution.record, Run.addResult] using before
  | recovered recorded found status leads stageLimit totalLimit => exact atHead before
  | exhausted recorded found status err | failed recorded found status err returned =>
    simp [Execution.fail, Run.fail]
  | ignored recorded found completed failed => exact before

theorem status_cancelled_iff (before : account.execution.run.status ≠ .cancelled)
    (runs : run (round blueprint config) settledAnswer account answers = some final) :
    final.execution.run.status = .cancelled ↔ Answer.cancelled ∈ answers := by
  induction answers generalizing account with
  | nil =>
    cases runs
    simp [before]
  | cons answer rest ih =>
    obtain ⟨_, next, taken, runs⟩ := run_cons_iff.mp runs
    by_cases isCancelled : answer = .cancelled
    · subst isCancelled
      obtain rfl := (round_spec taken).of_cancelled
      obtain ⟨_, rfl⟩ := run_of_returned rfl runs
      simp [Execution.cancel, Run.cancel]
    · rw [ih (status_ne_cancelled_of_round isCancelled before (round_spec taken)) runs]
      simp [Ne.symm isCancelled]

def Answer.Gives (answer : Answer) (executed : ExecutedStage) : Prop :=
  ∃ attempt, answer.recorded executed.stage attempt = some executed.result

theorem executed_of_round (live : answer ≠ .cancelled) (standing : Standing blueprint account)
    (taken : Round blueprint config account answer next) : ∃ executed : ExecutedStage,
    next.executed = account.executed ++ [executed] ∧ answer.Gives executed ∧ executed.key =
    account.execution.run.currentStage ∧ blueprint.getStage executed.key = some executed.stage := by
  cases taken with
  | cancelled => exact absurd rfl live
  | missing live absent =>
    obtain ⟨stage, found⟩ := standing.located
    exact absurd (absent.symm.trans found) (by simp)
  | completed recorded found status | exhausted recorded found status err
  | failed recorded found status err returned | ignored recorded found completed failed
  | recovered recorded found status leads stageLimit totalLimit =>
    exact ⟨_, rfl, ⟨_, recorded⟩, rfl, found⟩

theorem executed_of_run (connected : blueprint.Connected) (placed : Placed blueprint account)
    (runs : run (round blueprint config) settledAnswer account answers = some final) :
    ∃ executed, final.executed = account.executed ++ executed ∧
      List.Forall₂ Answer.Gives (answers.filter (· ≠ .cancelled)) executed := by
  induction answers generalizing account with
  | nil =>
    cases runs
    exact ⟨[], by simp, .nil⟩
  | cons answer rest ih =>
    obtain ⟨settled, next, taken, runs⟩ := run_cons_iff.mp runs
    have going := returned_none_of_round taken
    obtain ⟨later, executedLater, given⟩ :=
      ih (placed.round connected going settled (round_spec taken)) runs
    by_cases isCancelled : answer = .cancelled
    · subst isCancelled
      obtain rfl := (round_spec taken).of_cancelled
      exact ⟨later, executedLater, by simpa using given⟩
    · obtain ⟨executed, grown, gives, _, _⟩ :=
        executed_of_round isCancelled (placed.1 going) (round_spec taken)
      refine ⟨executed :: later, by simp [executedLater, grown], ?_⟩
      rw [filter_cons_of_pos (by simpa using isCancelled)]
      exact .cons gives given

/-- `Execute` returns under every executor that settles its stages.  Its runs
keep to the retry limits, record exactly the executed stages in order, and end
completed exactly when the last of these concludes the run, unless the end
marker serves as the initial stage or as a failure edge the engine went along. -/
theorem execute_is_bounded_and_accounted (blueprint : Blueprint) (config : EngineConfig)
    (runID : String) (valid : blueprint.validate = none)
    (acyclic : Acyclic blueprint.SuccessEdge) :
    (∀ answers : Nat → Answer, (∀ index, (answers index).Settled) → ∃ rounds final,
      run (round blueprint config) settledAnswer (opened blueprint runID)
        ((List.range rounds).map answers) = some final ∧ final.execution.returned.isSome) ∧
    ∀ (answers : List Answer) (account : Account),
      run (round blueprint config) settledAnswer (opened blueprint runID) answers =
        some account →
      (∀ key stage, blueprint.getStage key = some stage →
        account.recoveries key ≤ stage.maxRetries.toNat) ∧
      account.totalRecoveries ≤ config.maxTotalRetries.toNat ∧
      List.Forall₂ Answer.Gives (answers.filter (· ≠ .cancelled)) account.executed ∧
      account.execution.run.results = account.executed.map ExecutedStage.result ∧
      account.execution.previousStages = account.executed.map ExecutedStage.result ∧
      (blueprint.getStage "complete" = none → Direct blueprint account.executed) ∧
      (account.execution.returned.isSome →
        (account.execution.run.status = .completed ∨ account.execution.run.status = .failed ∨
          account.execution.run.status = .cancelled) ∧
        (account.execution.run.status = .cancelled ↔ Answer.cancelled ∈ answers) ∧
        ((account.execution.run.status = .completed ↔ LastConcludes account.executed) ↔
          Direct blueprint account.executed)) := by
  refine ⟨exists_return valid acyclic, ?_⟩
  intro answers account runs
  have connected := Blueprint.connected_of_validate valid
  have accessible : Accessible blueprint config runID account := reachable_of_run runs
  have accounted := accounted_of_accessible accessible
  obtain ⟨executed, isExecuted, given⟩ := executed_of_run connected (placed_opened connected) runs
  refine ⟨fun key stage => accounted.limited, accounted.totalLimited, ?_, accounted.results,
    accounted.previous, accounted.direct connected, ?_⟩
  · simpa [isExecuted, opened] using given
  · intro returned
    have concluded := (placed_of_accessible connected accessible).2 returned
    refine ⟨concluded.status, status_cancelled_iff ?_ runs, concluded.completed_iff⟩
    unfold opened Execution.atHead
    split <;> simp [startRun, Run.newRun, Run.complete]

/-- How far the stages of the two blueprints the repository ships are from the end. -/
def stagesAhead (name : String) : Nat :=
  match name with
  | "gather_context" => 9
  | "implement" => 8
  | "generate_contract_tests" => 7
  | "fix_lint" => 7
  | "lint" => 6
  | "fix_tests" => 6
  | "test" => 5
  | "production_readiness_check" => 4
  | "verify" => 4
  | "review" => 3
  | _ => 0

theorem defaultBlueprint_acyclic : Acyclic defaultBlueprint.SuccessEdge :=
  Blueprint.acyclic_of_rows stagesAhead (by decide +kernel)

theorem execute_is_bounded_and_accounted_default :
    defaultBlueprint.validate = none ∧ ∃ rounds final,
      run (round defaultBlueprint defaultEngineConfig) settledAnswer
        (opened defaultBlueprint "T-1")
        ((List.range rounds).map fun _ => Answer.erred none "no answer") = some final ∧
      final.execution.returned.isSome :=
  ⟨by decide +kernel, (execute_is_bounded_and_accounted defaultBlueprint defaultEngineConfig "T-1"
    (by decide +kernel) defaultBlueprint_acyclic).1 (fun _ => .erred none "no answer")
    fun _ => trivial⟩

/-- A stage under the name of the end marker makes the marker a valid failure edge. -/
def handoverBlueprint : Blueprint where
  id := "handover"
  name := "Handover"
  stages :=
    { rows :=
        [("check",
            { name := "check", maxRetries := 1, onSuccess := "complete"
              onFailure := "complete" }),
          ("complete", { name := "complete" })]
      unique := by decide }
  initialStage := "check"

/-- The only executed stage failed, and the run is completed. -/
theorem run_completed_after_failed_stage :
    handoverBlueprint.validate = none ∧ Acyclic handoverBlueprint.SuccessEdge ∧
    ∃ account, run (round handoverBlueprint defaultEngineConfig) settledAnswer
        (opened handoverBlueprint "T-1") [.erred none "check failed"] = some account ∧
      account.execution.returned = some .ok ∧ account.execution.run.status = .completed ∧
      account.execution.run.results.map StageResult.status = [.failed] ∧
      ¬ LastConcludes account.executed := by
  refine ⟨by decide +kernel, Blueprint.acyclic_of_rows
    (fun name => if name = "check" then 2 else if name = "complete" then 1 else 0)
    (by decide +kernel), ?_⟩
  have runs : (run (round handoverBlueprint defaultEngineConfig) settledAnswer
      (opened handoverBlueprint "T-1") [.erred none "check failed"]).any (fun account =>
        account.execution.returned = some .ok ∧ account.execution.run.status = .completed ∧
        account.execution.run.results.map StageResult.status = [.failed] ∧
        account.executed.all fun executed => ¬ executed.Concludes) = true := by
    decide +kernel
  obtain ⟨account, reached, ends⟩ := (any_eq_true _ _).mp runs
  obtain ⟨returned, status, results, unconcluded⟩ := of_decide_eq_true ends
  refine ⟨account, reached, returned, status, results, ?_⟩
  rintro ⟨last, isLast, concludes⟩
  have stays := all_eq_true.mp unconcluded last (mem_of_getLast? isLast)
  exact of_decide_eq_true stays concludes

end OpenExec.BlueprintEngine
