import OpenExec.BlueprintEngine

/-!
# Recovery edges of the standard blueprint

The engine goes along a failure edge only while the failed stage has retries left.
-/

namespace OpenExec.BlueprintEngine

open GuardedRuns List

def liveAnswer (_ : Account) (answer : Answer) : Prop := answer ≠ .cancelled

instance (account : Account) (answer : Answer) : Decidable (liveAnswer account answer) :=
  inferInstanceAs (Decidable (answer ≠ .cancelled))

def ExecutedStage.FailsAt (executed : ExecutedStage) (keys : List String) : Prop :=
  executed.key ∈ keys ∧ executed.result.status = .failed

instance (executed : ExecutedStage) (keys : List String) : Decidable (executed.FailsAt keys) :=
  inferInstanceAs (Decidable (_ ∧ _))

def Blueprint.Unretried (blueprint : Blueprint) (keys : List String) : Prop :=
  ∀ key ∈ keys, ∀ stage, blueprint.getStage key = some stage → stage.maxRetries ≤ 0

/-- Either no stage under the keys failed, or the last executed stage is the
first that did and the run failed with it. -/
inductive EndsAtFailure (keys : List String) (account : Account) : Prop
  | unfailed (never : ∀ executed ∈ account.executed, ¬ executed.FailsAt keys)
  | failed {earlier : List ExecutedStage} {last : ExecutedStage}
      (executed : account.executed = earlier ++ [last])
      (never : ∀ executed ∈ earlier, ¬ executed.FailsAt keys) (fails : last.FailsAt keys)
      (returned : account.execution.returned.isSome)
      (status : account.execution.run.status = .failed)

variable {blueprint : Blueprint} {config : EngineConfig} {account next : Account} {answer : Answer}
  {runID : String} {keys : List String} {last : ExecutedStage} {earlier : List ExecutedStage}

theorem EndsAtFailure.never_of_going (ends : EndsAtFailure keys account)
    (going : account.execution.returned = none) :
    ∀ executed ∈ account.executed, ¬ executed.FailsAt keys := by
  cases ends with
  | unfailed never => exact never
  | failed executed never fails returned status => simp [going] at returned

theorem never_append {stages : List ExecutedStage}
    (never : ∀ executed ∈ stages, ¬ executed.FailsAt keys) (lastHolds : ¬ last.FailsAt keys) :
    ∀ executed ∈ stages ++ [last], ¬ executed.FailsAt keys := by
  intro executed isMember
  rcases mem_append.mp isMember with earlier | isLast
  · exact never executed earlier
  · obtain rfl := mem_singleton.mp isLast
    exact lastHolds

theorem endsAtFailure_of_failed
    {execution : Execution} (never : ∀ executed ∈ earlier, ¬ executed.FailsAt keys)
    (returned : execution.returned.isSome) (status : execution.run.status = .failed) :
    EndsAtFailure keys ⟨execution, earlier ++ [last]⟩ := by
  by_cases fails : last.FailsAt keys
  · exact .failed rfl never fails returned status
  · exact .unfailed (never_append never fails)

theorem EndsAtFailure.round (unretried : blueprint.Unretried keys)
    (ends : EndsAtFailure keys account) (going : account.execution.returned = none)
    (taken : Round blueprint config account answer next) : EndsAtFailure keys next := by
  have never := ends.never_of_going going
  cases taken with
  | cancelled | missing live absent => exact .unfailed never
  | completed recorded found status =>
    refine EndsAtFailure.unfailed (never_append never ?_)
    rintro ⟨_, failed⟩
    exact absurd (status.symm.trans failed) (by simp)
  | recovered recorded found status leads stageLimit totalLimit =>
    refine EndsAtFailure.unfailed (never_append never ?_)
    rintro ⟨listed, _⟩
    have limit := unretried _ listed _ found
    omega
  | exhausted recorded found status err | failed recorded found status err returned =>
    exact endsAtFailure_of_failed never rfl rfl
  | ignored recorded found completed failed =>
    refine EndsAtFailure.unfailed (never_append never ?_)
    exact fun fails => failed fails.2

theorem endsAtFailure_of_run (unretried : blueprint.Unretried keys) {answers : List Answer}
    (runs : run (round blueprint config) liveAnswer (opened blueprint runID) answers =
      some account) : EndsAtFailure keys account :=
  (reachable_of_run runs).invariant (.unfailed nofun) fun ends _ taken =>
    ends.round unretried (returned_none_of_round taken) (round_spec taken)

/-- The stages of the standard blueprint whose failure has a documented successor. -/
def recoveringStages : List String :=
  ["lint", "test", "generate_contract_tests", "production_readiness_check"]

theorem defaultBlueprint_unretried : defaultBlueprint.Unretried recoveringStages := by
  have limits : ∀ key ∈ recoveringStages,
      (defaultBlueprint.getStage key).map Stage.maxRetries = some 0 := by decide +kernel
  intro key listed stage found
  have limit := limits key listed
  rw [found] at limit
  exact Int.le_of_eq (Option.some.inj limit)

/-- What comes after an executed stage: the next executed stage, or the one the
run has moved to. -/
def Account.FollowedBy (account : Account) (after : List ExecutedStage) (key : String) : Prop :=
  match after with
  | [] => account.execution.returned = none ∧ account.execution.run.currentStage = key
  | executed :: _ => executed.key = key

/-- The first failures of `lint` and `test` lead to their fixing stages; failures
of `generate_contract_tests` and `production_readiness_check` do not end the run. -/
def FollowsRecoveryEdges (account : Account) : Prop :=
  ∀ before executed after, account.executed = before ++ executed :: after →
    executed.result.status = .failed →
    (executed.key = "lint" → (∀ earlier ∈ before, ¬ earlier.FailsAt ["lint"]) →
      account.FollowedBy after "fix_lint") ∧
    (executed.key = "test" → (∀ earlier ∈ before, ¬ earlier.FailsAt ["test"]) →
      account.FollowedBy after "fix_tests") ∧
    (executed.key = "generate_contract_tests" → account.FollowedBy after "lint") ∧
    (executed.key = "production_readiness_check" → account.FollowedBy after "review")

theorem followsRecoveryEdges_of_never
    (never : ∀ executed ∈ account.executed, ¬ executed.FailsAt recoveringStages) :
    FollowsRecoveryEdges account := by
  intro before executed after split failed
  have isMember : executed ∈ account.executed := by simp [split]
  have elsewhere : executed.key ∉ recoveringStages := fun listed =>
    never executed isMember ⟨listed, failed⟩
  simp only [recoveringStages, mem_cons, not_mem_nil, or_false, not_or] at elsewhere
  exact ⟨fun here => absurd here elsewhere.1, fun here => absurd here elsewhere.2.1,
    fun here => absurd here elsewhere.2.2.1, fun here => absurd here elsewhere.2.2.2⟩

theorem not_followsRecoveryEdges (executed : account.executed = earlier ++ [last])
    (never : ∀ executed ∈ earlier, ¬ executed.FailsAt recoveringStages)
    (fails : last.FailsAt recoveringStages) (returned : account.execution.returned.isSome) :
    ¬ FollowsRecoveryEdges account := by
  intro follows
  have first : ∀ key ∈ recoveringStages, ∀ stage ∈ earlier, ¬ stage.FailsAt [key] := by
    rintro key listed stage isMember ⟨named, failed⟩
    obtain rfl := mem_singleton.mp named
    exact never stage isMember ⟨listed, failed⟩
  have stopped : ∀ key, ¬ account.FollowedBy [] key := by
    rintro key ⟨going, _⟩
    simp [going] at returned
  obtain ⟨lint, test, contracts, readiness⟩ := follows earlier last [] executed fails.2
  have named := fails.1
  simp only [recoveringStages, mem_cons, not_mem_nil, or_false] at named
  rcases named with here | here | here | here
  · exact stopped _ (lint here (first "lint" (by decide)))
  · exact stopped _ (test here (first "test" (by decide)))
  · exact stopped _ (contracts here)
  · exact stopped _ (readiness here)

/-- A run of the standard blueprint follows its recovery edges only as long as
none of the recovering stages fails; the first that does fails the run. -/
theorem recovery_edges_followed_iff (config : EngineConfig) (runID : String)
    (answers : List Answer) (account : Account)
    (runs : run (round defaultBlueprint config) liveAnswer (opened defaultBlueprint runID)
      answers = some account) :
    (FollowsRecoveryEdges account ↔
      ∀ executed ∈ account.executed, ¬ executed.FailsAt recoveringStages) ∧
    ((∃ executed ∈ account.executed, executed.FailsAt recoveringStages) →
      account.execution.run.status = .failed) := by
  cases endsAtFailure_of_run defaultBlueprint_unretried runs with
  | unfailed never =>
    refine ⟨iff_of_true (followsRecoveryEdges_of_never never) never, ?_⟩
    rintro ⟨executed, isMember, fails⟩
    exact absurd fails (never executed isMember)
  | @failed earlier last executed never fails returned status =>
    refine ⟨iff_of_false (not_followsRecoveryEdges executed never fails returned) ?_,
      fun _ => status⟩
    intro none
    exact none last (by simp [executed]) fails

/-- An executor that reports every stage as completed but fails `lint`. -/
def lintFails : List Answer :=
  [.answered ⟨"gather_context", .completed, 1, ""⟩, .answered ⟨"implement", .completed, 1, ""⟩,
    .answered ⟨"generate_contract_tests", .completed, 1, ""⟩,
    .answered ⟨"lint", .failed, 1, "lint errors"⟩]

theorem recovery_edges_followed_iff_lint :
    ∃ account, run (round defaultBlueprint defaultEngineConfig) liveAnswer
        (opened defaultBlueprint "T-1") lintFails = some account ∧
      account.execution.run.status = .failed := by
  have runs : (run (round defaultBlueprint defaultEngineConfig) liveAnswer
      (opened defaultBlueprint "T-1") lintFails).any (fun account =>
        account.executed.any fun executed => executed.FailsAt recoveringStages) = true := by
    decide +kernel
  obtain ⟨account, reached, fails⟩ := (Option.any_eq_true _ _).mp runs
  obtain ⟨executed, isMember, failsAt⟩ := any_eq_true.mp fails
  exact ⟨account, reached, (recovery_edges_followed_iff _ _ _ _ reached).2
    ⟨executed, isMember, of_decide_eq_true failsAt⟩⟩

/-- The first failure of `lint` ends the run; `fix_lint` is never executed. -/
theorem lint_failure_ends_run :
    ∃ account, run (round defaultBlueprint defaultEngineConfig) liveAnswer
        (opened defaultBlueprint "T-1") lintFails = some account ∧
      account.executed.map ExecutedStage.key =
        ["gather_context", "implement", "generate_contract_tests", "lint"] ∧
      account.execution.returned = some (.error "stage \"lint\" failed: lint errors") ∧
      ¬ FollowsRecoveryEdges account := by
  have runs : (run (round defaultBlueprint defaultEngineConfig) liveAnswer
      (opened defaultBlueprint "T-1") lintFails).any (fun account =>
        account.executed.map ExecutedStage.key =
          ["gather_context", "implement", "generate_contract_tests", "lint"] ∧
        account.execution.returned = some (.error "stage \"lint\" failed: lint errors") ∧
        account.executed.any fun executed => executed.FailsAt recoveringStages) = true := by
    decide +kernel
  obtain ⟨account, reached, ends⟩ := (Option.any_eq_true _ _).mp runs
  obtain ⟨stages, returned, fails⟩ := of_decide_eq_true ends
  obtain ⟨executed, isMember, failsAt⟩ := any_eq_true.mp fails
  refine ⟨account, reached, stages, returned, ?_⟩
  cases endsAtFailure_of_run defaultBlueprint_unretried reached with
  | unfailed never => exact absurd (of_decide_eq_true failsAt) (never executed isMember)
  | failed executed never fails returned status =>
    exact not_followsRecoveryEdges executed never fails returned

end OpenExec.BlueprintEngine
