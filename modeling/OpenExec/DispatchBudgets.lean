import OpenExec.ReviewedPlanTransitions

/-!
# Dispatches of one planning request

Refinements, check repairs and the schema correction are counted in the retained
request before they are dispatched, so their number is bounded over any number of
interruptions and starts.
-/

namespace OpenExec.Manager

open Planner GuardedRuns GoStrings List Option

inductive Dispatch
  | refinement | checkRepair | schemaCorrection
deriving DecidableEq

/-- The completion that a replay dispatches after the save of a step. -/
def dispatched (state next : Planning) : List Dispatch :=
  match state.replay.map Replay.point, next.replay.map Replay.point with
  | some .deciding, some (.refining false _) => [.refinement]
  | some .looping, some (.refining true _) => [.checkRepair]
  | some (.refining _ _), some (.refining _ _) => [.schemaCorrection]
  | _, _ => []

structure Dispatching where
  planning : Planning
  dispatches : List Dispatch

def stepDispatching (checks : PlanChecks) (request : PlanRequest) (state : Dispatching)
    (action : PlanAction) : Option Dispatching :=
  (stepPlanning checks request state.planning action).map fun next =>
    { planning := next, dispatches := state.dispatches ++ dispatched state.planning next }

/-- Every start is by the same build, and what a response could not be decoded for
is the text of a `ResponseDecodeError`. -/
def SameBuild (build : String) (_ : Dispatching) : PlanAction → Prop
  | .start started _ => started = build
  | .correct diagnostic => hasPrefix diagnostic "failed to parse LLM response as JSON: "
  | _ => True

instance (build : String) (state : Dispatching) (action : PlanAction) :
    Decidable (SameBuild build state action) := by
  cases action <;> unfold SameBuild <;> infer_instance

/-- The dispatches are counted in the request, and its counters are within their bounds. -/
structure Budgeted (build : String) (retained : RetainedPlanRequest) (spent : List Dispatch) :
    Prop where
  refinements : spent.count .refinement ≤ retained.refinementAttempts ∧
    (retained.refinementAttempts : Int) ≤ retained.reviewLimit - 1
  checkRepairs : spent.count .checkRepair ≤ retained.checkRepairs ∧
    retained.checkRepairs ≤ maxCheckRepairs
  corrections : spent.count .schemaCorrection ≤ if retained.schemaCorrection = "" then 0 else 1
  built : ∀ result ∈ retained.result, result.plannerBuild = build

structure Spends (build : String) (limit : Int) (next : Planning) (spent : List Dispatch) :
    Prop where
  row : ∃ retained, next.row = some retained ∧ retained.reviewLimit = limit ∧
    Budgeted build retained spent
  build : ∀ replay, next.replay = some replay → replay.build = build

section

variable {checks : PlanChecks} {request : PlanRequest} {state next : Planning} {replay : Replay}
  {action : PlanAction} {build : String} {spent : List Dispatch} {result : PlanResult}
  {review : PlanReview} {limit cycles : Int}

theorem Budgeted.spends (budgeted : Budgeted build replay.retained spent)
    {after : RetainedPlanRequest} (row : next.row = some after)
    (same : after.reviewLimit = replay.retained.reviewLimit ∧
      after.refinementAttempts = replay.retained.refinementAttempts ∧
      after.checkRepairs = replay.retained.checkRepairs ∧
      after.schemaCorrection = replay.retained.schemaCorrection)
    (built : ∀ result ∈ after.result, result.plannerBuild = build)
    (isBuild : ∀ replay, next.replay = some replay → replay.build = build)
    (quiet : dispatched state next = []) :
    Spends build replay.retained.reviewLimit next (spent ++ dispatched state next) := by
  obtain ⟨limit, attempts, repairs, correction⟩ := same
  refine ⟨⟨after, row, limit, ?_⟩, isBuild⟩
  rw [quiet, append_nil]
  refine ⟨?_, ?_, ?_, built⟩
  · rw [attempts, limit]
    exact budgeted.refinements
  · rw [repairs]
    exact budgeted.checkRepairs
  · rw [correction]
    exact budgeted.corrections

theorem proceeds_of_goesOn (point : replay.point = .looping ∨ replay.point = .deciding)
    (goesOn : next.replay ≠ none)
    (stepped : stepReplay checks request state replay action = some next) :
    proceedReplay checks request state replay = some next := by
  cases action with
  | proceed => exact stepped
  | interrupt =>
    cases stepped
    exact absurd rfl goesOn
  | _ => rcases point with point | point <;> simp [stepReplay, point] at stepped

theorem examineCurrent_repairs
    (repairs : (examineCurrent checks state replay result).replay.map Replay.point =
      some (.refining true review)) : replay.retained.checkRepairs < maxCheckRepairs := by
  unfold examineCurrent checkFixedPlan at repairs
  simp only at repairs
  repeat' split at repairs
  all_goals first
    | omega
    | simp [Planning.refuse, Planning.finish, Planning.resume, Planning.save] at repairs

theorem decideOutcome_retries {attempts : Nat}
    (retries : decideOutcome checks request state replay result review = state.save
      { replay with
        point := .refining false review
        retained := { replay.retained with refinementAttempts := attempts + 1 } }) :
    replay.retained.refinementAttempts ≤ attempts ∧
      (attempts : Int) < replay.retained.reviewLimit - 1 := by
  have cycles : reviewCycles replay ≤ replay.retained.reviewLimit := by
    unfold reviewCycles
    split <;> omega
  unfold decideOutcome at retries
  simp only at retries
  split at retries
  · next room =>
    have same : max replay.retained.refinementAttempts (replay.retained.reviewRound - 1) =
        attempts := by
      simpa [Planning.save] using retries
    omega
  · exfalso
    repeat' split at retries
    all_goals simp [Planning.refuse, Planning.finish, Planning.record, Planning.save] at retries

theorem admitCorrection_of_step {repair : Bool} (point : replay.point = .refining repair review)
    (stays : next.replay.map Replay.point = some (.refining repair review))
    (stepped : stepReplay checks request state replay action = some next) :
    ∃ diagnostic,
      action = .correct diagnostic ∧ next = admitCorrection state replay diagnostic := by
  cases action with
  | correct diagnostic =>
    simp only [stepReplay, point, some.injEq] at stepped
    exact ⟨diagnostic, rfl, stepped.symm⟩
  | refine answer ledger =>
    simp only [stepReplay, point] at stepped
    split at stepped
    · cases stepped
      exfalso
      unfold acceptRefined at stays
      repeat' split at stays
      all_goals simp [Planning.refuse, Planning.finish, Planning.save] at stays
    · cases stepped
  | interrupt =>
    cases stepped
    simp [Planning.finish] at stays
  | proceed => simp [stepReplay, proceedReplay, point] at stepped
  | start | generate | review => simp [stepReplay, point] at stepped

theorem Budgeted.spends_ended (budgeted : Budgeted build replay.retained spent)
    (row : next.row = some replay.retained) (ended : next.replay = none) :
    Spends build replay.retained.reviewLimit next (spent ++ dispatched state next) :=
  budgeted.spends row ⟨rfl, rfl, rfl, rfl⟩ budgeted.built (by simp [ended])
    (by simp [dispatched, ended])

theorem spends_of_step (current : Current state) (running : state.replay = some replay)
    (budgeted : Budgeted build replay.retained spent) (sameBuild : replay.build = build)
    {dispatches : List Dispatch} (meets : SameBuild build ⟨state, dispatches⟩ action)
    (stepped : stepReplay checks request state replay action = some next) :
    Spends build replay.retained.reviewLimit next (spent ++ dispatched state next) := by
  have saved := current.saved replay running
  obtain ⟨numbered, limited⟩ := current.settled _ saved
  have transition := stepReplay_transition numbered limited stepped
  have unstale : staleRefusal replay.build replay.retained.result = false := by
    unfold staleRefusal
    split
    · rfl
    · next result isResult => split <;> simp [budgeted.built result isResult, sameBuild]
  cases transition with
  | ends | refuses | conflicts | imports => exact budgeted.spends_ended saved rfl
  | resets _ _ stale => exact absurd (stale.symm.trans unstale) (by simp)
  | opens point | examines point | asks point | settles point | files point | confirms point =>
    exact budgeted.spends saved ⟨rfl, rfl, rfl, rfl⟩ budgeted.built
      (by simp [Planning.resume, sameBuild]) (by simp [dispatched, Planning.resume, running, point])
  | advances point =>
    exact budgeted.spends rfl ⟨rfl, rfl, rfl, rfl⟩ budgeted.built
      (by simp [advanceRound, Planning.save, sameBuild])
      (by simp [dispatched, advanceRound, Planning.save, running, point])
  | generates point | refines point | fixes point =>
    exact budgeted.spends rfl ⟨rfl, rfl, rfl, rfl⟩ (by simp [unreviewedResult, sameBuild])
      (by simp [Planning.save, sameBuild]) (by simp [dispatched, Planning.save, running, point])
  | approves point current | reviews point current =>
    exact budgeted.spends rfl ⟨rfl, rfl, rfl, rfl⟩
      (by simpa [PlanResult.judged] using budgeted.built _ current)
      (by simp [Planning.save, sameBuild]) (by simp [dispatched, Planning.save, running, point])
  | @repairs result review point current =>
    have proceeds := proceeds_of_goesOn (.inl point) (by simp [Planning.save]) stepped
    simp only [proceedReplay, point, current, some.injEq] at proceeds
    have room := @examineCurrent_repairs _ _ _ _ review (by rw [proceeds]; rfl)
    simp only [dispatched, Planning.save, running, point, map_some]
    refine ⟨⟨_, rfl, rfl, ?_, ?_, ?_, budgeted.built⟩, by simp [sameBuild]⟩
    · simpa using budgeted.refinements
    · have counted := budgeted.checkRepairs
      simp only [count_append, count_singleton_self]
      omega
    · simpa using budgeted.corrections
  | corrects point =>
    obtain ⟨diagnostic, rfl, admitted⟩ :=
      admitCorrection_of_step point (by simp [Planning.save, point]) stepped
    rw [admitted]
    unfold admitCorrection
    split
    · exact budgeted.spends_ended saved rfl
    · next unspent =>
      have named : diagnostic ≠ "" := by
        rintro rfl
        exact absurd (show hasPrefix "" _ = true from meets) (by decide +kernel)
      have counted := budgeted.corrections
      rw [if_pos (not_not.mp unspent)] at counted
      simp only [dispatched, Planning.save, running, point, map_some]
      refine ⟨⟨_, rfl, rfl, ?_, ?_, ?_, budgeted.built⟩, by simp [sameBuild]⟩
      · simpa using budgeted.refinements
      · simpa using budgeted.checkRepairs
      · simp only [count_append, count_singleton_self, if_neg named]
        omega
  | @retries result review attempts point current judged invalid =>
    have proceeds := proceeds_of_goesOn (.inr point) (by simp [Planning.save]) stepped
    have decides : proceedReplay checks request state replay =
        some (decideOutcome checks request state replay result review) := by
      simp [proceedReplay, point, current, judged]
    obtain ⟨covered, room⟩ := decideOutcome_retries (some.inj (decides.symm.trans proceeds))
    have counted := budgeted.refinements
    simp only [dispatched, Planning.save, running, point, map_some]
    refine ⟨⟨_, rfl, rfl, ?_, ?_, ?_, budgeted.built⟩, by simp [sameBuild]⟩
    · simp only [count_append, count_singleton_self]
      omega
    · simpa using budgeted.checkRepairs
    · simpa using budgeted.corrections

theorem spends_openRequest (spends : Spends build limit state spent) :
    Spends build limit (openRequest request state build cycles) spent := by
  obtain ⟨retained, isRow, isLimit, budgeted⟩ := spends.row
  unfold openRequest
  rw [isRow]
  simp only
  split
  · exact ⟨⟨retained, isRow, isLimit, budgeted⟩, by simp [Planning.resume]⟩
  · exact ⟨⟨retained, isRow, isLimit, budgeted⟩, by simp [Planning.refuse, Planning.finish]⟩

theorem openRequest_new (row : state.row = none) :
    ((openRequest request state build cycles).row = none ∧
      (openRequest request state build cycles).replay = none) ∨
      ∃ limit, Spends build limit (openRequest request state build cycles) [] := by
  unfold openRequest
  rw [row]
  simp only
  generalize (if cycles = 0 then defaultMaxReviewCycles else cycles) = limit
  split
  · exact .inl ⟨row, rfl⟩
  · next enough =>
    refine .inr ⟨limit, ⟨_, rfl, rfl, ?_, ?_, ?_, by simp⟩, by simp [Planning.save]⟩
    · simp
      omega
    · simp [maxCheckRepairs]
    · simp

variable {state next : Dispatching}

section

variable (taken : stepDispatching checks request state action = some next)
include taken

theorem starts_of_idle (idle : state.planning.replay = none)
    (meets : SameBuild build state action) : ∃ cycles, next =
    ⟨openRequest request state.planning build cycles, state.dispatches⟩ := by
  obtain ⟨planning, stepped, rfl⟩ := map_eq_some_iff.mp taken
  cases action with
  | start started cycles =>
    obtain rfl : started = build := meets
    simp only [stepPlanning, idle, some.injEq] at stepped
    exact ⟨cycles, by simp [dispatched, idle, stepped]⟩
  | _ => simp [stepPlanning, idle] at stepped

theorem stepDispatching_current (current : Current state.planning) : Current next.planning := by
  obtain ⟨planning, stepped, rfl⟩ := map_eq_some_iff.mp taken
  exact stepPlanning_current current stepped

theorem spends_step (current : Current state.planning)
    (spends : Spends build limit state.planning state.dispatches)
    (meets : SameBuild build state action) :
    Spends build limit next.planning next.dispatches := by
  cases running : state.planning.replay with
  | none =>
    obtain ⟨cycles, rfl⟩ := starts_of_idle taken running meets
    exact spends_openRequest spends
  | some replay =>
    obtain ⟨planning, stepped, rfl⟩ := map_eq_some_iff.mp taken
    simp only [stepPlanning, running] at stepped
    obtain ⟨retained, isRow, rfl, budgeted⟩ := spends.row
    obtain rfl := some.inj ((current.saved replay running).symm.trans isRow)
    exact spends_of_step current running budgeted (spends.build replay running) meets stepped

end

theorem opened_spends {opened : Dispatching}
    (reachable : Reachable (stepDispatching checks request) (SameBuild build) ⟨unplanned, []⟩
      opened) :
    Current opened.planning ∧
      ((opened.planning.row = none ∧ opened.planning.replay = none ∧ opened.dispatches = []) ∨
        ∃ limit, Spends build limit opened.planning opened.dispatches) := by
  induction reachable with
  | initial => exact ⟨unplanned_current, .inl ⟨rfl, rfl, rfl⟩⟩
  | after _ meets taken ih =>
    obtain ⟨current, ⟨row, idle, none⟩ | ⟨limit, spends⟩⟩ := ih
    · obtain ⟨cycles, rfl⟩ := starts_of_idle taken idle meets
      refine ⟨stepDispatching_current taken current, ?_⟩
      rcases openRequest_new row with ⟨row, idle⟩ | opens
      · exact .inl ⟨row, idle, none⟩
      · exact .inr (none ▸ opens)
    · exact ⟨stepDispatching_current taken current,
        .inr ⟨limit, spends_step taken current spends meets⟩⟩

theorem spends_run (current : Current state.planning)
    (spends : Spends build limit state.planning state.dispatches)
    (reachable : Reachable (stepDispatching checks request) (SameBuild build) state next) :
    Current next.planning ∧ Spends build limit next.planning next.dispatches := by
  induction reachable with
  | initial => exact ⟨current, spends⟩
  | after _ meets taken ih =>
    exact ⟨stepDispatching_current taken ih.1, spends_step taken ih.1 ih.2 meets⟩

end

theorem dispatches_within_budgets (checks : PlanChecks) (request : PlanRequest) {build : String}
    {opened state : Dispatching} {recorded : RetainedPlanRequest}
    (first : Reachable (stepDispatching checks request) (SameBuild build) ⟨unplanned, []⟩ opened)
    (isRecorded : opened.planning.row = some recorded)
    (later : Reachable (stepDispatching checks request) (SameBuild build) opened state) :
    (state.dispatches.count .refinement : Int) ≤ recorded.reviewLimit - 1 ∧
      state.dispatches.count .checkRepair ≤ maxCheckRepairs ∧
      state.dispatches.count .schemaCorrection ≤ 1 := by
  obtain ⟨current, ⟨row, _⟩ | ⟨limit, spends⟩⟩ := opened_spends first
  · exact absurd (isRecorded.symm.trans row) (by simp)
  obtain ⟨retained, isRow, rfl, _⟩ := spends.row
  obtain rfl := some.inj (isRecorded.symm.trans isRow)
  obtain ⟨_, after⟩ := spends_run current spends later
  obtain ⟨kept, _, limit, budgeted⟩ := after.row
  refine ⟨?_, ?_, ?_⟩
  · have counted := budgeted.refinements
    omega
  · exact budgeted.checkRepairs.1.trans budgeted.checkRepairs.2
  · have counted := budgeted.corrections
    split at counted <;> omega

theorem dispatches_within_budgets_corrected :
    ∃ state, Reachable (stepDispatching acceptingChecks importRequest) (SameBuild "v1")
        ⟨unplanned, []⟩ state ∧
      state.dispatches = [.refinement, .schemaCorrection] ∧
      (state.dispatches.count .refinement : Int) ≤ defaultMaxReviewCycles - 1 ∧
      state.dispatches.count .checkRepair ≤ maxCheckRepairs ∧
      state.dispatches.count .schemaCorrection ≤ 1 := by
  refine exists_reached (fun state => state.dispatches = [.refinement, .schemaCorrection] ∧
    state.planning.row.map RetainedPlanRequest.reviewLimit = some defaultMaxReviewCycles)
    [.start "v1" 0, .proceed, .generate billingPlan emptyLedger, .proceed,
      .review { approved := false }, .proceed, .proceed, .proceed,
      .correct "failed to parse LLM response as JSON: EOF", .interrupt, .start "v1" 1]
    (by decide +kernel) ?_
  rintro state reachable ⟨spent, limited⟩
  obtain ⟨recorded, isRecorded, limit⟩ := map_eq_some_iff.mp limited
  exact ⟨spent, limit ▸ dispatches_within_budgets acceptingChecks importRequest reachable
    isRecorded .initial⟩

end OpenExec.Manager
