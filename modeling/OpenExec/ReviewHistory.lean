import OpenExec.ReviewedPlanTransitions

/-!
# The review history does not conflict

The record archived under a round stays the record the request would archive there,
until the round advances.
-/

namespace OpenExec.Manager

open Planner KeyedRows GuardedRuns Option List

def RetainedPlanRequest.IsReviewed (retained : RetainedPlanRequest) : Prop :=
  ∃ result review, retained.result = some result ∧ result.review = some review

/-- Records of earlier rounds, and perhaps the request's own record. -/
def Filed (archive : List (Nat × RetainedPlanRequest)) (retained : RetainedPlanRequest) : Prop :=
  ∀ entry ∈ archive, entry.1 < retained.reviewRound ∨
    (entry.1 = retained.reviewRound ∧ retained.IsReviewed ∧ entry.2 = retained.archived)

/-- No interruption falls between saving a refined plan and advancing the round. -/
def AdvancesUninterrupted (state : Planning) (action : PlanAction) : Prop :=
  match state.replay, action with
  | some replay, .interrupt => replay.point ≠ .advancing
  | _, _ => True

instance (state : Planning) (action : PlanAction) :
    Decidable (AdvancesUninterrupted state action) := by
  unfold AdvancesUninterrupted
  split <;> infer_instance

structure Archived (state : Planning) : Prop where
  empty : state.row = none → state.archive = []
  bounded : ∀ retained, state.row = some retained →
    ∀ entry ∈ state.archive, entry.1 ≤ retained.reviewRound
  filed : (∀ replay, state.replay = some replay → replay.point ≠ .advancing) →
    ∀ retained, state.row = some retained → Filed state.archive retained
  quiet : .refused .historyConflict ∉ state.log

section

variable {archive : List (Nat × RetainedPlanRequest)} {retained other : RetainedPlanRequest}
  {entry : Nat × RetainedPlanRequest}

theorem Filed.bounded (filed : Filed archive retained) (member : entry ∈ archive) :
    entry.1 ≤ retained.reviewRound := by
  rcases filed entry member with earlier | ⟨same, _⟩
  · omega
  · omega

theorem Filed.earlier (filed : Filed archive retained) (unreviewed : ¬ retained.IsReviewed)
    (member : entry ∈ archive) : entry.1 < retained.reviewRound := by
  rcases filed entry member with earlier | ⟨_, reviewed, _⟩
  · exact earlier
  · exact absurd reviewed unreviewed

theorem Filed.found (filed : Filed archive retained)
    (found : row? Prod.fst archive retained.reviewRound = some entry) :
    entry.2 = retained.archived := by
  have round : entry.1 = retained.reviewRound := row?_key found
  rcases filed entry (row?_mem found) with earlier | ⟨_, _, same⟩
  · omega
  · exact same

theorem filed_of_earlier
    (earlier : ∀ entry ∈ archive, entry.1 < retained.reviewRound) : Filed archive retained :=
  fun entry member => .inl (earlier entry member)

theorem Filed.congr (filed : Filed archive retained) (result : other.result = retained.result)
    (same : other.archived = retained.archived) : Filed archive other := by
  have round : other.reviewRound = retained.reviewRound := by
    have rounds := congrArg RetainedPlanRequest.reviewRound same
    exact rounds
  intro entry member
  rw [round, same, RetainedPlanRequest.IsReviewed, result]
  exact filed entry member

theorem not_isReviewed_of_none (missing : retained.result = none) : ¬ retained.IsReviewed := by
  rintro ⟨result, review, isResult, _⟩
  simp [missing] at isResult

theorem not_isReviewed_of_unreviewed {result : PlanResult}
    (isResult : retained.result = some result) (unreviewed : result.review = none) :
    ¬ retained.IsReviewed := by
  rintro ⟨other, review, isOther, judged⟩
  obtain rfl := mem_unique isResult isOther
  simp [unreviewed] at judged

end

section

variable {checks : PlanChecks} {request : PlanRequest} {state next : Planning} {replay : Replay}
  {action : PlanAction}

section

variable (archived : Archived state)
include archived

theorem Archived.record {event : PlanEvent}
    (ordinary : event ≠ .refused .historyConflict) : Archived (state.record event) where
  __ := archived
  quiet := by
    simp only [Planning.record, mem_append, mem_singleton, not_or]
    exact ⟨archived.quiet, fun same => ordinary same.symm⟩

section

variable (filed : ∀ retained, state.row = some retained → Filed state.archive retained)
include filed

theorem Archived.finish : Archived state.finish :=
  { archived with filed := fun _ => filed }

theorem Archived.refuse {refusal : Refusal} (ordinary : refusal ≠ .historyConflict) :
    Archived (state.refuse refusal) :=
  (archived.record (by simpa using ordinary)).finish filed

theorem Archived.resume {replay : Replay} : Archived (state.resume replay) :=
  { archived with filed := fun _ => filed }

end

theorem Archived.save
    (filed : Filed state.archive replay.retained) : Archived (state.save replay) where
  empty := by simp [Planning.save]
  bounded := by
    intro retained isRow entry member
    exact Option.some.inj isRow ▸ filed.bounded member
  filed := by
    intro _ retained isRow
    exact Option.some.inj isRow ▸ filed
  quiet := archived.quiet

theorem Archived.save_advancing (point : replay.point = .advancing)
    (bounded : ∀ entry ∈ state.archive, entry.1 ≤ replay.retained.reviewRound) :
    Archived (state.save replay) where
  empty := by simp [Planning.save]
  bounded := by
    intro retained isRow
    exact Option.some.inj isRow ▸ bounded
  filed := by
    intro elsewhere
    exact absurd point (elsewhere replay rfl)
  quiet := archived.quiet

end

theorem Archived.transition (current : Current state) (archived : Archived state)
    (meets : AdvancesUninterrupted state action) (running : state.replay = some replay)
    (step : Transition checks state replay action next) : Archived next := by
  have isRow := current.saved replay running
  have placed := current.placed replay running
  have bounded := archived.bounded _ isRow
  have filedAt (point : replay.point ≠ .advancing) : ∀ retained, state.row = some retained →
      Filed state.archive retained := by
    refine archived.filed ?_
    intro other isOther
    obtain rfl := mem_unique running isOther
    exact point
  have unreviewedAt {result : PlanResult} {after : RetainedPlanRequest}
      (point : replay.point ≠ .advancing) (isResult : replay.retained.result = some result)
      (unreviewed : result.review = none)
      (round : after.reviewRound = replay.retained.reviewRound) : Filed state.archive after := by
    refine filed_of_earlier fun entry member => ?_
    rw [round]
    exact (filedAt point _ isRow).earlier (not_isReviewed_of_unreviewed isResult unreviewed) member
  cases step with
  | ends interrupted =>
    refine archived.finish (filedAt ?_)
    intro point
    simp only [interrupted point, AdvancesUninterrupted, running] at meets
    exact meets point
  | refuses ordinary point => exact archived.refuse (filedAt point) ordinary
  | @conflicts entry point found differs =>
    exact absurd ((filedAt (by simp [point]) _ isRow).found found) differs
  | imports point _ _ => exact (archived.record (by simp)).finish (filedAt (by simp [point]))
  | resets _ _ _ | advances _ =>
    exact archived.save (filed_of_earlier fun entry member => Nat.lt_succ_of_le
      (bounded entry member))
  | opens point | examines point | asks point _ _ | settles point _ _ _ | confirms point =>
    exact archived.resume (filedAt (by simp [point]))
  | generates point =>
    rw [Placed, point] at placed
    refine (archived.record (by simp)).save (filed_of_earlier fun entry member => ?_)
    exact (filedAt (by simp [point]) _ isRow).earlier (not_isReviewed_of_none placed) member
  | repairs point isResult unreviewed _ | approves point isResult unreviewed _ =>
    exact archived.save (unreviewedAt (by simp [point]) isResult unreviewed rfl)
  | reviews point _ =>
    rw [Placed, point] at placed
    obtain ⟨result, isResult, unreviewed⟩ := placed
    exact (archived.record (by simp)).save (unreviewedAt (by simp [point]) isResult unreviewed rfl)
  | corrects point | retries point _ _ _ =>
    exact archived.save ((filedAt (by simp [point]) _ isRow).congr rfl rfl)
  | refines _ _ => exact (archived.record (by simp)).save_advancing rfl bounded
  | fixes point _ =>
    rw [Placed, point] at placed
    obtain ⟨_, result, isResult, unreviewed⟩ := placed
    exact (archived.record (by simp)).save (unreviewedAt (by simp [point]) isResult unreviewed rfl)
  | files point absent =>
    have filed := filedAt (by simp [point]) _ isRow
    unfold Placed at placed
    rw [point] at placed
    obtain ⟨result, review, isResult, judged, _⟩ := placed
    have refiled : Filed ((replay.retained.reviewRound, replay.retained.archived) ::
        state.archive) replay.retained := by
      intro entry member
      rcases mem_cons.mp member with rfl | earlier
      · exact .inr ⟨rfl, ⟨result, review, isResult, judged⟩, rfl⟩
      · exact filed entry earlier
    refine ⟨?_, ?_, ?_, archived.quiet⟩
    · intro missing
      exact absurd (missing.symm.trans isRow) (by simp)
    · intro retained same entry member
      obtain rfl := mem_unique isRow same
      exact refiled.bounded member
    · intro _ retained same
      obtain rfl := mem_unique isRow same
      exact refiled

theorem openRequest_archived (archived : Archived state) (idle : state.replay = none)
    (build : String) (cycles : Int) : Archived (openRequest request state build cycles) := by
  have filed := archived.filed (by simp [idle])
  unfold openRequest
  split
  · split
    · exact archived.resume filed
    · exact archived.refuse filed (by simp)
  · next isRow =>
    simp only
    generalize (if cycles = 0 then defaultMaxReviewCycles else cycles) = limit
    split
    · exact archived.refuse filed (by simp)
    · refine archived.save ?_
      rw [Filed, archived.empty isRow]
      simp

theorem reachable_archived
    (reachable : Reachable (stepPlanning checks request) AdvancesUninterrupted unplanned state) :
    Archived state := by
  refine planning_invariant ⟨by simp [unplanned], by simp [unplanned], by simp [unplanned],
    by simp [unplanned]⟩ ?_ ?_ reachable
  · exact fun _ archived idle build cycles => openRequest_archived archived idle build cycles
  · exact fun current archived meets running step =>
      archived.transition current meets running step

/-- On every run without an interruption between saving a refined plan and
advancing the round, the record a replay archives equals the one already
archived under its round, and no replay ends in a history conflict. -/
theorem review_history_consistent (checks : PlanChecks) (request : PlanRequest) {state : Planning}
    (reachable : Reachable (stepPlanning checks request) AdvancesUninterrupted unplanned state) :
    .refused .historyConflict ∉ state.log ∧
      ∀ replay entry, state.replay = some replay → replay.point = .archiving →
        row? Prod.fst state.archive replay.retained.reviewRound = some entry →
        entry.2 = replay.retained.archived := by
  have archived := reachable_archived reachable
  refine ⟨archived.quiet, ?_⟩
  intro replay entry running point found
  have isRow := (reachable_current reachable).saved replay running
  refine (archived.filed ?_ _ isRow).found found
  intro other isOther
  obtain rfl := mem_unique running isOther
  simp [point]

end

def invoicePlan : ProjectPlan where
  goals := [{ id := "G-001", title := "Billing" }, { id := "G-002", title := "Invoices" }]

def refinedRun : List PlanAction :=
  [.start "v1" 0, .proceed, .generate billingPlan emptyLedger, .proceed,
    .review { approved := false }, .proceed, .proceed, .proceed, .refine invoicePlan emptyLedger]

/-- Interrupted before the fix instead, and replayed. -/
def resumedRun : List PlanAction :=
  refinedRun.take 5 ++ [.interrupt, .start "v1" 0, .proceed, .proceed] ++ refinedRun.drop 5

theorem review_history_consistent_refinedRun :
    ∃ state,
      Reachable (stepPlanning acceptingChecks importRequest) AdvancesUninterrupted unplanned state ∧
      state.archive ≠ [] ∧ .refused .historyConflict ∉ state.log := by
  refine exists_reached (fun state => state.archive ≠ [])
    (resumedRun ++ [.proceed, .proceed, .proceed, .proceed]) (by decide +kernel) ?_
  intro state reachable kept
  exact ⟨kept, (review_history_consistent acceptingChecks importRequest reachable).1⟩

/-- Interrupted before the round advances, the request is replayed under the same
build: the fix is archived under the round of the plan it replaced. -/
theorem review_history_conflicts :
    ∃ state, Reachable (stepPlanning acceptingChecks importRequest) anyStep unplanned state ∧
      .refused .historyConflict ∈ state.log :=
  exists_reached _
    (refinedRun ++ [.interrupt, .start "v1" 0, .proceed, .proceed, .proceed, .proceed])
    (by decide +kernel) fun _ conflict => conflict

end OpenExec.Manager
