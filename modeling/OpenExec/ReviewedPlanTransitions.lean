import OpenExec.ReviewedPlanReplay

/-!
# What a step of a replay can do

Every step of a replay is one of the transitions below, and between two steps
the saved row is the request the replay works on.
-/

namespace OpenExec.Manager

open Planner Release KeyedRows GuardedRuns Option

section

variable (checks : PlanChecks) (state : Planning) (replay : Replay)

inductive Transition (action : PlanAction) : Planning → Prop
  | ends (interrupted : replay.point = .advancing → action = .interrupt) :
      Transition action state.finish
  | refuses {refusal : Refusal} (ordinary : refusal ≠ .historyConflict)
      (point : replay.point ≠ .advancing) : Transition action (state.refuse refusal)
  | conflicts {entry : Nat × RetainedPlanRequest} (point : replay.point = .archiving)
      (found : row? Prod.fst state.archive replay.retained.reviewRound = some entry)
      (differs : entry.2 ≠ replay.retained.archived) :
      Transition action (state.refuse .historyConflict)
  | imports {result : PlanResult} (point : replay.point = .deciding)
      (current : replay.retained.result = some result) (valid : result.valid = true) :
      Transition action (state.record (.imported result.plan)).finish
  | resets (point : replay.point = .opened) (proceeds : action = .proceed)
      (stale : staleRefusal replay.build replay.retained.result = true) :
      Transition action (state.save
        { replay with
          point := .generating
          retained :=
            { replay.retained with
              result := none
              schemaCorrection := ""
              reviewRound := replay.retained.reviewRound + 1 } })
  | opens (point : replay.point = .opened) :
      Transition action (state.resume
        { replay with point := if replay.retained.result = none then .generating else .looping })
  | generates {plan : ProjectPlan} (point : replay.point = .generating) :
      Transition action ((state.record (.generated plan)).save
        { replay with
          point := .looping
          retained :=
            { replay.retained with
              result := some (unreviewedResult checks replay.build plan) } })
  | examines (point : replay.point = .looping) :
      Transition action (state.resume { replay with point := .reviewed })
  | asks {result : PlanResult} (point : replay.point = .looping)
      (current : replay.retained.result = some result) (unreviewed : result.review = none) :
      Transition action (state.resume { replay with point := .reviewing })
  | repairs {result : PlanResult} {review : PlanReview} (point : replay.point = .looping)
      (current : replay.retained.result = some result) (unreviewed : result.review = none)
      (spent : 1 ≤ replay.retained.refinementAttempts) :
      Transition action (state.save
        { replay with
          point := .refining true review
          retained :=
            { replay.retained with checkRepairs := replay.retained.checkRepairs + 1 } })
  | approves {result : PlanResult} (point : replay.point = .looping)
      (current : replay.retained.result = some result) (unreviewed : result.review = none)
      (spent : 1 ≤ replay.retained.refinementAttempts) :
      Transition action (state.save
        { replay with
          point := .reviewed
          retained :=
            { replay.retained with result := some (result.judged checks importedAfterFix) } })
  | reviews {result : PlanResult} {review : PlanReview} (point : replay.point = .reviewing)
      (current : replay.retained.result = some result) :
      Transition action ((state.record (.reviewed result.plan review)).save
        { replay with
          point := .reviewed
          retained := { replay.retained with result := some (result.judged checks review) } })
  | corrects {repair : Bool} {review : PlanReview} {diagnostic : String}
      (point : replay.point = .refining repair review) :
      Transition action (state.save
        { replay with retained := { replay.retained with schemaCorrection := diagnostic } })
  | refines {result : PlanResult} {review : PlanReview} {plan : ProjectPlan}
      (point : replay.point = .refining false review)
      (current : replay.retained.result = some result) :
      Transition action ((state.record (.refined result.plan review plan)).save
        { replay with
          point := .advancing
          retained :=
            { replay.retained with
              result := some (unreviewedResult checks replay.build plan) } })
  | fixes {result : PlanResult} {review : PlanReview} {plan : ProjectPlan}
      (point : replay.point = .refining true review)
      (current : replay.retained.result = some result) :
      Transition action ((state.record (.repaired result.plan plan)).save
        { replay with
          point := .looping
          retained :=
            { replay.retained with
              result := some (unreviewedResult checks replay.build plan) } })
  | advances (point : replay.point = .advancing) :
      Transition action (advanceRound state replay)
  | settles {result : PlanResult} {review : PlanReview} (point : replay.point = .reviewed)
      (current : replay.retained.result = some result) (judged : result.review = some review)
      (agrees : result.valid = review.approved) :
      Transition action (state.resume { replay with point := .archiving })
  | files (point : replay.point = .archiving)
      (absent : row? Prod.fst state.archive replay.retained.reviewRound = none) :
      Transition action
        { state with
          archive := (replay.retained.reviewRound, replay.retained.archived) :: state.archive
          replay := some { replay with point := .deciding } }
  | confirms (point : replay.point = .archiving) :
      Transition action (state.resume { replay with point := .deciding })
  | retries {result : PlanResult} {review : PlanReview} {attempts : Nat}
      (point : replay.point = .deciding) (current : replay.retained.result = some result)
      (judged : result.review = some review) (invalid : result.valid = false) :
      Transition action (state.save
        { replay with
          point := .refining false review
          retained := { replay.retained with refinementAttempts := attempts + 1 } })

end

section

variable {checks : PlanChecks} {request : PlanRequest} {state next : Planning} {replay : Replay}
  {action : PlanAction} {result : PlanResult} {review : PlanReview} {repair : Bool}
  {refusal : Refusal} {guard : Planning → PlanAction → Prop}

theorem acceptGenerated_transition (point : replay.point = .generating) (answer : ProjectPlan)
    (ledger : Ledger) :
    Transition checks state replay action
      (acceptGenerated checks request state replay answer ledger) := by
  have elsewhere : replay.point ≠ .advancing := by simp [point]
  unfold acceptGenerated
  split
  · exact .refuses (by simp) elsewhere
  split
  · exact .refuses (by simp) elsewhere
  · split
    · exact .refuses (by simp) elsewhere
    · exact .generates point

theorem integrityRefusal_ordinary
    (refused : integrityRefusal checks result = some refusal) : refusal ≠ .historyConflict := by
  unfold integrityRefusal at refused
  split at refused
  · exact some.inj refused ▸ by simp
  · split at refused
    · exact some.inj refused ▸ by simp
    · cases refused

theorem examineCurrent_transition (point : replay.point = .looping)
    (current : replay.retained.result = some result) :
    Transition checks state replay action (examineCurrent checks state replay result) := by
  have elsewhere : replay.point ≠ .advancing := by simp [point]
  unfold examineCurrent
  split
  · next refusal refused => exact .refuses (integrityRefusal_ordinary refused) elsewhere
  split
  · exact .examines point
  next notReviewed =>
  have unreviewed : result.review = none := not_isSome_iff_eq_none.mp notReviewed
  split
  · next spent =>
    unfold checkFixedPlan
    simp only
    split
    · split
      · exact .refuses (by simp) elsewhere
      · split
        · exact .refuses (by simp) elsewhere
        · exact .repairs point current unreviewed spent
    · exact .approves point current unreviewed spent
  · exact .asks point current unreviewed

theorem refinedPlan_error_ordinary {answer : ProjectPlan} {ledger : Ledger}
    (refused : refinedPlan checks request repair answer ledger = .error refusal) :
    refusal ≠ .historyConflict := by
  have ofError {error : Refusal} (ordinary : error ≠ .historyConflict)
      (same : (Except.error error : Except Refusal ProjectPlan) = .error refusal) :
      refusal ≠ .historyConflict := Except.error.inj same ▸ ordinary
  unfold refinedPlan at refused
  split at refused
  · exact ofError (by simp) refused
  split at refused
  · split at refused
    · exact ofError (by simp) refused
    · split at refused
      · exact ofError (by simp) refused
      · split at refused
        · exact ofError (by simp) refused
        · cases refused
  · cases refused

theorem acceptRefined_transition (point : replay.point = .refining repair review)
    (current : replay.retained.result = some result) (answer : ProjectPlan) (ledger : Ledger) :
    Transition checks state replay action
      (acceptRefined checks request state replay result repair review answer ledger) := by
  have elsewhere : replay.point ≠ .advancing := by simp [point]
  unfold acceptRefined
  split
  · exact .refuses (by simp) elsewhere
  split
  · next refusal refused => exact .refuses (refinedPlan_error_ordinary refused) elsewhere
  split
  · exact .refuses (by simp) elsewhere
  split
  · exact .refuses (by simp) elsewhere
  · cases repair with
    | true => exact .fixes point current
    | false => exact .refines point current

theorem settleRound_transition (point : replay.point = .reviewed)
    (current : replay.retained.result = some result) (judged : result.review = some review)
    (numbered : 1 ≤ replay.retained.reviewRound) (limited : 1 ≤ replay.retained.reviewLimit) :
    Transition checks state replay action (settleRound checks state replay result review) := by
  have round : ¬ replay.retained.reviewRound = 0 := by omega
  have limit : ¬ (replay.retained.reviewLimit = 0 ∧ result.valid = false) := by
    intro both
    omega
  unfold settleRound
  split
  · exact .refuses (by simp) (by simp [point])
  · next agrees =>
    simp only [if_neg limit]
    exact .settles point current judged (by simpa using (not_or.mp agrees).2)

theorem archivePlanReview_transition (point : replay.point = .archiving) :
    Transition checks state replay action (archivePlanReview state replay) := by
  unfold archivePlanReview
  simp only
  split
  · next absent => exact .files point absent
  next entry found =>
  split
  · exact .confirms point
  · next differs => exact .conflicts point found differs

theorem decideOutcome_transition (point : replay.point = .deciding)
    (current : replay.retained.result = some result) (judged : result.review = some review) :
    Transition checks state replay action
      (decideOutcome checks request state replay result review) := by
  have elsewhere : replay.point ≠ .advancing := by simp [point]
  unfold decideOutcome
  simp only
  split
  · next rejected => exact .retries point current judged rejected.1
  split
  · next accepted =>
    split
    · exact .refuses (by simp) elsewhere
    · exact .imports point current accepted.2
  · exact .ends (by simp [point])

theorem proceedReplay_transition (numbered : 1 ≤ replay.retained.reviewRound)
    (limited : 1 ≤ replay.retained.reviewLimit) (proceeds : action = .proceed)
    (taken : proceedReplay checks request state replay = some next) :
    Transition checks state replay action next := by
  unfold proceedReplay at taken
  split at taken
  · next point =>
    cases taken
    unfold resetStaleRefusal
    simp only
    split
    · next stale => exact .resets point proceeds stale
    · exact .opens point
  · next point current => exact some.inj taken ▸ examineCurrent_transition point current
  · next point => exact some.inj taken ▸ .advances point
  · next point current =>
    obtain ⟨review, judged, rfl⟩ := map_eq_some_iff.mp taken
    exact settleRound_transition point current judged numbered limited
  · next point => exact some.inj taken ▸ archivePlanReview_transition point
  · next point current =>
    obtain ⟨review, judged, rfl⟩ := map_eq_some_iff.mp taken
    exact decideOutcome_transition point current judged
  · cases taken

theorem stepReplay_transition (numbered : 1 ≤ replay.retained.reviewRound)
    (limited : 1 ≤ replay.retained.reviewLimit)
    (taken : stepReplay checks request state replay action = some next) :
    Transition checks state replay action next := by
  cases action with
  | start build cycles => simp [stepReplay] at taken
  | proceed => exact proceedReplay_transition numbered limited rfl taken
  | generate answer ledger =>
    simp only [stepReplay] at taken
    split at taken
    · next point =>
      exact some.inj taken ▸ acceptGenerated_transition point answer ledger
    · cases taken
  | review answer =>
    simp only [stepReplay] at taken
    split at taken
    · next point current => exact some.inj taken ▸ .reviews point current
    · cases taken
  | correct diagnostic =>
    simp only [stepReplay] at taken
    split at taken
    · next point =>
      cases taken
      unfold admitCorrection
      split
      · exact .refuses (by simp) (by simp [point])
      · exact .corrects point
    · cases taken
  | refine answer ledger =>
    simp only [stepReplay] at taken
    split at taken
    · next point current =>
      exact some.inj taken ▸ acceptRefined_transition point current answer ledger
    · cases taken
  | interrupt => exact some.inj taken ▸ .ends fun _ => rfl

/-- A replayed result fits the stage it goes on from. -/
def Placed (replay : Replay) : Prop :=
  match replay.point with
  | .generating => replay.retained.result = none
  | .reviewing => ∃ result, replay.retained.result = some result ∧ result.review = none
  | .refining true _ =>
    1 ≤ replay.retained.refinementAttempts ∧
      ∃ result, replay.retained.result = some result ∧ result.review = none
  | .refining false review =>
    review.approved = false ∧
      ∃ result, replay.retained.result = some result ∧ result.review = some review
  | .archiving | .deciding =>
    ∃ result review, replay.retained.result = some result ∧ result.review = some review ∧
      result.valid = review.approved
  | _ => True

/-- A replay works on the row that is stored. -/
structure Current (state : Planning) : Prop where
  saved : ∀ replay, state.replay = some replay → state.row = some replay.retained
  settled : ∀ retained, state.row = some retained →
    1 ≤ retained.reviewRound ∧ 1 ≤ retained.reviewLimit
  placed : ∀ replay, state.replay = some replay → Placed replay

section

variable (current : Current state)
include current

theorem Current.record (event : PlanEvent) : Current (state.record event) :=
  { current with }

theorem Current.finish : Current state.finish where
  saved := by simp [Planning.finish]
  settled := current.settled
  placed := by simp [Planning.finish]

theorem Current.refuse (refusal : Refusal) : Current (state.refuse refusal) :=
  (current.record _).finish

theorem Current.resume (saved : state.row = some replay.retained)
    (placed : Placed replay) : Current (state.resume replay) where
  saved := by
    intro other same
    exact some.inj same ▸ saved
  settled := current.settled
  placed := by
    intro other same
    exact some.inj same ▸ placed

end

theorem Current.save (numbered : 1 ≤ replay.retained.reviewRound)
    (limited : 1 ≤ replay.retained.reviewLimit) (placed : Placed replay) :
    Current (state.save replay) where
  saved := by
    intro other same
    exact some.inj same ▸ rfl
  settled := by
    intro retained same
    exact some.inj same ▸ ⟨numbered, limited⟩
  placed := by
    intro other same
    exact some.inj same ▸ placed

theorem Current.transition (current : Current state) (running : state.replay = some replay)
    (step : Transition checks state replay action next) : Current next := by
  have saved := current.saved replay running
  have placed := current.placed replay running
  obtain ⟨numbered, limited⟩ := current.settled _ saved
  cases step with
  | ends _ => exact current.finish
  | refuses _ _ | conflicts _ _ _ => exact current.refuse _
  | imports _ _ _ => exact (current.record _).finish
  | resets _ _ _ => exact Current.save (Nat.le_succ_of_le numbered) limited rfl
  | opens _ =>
    refine current.resume saved ?_
    by_cases missing : replay.retained.result = none
    · simp [Placed, missing]
    · simp [Placed, missing]
  | generates _ | approves _ _ _ _ | reviews _ _ | refines _ _ | fixes _ _ =>
    exact Current.save numbered limited trivial
  | examines _ => exact current.resume saved trivial
  | asks _ isResult unreviewed => exact current.resume saved ⟨_, isResult, unreviewed⟩
  | repairs _ isResult unreviewed spent =>
    exact Current.save numbered limited ⟨spent, _, isResult, unreviewed⟩
  | @corrects repair review diagnostic point =>
    refine Current.save numbered limited ?_
    unfold Placed at placed ⊢
    exact placed
  | advances _ => exact Current.save (Nat.le_succ_of_le numbered) limited trivial
  | settles _ isResult judged agrees =>
    exact current.resume saved ⟨_, _, isResult, judged, agrees⟩
  | files point _ =>
    have filed : Placed { replay with point := .deciding } := by
      unfold Placed at placed
      rw [point] at placed
      exact placed
    have resumed : Current (state.resume { replay with point := .deciding }) :=
      current.resume saved filed
    exact ⟨resumed.saved, current.settled, resumed.placed⟩
  | confirms point =>
    refine current.resume saved ?_
    unfold Placed at placed
    rw [point] at placed
    exact placed
  | @retries result review attempts point isResult judged invalid =>
    unfold Placed at placed
    rw [point] at placed
    obtain ⟨other, otherReview, isOther, otherJudged, agrees⟩ := placed
    obtain rfl : result = other := some.inj (isResult.symm.trans isOther)
    obtain rfl : review = otherReview := some.inj (judged.symm.trans otherJudged)
    exact Current.save numbered limited ⟨agrees.symm.trans invalid, result, isResult, judged⟩

theorem openRequest_current (current : Current state) (build : String) (cycles : Int) :
    Current (openRequest request state build cycles) := by
  unfold openRequest
  split
  · next retained isRow =>
    split
    · exact current.resume isRow trivial
    · exact current.refuse _
  · next isRow =>
    simp only
    generalize (if cycles = 0 then defaultMaxReviewCycles else cycles) = limit
    split
    · exact current.refuse _
    · next enough => exact Current.save (Nat.le_refl 1) (by simpa using enough) trivial

theorem stepPlanning_cases (taken : stepPlanning checks request state action = some next) :
    (state.replay = none ∧ ∃ build cycles, next = openRequest request state build cycles) ∨
      ∃ replay,
        state.replay = some replay ∧ stepReplay checks request state replay action = some next := by
  unfold stepPlanning at taken
  split at taken
  · next idle => exact .inl ⟨idle, _, _, (some.inj taken).symm⟩
  · cases taken
  · next running => exact .inr ⟨_, running, taken⟩

theorem stepPlanning_current (current : Current state)
    (taken : stepPlanning checks request state action = some next) : Current next := by
  rcases stepPlanning_cases taken with ⟨_, build, cycles, rfl⟩ | ⟨replay, running, stepped⟩
  · exact openRequest_current current build cycles
  · obtain ⟨numbered, limited⟩ := current.settled _ (current.saved replay running)
    exact current.transition running (stepReplay_transition numbered limited stepped)

def unplanned : Planning := {}

theorem unplanned_current : Current unplanned :=
  ⟨by simp [unplanned], by simp [unplanned], by simp [unplanned]⟩

theorem reachable_current
    (reachable : Reachable (stepPlanning checks request) guard unplanned state) : Current state :=
  reachable.invariant unplanned_current fun current _ taken => stepPlanning_current current taken

/-- An invariant of the transitions and of opening the request holds along
every run that meets the guard. -/
theorem planning_invariant {property : Planning → Prop} (holds : property unplanned)
    (opened : ∀ {state : Planning}, Current state → property state → state.replay = none →
      ∀ build cycles, property (openRequest request state build cycles))
    (kept : ∀ {state next : Planning} {replay : Replay} {action : PlanAction}, Current state →
      property state → guard state action → state.replay = some replay →
      Transition checks state replay action next → property next)
    (reachable : Reachable (stepPlanning checks request) guard unplanned state) :
    property state := by
  refine reachable.invariant_of reachable_current holds ?_
  intro state action next current known meets taken
  rcases stepPlanning_cases taken with ⟨idle, build, cycles, rfl⟩ | ⟨replay, running, stepped⟩
  · exact opened current known idle build cycles
  · obtain ⟨numbered, limited⟩ := current.settled _ (current.saved replay running)
    exact kept current known meets running (stepReplay_transition numbered limited stepped)

end

def acceptingChecks : PlanChecks where
  workDir := "/work"
  validate := fun _ => none
  planHash := fun plan => toString plan.goals.length
  reviewHash := fun hash review => hash ++ review.assessment
  deterministicPlanIssues := fun _ => []
  verificationPlanIssues := fun _ => []
  checkRepairInstruction := fun _ => ""
  planStaleBaseRefError := fun _ => none
  validatePlanIdentities := fun _ _ => none

def importRequest : PlanRequest where
  requestID := "request"
  inputDigest := "digest"
  autoImport := true

def emptyLedger : Ledger := .empty

def billingPlan : ProjectPlan where
  goals := [{ id := "G-001", title := "Billing" }]

end OpenExec.Manager
