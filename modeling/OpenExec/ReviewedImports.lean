import OpenExec.ReviewedPlanTransitions

/-!
# Imported plans were reviewed or fixed after a review

A plan may be imported because the reviewer approved it, or because it is the fix of a
plan the reviewer rejected.
-/

namespace OpenExec.Manager

open Planner GuardedRuns Option List

def Judged (log : List PlanEvent) (plan : ProjectPlan) : Prop :=
  ∃ review, .reviewed plan review ∈ log ∧ review.approved = true

/-- The plan is the planner's fix of a plan the reviewer rejected, possibly
followed by check repairs. -/
inductive Fixed (log : List PlanEvent) : ProjectPlan → Prop
  | refined {base plan : ProjectPlan} {review : PlanReview} (given : .reviewed base review ∈ log)
      (rejected : review.approved = false) (answered : .refined base review plan ∈ log) :
      Fixed log plan
  | repaired {base plan : ProjectPlan} (earlier : Fixed log base)
      (answered : .repaired base plan ∈ log) : Fixed log plan

section

variable {log : List PlanEvent} {plan : ProjectPlan}

theorem Judged.append (judged : Judged log plan) (events : List PlanEvent) :
    Judged (log ++ events) plan := by
  obtain ⟨review, given, approved⟩ := judged
  exact ⟨review, mem_append_left _ given, approved⟩

theorem Fixed.append (isFixed : Fixed log plan) (events : List PlanEvent) :
    Fixed (log ++ events) plan := by
  induction isFixed with
  | refined given rejected answered =>
    exact .refined (mem_append_left _ given) rejected (mem_append_left _ answered)
  | repaired _ answered ih => exact .repaired ih (mem_append_left _ answered)

end

/-- What the log says about the plan a request holds. -/
structure Sound (log : List PlanEvent) (retained : RetainedPlanRequest) : Prop where
  fresh : retained.result = none → retained.refinementAttempts = 0
  unreviewed : ∀ {result}, retained.result = some result → result.review = none →
    1 ≤ retained.refinementAttempts → Fixed log result.plan
  approved : ∀ {result review}, retained.result = some result → result.review = some review →
    review.approved = true → Judged log result.plan ∨ Fixed log result.plan
  rejected : ∀ {result review}, retained.result = some result → result.review = some review →
    review.approved = false → .reviewed result.plan review ∈ log

structure Founded (state : Planning) : Prop where
  sound : ∀ retained, state.row = some retained → Sound state.log retained
  imported : ∀ plan, .imported plan ∈ state.log → Judged state.log plan ∨ Fixed state.log plan

def RegeneratesUncharged (state : Planning) (action : PlanAction) : Prop :=
  match state.replay, action with
  | some replay, .proceed =>
    replay.point = .opened → staleRefusal replay.build replay.retained.result = true →
      replay.retained.refinementAttempts = 0
  | _, _ => True

instance (state : Planning) (action : PlanAction) :
    Decidable (RegeneratesUncharged state action) := by
  unfold RegeneratesUncharged
  exact match state.replay, action with
    | some replay, .proceed =>
      inferInstanceAs (Decidable (replay.point = .opened →
        staleRefusal replay.build replay.retained.result = true →
          replay.retained.refinementAttempts = 0))
    | none, _ | some _, .start .. | some _, .generate .. | some _, .review .. | some _, .correct ..
    | some _, .refine .. | some _, .interrupt => .isTrue trivial

section

variable {log : List PlanEvent} {retained : RetainedPlanRequest} {result : PlanResult}

theorem Sound.append (sound : Sound log retained) (events : List PlanEvent) :
    Sound (log ++ events) retained where
  fresh := sound.fresh
  unreviewed := fun isResult unreviewed spent =>
    (sound.unreviewed isResult unreviewed spent).append events
  approved := fun isResult judged approved =>
    (sound.approved isResult judged approved).imp (fun judged => judged.append events)
      fun isFixed => isFixed.append events
  rejected := fun isResult judged rejected =>
    mem_append_left _ (sound.rejected isResult judged rejected)

theorem Sound.congr (sound : Sound log retained) {other : RetainedPlanRequest}
    (result : other.result = retained.result)
    (attempts : other.refinementAttempts = retained.refinementAttempts) : Sound log other where
  fresh := by
    rw [result, attempts]
    exact sound.fresh
  unreviewed := by
    rw [result, attempts]
    exact sound.unreviewed
  approved := by
    rw [result]
    exact sound.approved
  rejected := by
    rw [result]
    exact sound.rejected

theorem Sound.of_unreviewed (isResult : retained.result = some result)
    (unreviewed : result.review = none)
    (isFixed : 1 ≤ retained.refinementAttempts → Fixed log result.plan) : Sound log retained where
  fresh := by
    rw [isResult]
    simp
  unreviewed := by
    intro other isOther _ spent
    obtain rfl := mem_unique isResult isOther
    exact isFixed spent
  approved := by
    intro other review isOther judged
    obtain rfl := mem_unique isResult isOther
    simp [unreviewed] at judged
  rejected := by
    intro other review isOther judged
    obtain rfl := mem_unique isResult isOther
    simp [unreviewed] at judged

theorem Sound.of_judged {review : PlanReview} (isResult : retained.result = some result)
    (judged : result.review = some review)
    (approved : review.approved → Judged log result.plan ∨ Fixed log result.plan)
    (rejected : review.approved = false → .reviewed result.plan review ∈ log) :
    Sound log retained where
  fresh := by
    rw [isResult]
    simp
  unreviewed := by
    intro other isOther unreviewed
    obtain rfl := mem_unique isResult isOther
    simp [judged] at unreviewed
  approved := by
    intro other otherReview isOther otherJudged
    obtain rfl := mem_unique isResult isOther
    obtain rfl := mem_unique judged otherJudged
    exact approved
  rejected := by
    intro other otherReview isOther otherJudged
    obtain rfl := mem_unique isResult isOther
    obtain rfl := mem_unique judged otherJudged
    exact rejected

end

section

variable {checks : PlanChecks} {request : PlanRequest} {state next : Planning} {replay : Replay}
  {action : PlanAction}

section

variable (founded : Founded state)
include founded

theorem Founded.record {event : PlanEvent} (justified : ∀ plan, event = .imported plan →
      Judged state.log plan ∨ Fixed state.log plan) : Founded (state.record event) where
  sound := fun retained isRow => (founded.sound retained isRow).append _
  imported := by
    intro plan member
    have either : Judged state.log plan ∨ Fixed state.log plan := by
      rcases mem_append.mp member with earlier | last
      · exact founded.imported plan earlier
      · exact justified plan (mem_singleton.mp last).symm
    exact either.imp (fun judged => judged.append _) fun isFixed => isFixed.append _

theorem Founded.finish : Founded state.finish :=
  { founded with }

theorem Founded.refuse (refusal : Refusal) : Founded (state.refuse refusal) :=
  (founded.record (by simp)).finish

theorem Founded.resume (replay : Replay) : Founded (state.resume replay) :=
  { founded with }

theorem Founded.save (sound : Sound state.log replay.retained) :
    Founded (state.save replay) where
  sound := by
    intro retained isRow
    exact Option.some.inj isRow ▸ sound
  imported := founded.imported

end

theorem Founded.transition (current : Current state) (founded : Founded state)
    (meets : RegeneratesUncharged state action) (running : state.replay = some replay)
    (step : Transition checks state replay action next) : Founded next := by
  have sound := founded.sound _ (current.saved replay running)
  have placed := current.placed replay running
  cases step with
  | ends _ => exact founded.finish
  | refuses _ _ | conflicts _ _ _ => exact founded.refuse _
  | @imports result point isResult valid =>
    unfold Placed at placed
    rw [point] at placed
    obtain ⟨other, review, isOther, judged, agrees⟩ := placed
    obtain rfl := mem_unique isResult isOther
    refine (founded.record ?_).finish
    rintro plan same
    obtain rfl := PlanEvent.imported.inj same
    exact sound.approved isResult judged (agrees.symm.trans valid)
  | resets point proceeds stale =>
    subst proceeds
    simp only [RegeneratesUncharged, running] at meets
    exact founded.save ⟨fun _ => meets point stale, by simp, by simp, by simp⟩
  | opens _ | examines _ | asks _ _ _ | settles _ _ _ _ | confirms _ => exact founded.resume _
  | generates point =>
    unfold Placed at placed
    rw [point] at placed
    refine (founded.record (by simp)).save (Sound.of_unreviewed rfl rfl fun spent => ?_)
    have uncharged := sound.fresh placed
    simp only at spent
    omega
  | repairs _ _ _ _ | corrects _ | advances _ => exact founded.save (sound.congr rfl rfl)
  | @approves result _ isResult unreviewed spent =>
    have isFixed : Fixed state.log result.plan := sound.unreviewed isResult unreviewed spent
    refine founded.save (Sound.of_judged rfl rfl (fun _ => .inr isFixed) ?_)
    exact fun rejected => absurd rejected (by simp [importedAfterFix])
  | @reviews result review _ isResult =>
    have logged : .reviewed result.plan review ∈
        (state.record (.reviewed result.plan review)).log := by
      simp [Planning.record]
    refine (founded.record (by simp)).save (Sound.of_judged rfl rfl ?_ fun _ => logged)
    exact fun approved => .inl ⟨review, logged, approved⟩
  | @refines result review plan point isResult =>
    unfold Placed at placed
    rw [point] at placed
    obtain ⟨rejected, other, isOther, judged⟩ := placed
    obtain rfl := mem_unique isResult isOther
    refine (founded.record (by simp)).save (Sound.of_unreviewed rfl rfl fun _ => ?_)
    exact .refined (mem_append_left _ (sound.rejected isResult judged rejected)) rejected
      (mem_append_right _ mem_cons_self)
  | @fixes result review plan point isResult =>
    unfold Placed at placed
    rw [point] at placed
    obtain ⟨spent, other, isOther, unreviewed⟩ := placed
    obtain rfl := mem_unique isResult isOther
    refine (founded.record (by simp)).save (Sound.of_unreviewed rfl rfl fun _ => ?_)
    exact .repaired ((sound.unreviewed isResult unreviewed spent).append _)
      (mem_append_right _ mem_cons_self)
  | files _ _ => exact { founded with }
  | retries _ isResult judged _ =>
    exact founded.save (Sound.of_judged isResult judged (sound.approved isResult judged)
      (sound.rejected isResult judged))

theorem openRequest_founded (founded : Founded state) (build : String) (cycles : Int) :
    Founded (openRequest request state build cycles) := by
  unfold openRequest
  split
  · split
    · exact founded.resume _
    · exact founded.refuse _
  · simp only
    generalize (if cycles = 0 then defaultMaxReviewCycles else cycles) = limit
    split
    · exact founded.refuse _
    · exact founded.save ⟨fun _ => rfl, by simp, by simp, by simp⟩

/-- Every imported plan was approved by the reviewer or is the fix of a plan it
rejected, on every run that plans a stale refusal again only while no refinement
was charged. -/
theorem imported_judged_or_fixed (checks : PlanChecks) (request : PlanRequest) {state : Planning}
    (reachable : Reachable (stepPlanning checks request) RegeneratesUncharged unplanned state)
    {plan : ProjectPlan} (imported : .imported plan ∈ state.log) :
    Judged state.log plan ∨ Fixed state.log plan := by
  have founded : Founded state := by
    refine planning_invariant ⟨by simp [unplanned], by simp [unplanned]⟩ ?_ ?_ reachable
    · exact fun _ founded _ build cycles => openRequest_founded founded build cycles
    · exact fun current founded meets running step => founded.transition current meets running step
  exact founded.imported plan imported

end

def searchPlan : ProjectPlan where
  goals := [{ id := "G-001", title := "Search" }]

/-- Interrupted after the verdict and replayed under the same build. -/
def approvedRun : List PlanAction :=
  [.start "v1" 0, .proceed, .generate billingPlan emptyLedger, .proceed,
    .review { approved := true }, .interrupt, .start "v1" 0, .proceed, .proceed, .proceed,
    .proceed, .proceed]

theorem imported_judged_or_fixed_approvedRun :
    ∃ state,
      Reachable (stepPlanning acceptingChecks importRequest) RegeneratesUncharged unplanned state ∧
      .imported billingPlan ∈ state.log ∧
      (Judged state.log billingPlan ∨ Fixed state.log billingPlan) := by
  refine exists_reached (fun state => .imported billingPlan ∈ state.log) approvedRun
    (by decide +kernel) ?_
  intro state reachable logged
  exact ⟨logged, imported_judged_or_fixed acceptingChecks importRequest reachable logged⟩

/-- A plan is rejected, its refinement is interrupted, and another build plans
the request again. -/
def regeneratedRun : List PlanAction :=
  [.start "v1" 0, .proceed, .generate billingPlan emptyLedger, .proceed,
    .review { approved := false }, .proceed, .proceed, .proceed, .interrupt,
    .start "v2" 0, .proceed, .generate searchPlan emptyLedger, .proceed, .proceed, .proceed,
    .proceed]

/-- The regenerated plan is imported although the reviewer never saw it. -/
theorem imported_without_review :
    ∃ state, Reachable (stepPlanning acceptingChecks importRequest) anyStep unplanned state ∧
      .imported searchPlan ∈ state.log ∧ .generated searchPlan ∈ state.log ∧
      ¬ Judged state.log searchPlan ∧ ¬ Fixed state.log searchPlan := by
  have runs : (run (stepPlanning acceptingChecks importRequest) anyStep unplanned
      regeneratedRun).map Planning.log =
      some [.generated billingPlan, .reviewed billingPlan { approved := false },
        .generated searchPlan, .imported searchPlan] := by
    decide +kernel
  obtain ⟨state, isState, isLog⟩ := map_eq_some_iff.mp runs
  refine ⟨state, reachable_of_run isState, ?_, ?_, ?_, ?_⟩
  · rw [isLog]
    simp
  · rw [isLog]
    simp
  · rw [isLog]
    rintro ⟨review, given, _⟩
    simp [billingPlan, searchPlan] at given
  · rw [isLog]
    intro isFixed
    cases isFixed with
    | refined _ _ answered | repaired _ answered => simp at answered

end OpenExec.Manager
