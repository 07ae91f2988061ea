import Mathlib.Tactic.TypeStar

/-!
# Runs of a partial machine

A machine is a partial step function.
-/

namespace OpenExec.GuardedRuns

open Option List

variable {σ α : Type*} {step : σ → α → Option σ}

def run (step : σ → α → Option σ) (guard : σ → α → Prop)
    [∀ state action, Decidable (guard state action)] : σ → List α → Option σ
  | state, [] => some state
  | state, action :: rest =>
    if guard state action then (step state action).bind fun next => run step guard next rest
    else none

/-- The guard that every step meets. -/
def anyStep (_ : σ) (_ : α) : Prop := True

instance (state : σ) (action : α) : Decidable (anyStep state action) :=
  inferInstanceAs (Decidable True)

/-- The states of the runs whose steps all meet the guard. -/
inductive Reachable (step : σ → α → Option σ) (guard : σ → α → Prop) (start : σ) : σ → Prop
  | initial : Reachable step guard start start
  | after {state next : σ} {action : α} (earlier : Reachable step guard start state)
      (meets : guard state action) (taken : step state action = some next) :
      Reachable step guard start next

variable {guard : σ → α → Prop} {start final : σ} {action : α} {actions : List α}

/-- What holds at the start and is kept by every step that meets the guard
holds along every such run. -/
theorem Reachable.invariant {property : σ → Prop}
    (holds : property start) (kept : ∀ {state action next}, property state → guard state action →
      step state action = some next → property next)
    {state : σ} (reachable : Reachable step guard start state) : property state := by
  induction reachable with
  | initial => exact holds
  | after _ meets taken ih => exact kept ih meets taken

theorem Reachable.invariant_of {known property : σ → Prop}
    (knownHolds : ∀ {state}, Reachable step guard start state → known state)
    (holds : property start)
    (kept : ∀ {state action next}, known state → property state → guard state action →
      step state action = some next → property next)
    {state : σ} (reachable : Reachable step guard start state) : property state := by
  induction reachable with
  | initial => exact holds
  | after earlier meets taken ih => exact kept (knownHolds earlier) ih meets taken

theorem Reachable.trans {middle : σ} (first : Reachable step guard start middle)
    (second : Reachable step guard middle final) : Reachable step guard start final := by
  induction second with
  | initial => exact first
  | after _ meets taken ih => exact .after ih meets taken

theorem reachable_start (step : σ → α → Option σ) (guard : σ → α → Prop) (start : σ) :
    Reachable step guard start start :=
  .initial

/-- A run goes on with a given action. -/
theorem Reachable.next {state next : σ} (earlier : Reachable step guard start state) (action : α)
    (meets : guard state action) (taken : step state action = some next) :
    Reachable step guard start next :=
  .after earlier meets taken

variable [∀ state action, Decidable (guard state action)]

theorem run_cons_iff {state : σ} {rest : List α} :
    run step guard state (action :: rest) = some final ↔ guard state action ∧
      ∃ next, step state action = some next ∧ run step guard next rest = some final := by
  rw [run]
  split
  · next meets => simp [meets, bind_eq_some_iff]
  · next fails => simp [fails]

theorem reachable_of_run (runs : run step guard start actions = some final) :
    Reachable step guard start final := by
  suffices extended : ∀ {state : σ}, Reachable step guard start state →
      run step guard state actions = some final → Reachable step guard start final from
    extended .initial runs
  clear runs
  induction actions with
  | nil =>
    intro state earlier runs
    exact Option.some.inj runs ▸ earlier
  | cons action rest ih =>
    intro state earlier runs
    obtain ⟨meets, next, taken, runs⟩ := run_cons_iff.mp runs
    exact ih (.after earlier meets taken) runs

/-- A run that computes leads to a state with what follows from the property it ends with. -/
theorem exists_reached {conclusion : σ → Prop} (property : σ → Prop) [DecidablePred property]
    (actions : List α) (reaches : (run step guard start actions).any fun state => property state)
    (implies : ∀ {state}, Reachable step guard start state → property state → conclusion state) :
    ∃ state, Reachable step guard start state ∧ conclusion state := by
  obtain ⟨state, isState, holds⟩ := (any_eq_true _ _).mp reaches
  have reachable := reachable_of_run isState
  exact ⟨state, reachable, implies reachable (of_decide_eq_true holds)⟩

theorem exists_step_reached {property : σ → σ → Prop} [DecidableRel property] (actions : List α)
    (reaches : (run step guard start actions).any fun state =>
      (step state action).any fun next => property state next) :
    ∃ state next, Reachable step guard start state ∧ step state action = some next ∧
      property state next := by
  obtain ⟨state, isState, holds⟩ := (any_eq_true _ _).mp reaches
  obtain ⟨next, taken, holds⟩ := (any_eq_true _ _).mp holds
  exact ⟨state, next, reachable_of_run isState, taken, of_decide_eq_true holds⟩

variable (work : σ → Nat) (lowers : ∀ {state action next}, Reachable step guard start state →
  guard state action → step state action = some next → work next < work state)
include lowers

/-- Runs whose every step lowers a measure are no longer than the measure. -/
theorem length_le_of_run (runs : run step guard start actions = some final) :
    actions.length + work final ≤ work start := by
  suffices extended : ∀ {state : σ}, Reachable step guard start state →
      run step guard state actions = some final → actions.length + work final ≤ work state from
    extended .initial runs
  clear runs
  induction actions with
  | nil =>
    intro state _ runs
    cases runs
    simp
  | cons action rest ih =>
    intro state earlier runs
    obtain ⟨meets, next, taken, runs⟩ := run_cons_iff.mp runs
    have bound := ih (.after earlier meets taken) runs
    have lower := lowers earlier meets taken
    simp only [length_cons]
    omega

/-- A machine that goes on until it stops, and whose every step lowers a measure,
stops on every stream of actions that meet the guard. -/
theorem exists_stop_of_stream (stream : Nat → α)
    (meets : ∀ state round, guard state (stream round)) :
    ∃ rounds final, run step guard start ((List.range rounds).map stream) = some final ∧
      step final (stream rounds) = none := by
  suffices extended : ∀ (bound : Nat) {state : σ} (stream : Nat → α),
      (∀ state round, guard state (stream round)) → Reachable step guard start state →
      work state ≤ bound → ∃ rounds final,
        run step guard state ((List.range rounds).map stream) = some final ∧
          step final (stream rounds) = none from
    extended (work start) stream meets .initial (Nat.le_refl _)
  clear meets
  intro bound
  induction bound with
  | zero =>
    intro state stream meets earlier small
    refine ⟨0, state, rfl, ?_⟩
    cases taken : step state (stream 0) with
    | none => rfl
    | some next =>
      have lower := lowers earlier (meets state 0) taken
      omega
  | succ bound ih =>
    intro state stream meets earlier small
    cases taken : step state (stream 0) with
    | none => exact ⟨0, state, rfl, taken⟩
    | some next =>
      have lower := lowers earlier (meets state 0) taken
      obtain ⟨rounds, final, runs, stops⟩ := ih (fun round => stream (round + 1))
        (fun state round => meets state (round + 1)) (.after earlier (meets state 0) taken)
        (by omega)
      refine ⟨rounds + 1, final, ?_, stops⟩
      rw [range_succ_eq_map, map_cons, run, if_pos (meets state 0), taken]
      simpa [Function.comp_def] using runs

end OpenExec.GuardedRuns
