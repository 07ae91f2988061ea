import Mathlib.Order.Basic

/-!
# Loops that run until their step finds nothing to do

`run` repeats a partial step under a bound on the number of rounds.
-/

namespace OpenExec.BoundedLoop

variable {σ : Type*}

def run (step : σ → Option σ) : Nat → σ → σ
  | 0, state => state
  | rounds + 1, state =>
    match step state with
    | none => state
    | some next => run step rounds next

theorem run_spec {step : σ → Option σ} (invariant : σ → Prop) (size : σ → Nat)
    (round : ∀ {state next : σ}, invariant state → step state = some next →
      invariant next ∧ size next < size state)
    {rounds : Nat} {start : σ} (initially : invariant start) (enough : size start < rounds) :
    invariant (run step rounds start) ∧ step (run step rounds start) = none := by
  induction rounds generalizing start with
  | zero => omega
  | succ rounds ih =>
    cases taken : step start with
    | none =>
      rw [run, taken]
      exact ⟨initially, taken⟩
    | some next =>
      obtain ⟨kept, smaller⟩ := round initially taken
      rw [run, taken]
      exact ih kept (by omega)

end OpenExec.BoundedLoop
