import OpenExec.GuardedRuns

/-!
# Disabling an external connection

The calls on one connection write its status after long exchanges with the provider.
-/

namespace OpenExec.ExternalConnections

open GuardedRuns

inductive Status
  | pendingAuthorization | authorizing | healthy | disabled | error
  deriving DecidableEq

/-- A call under way: `StartOAuth` after it read a connection that was not disabled and
after it registered its flow, `CompleteOAuth` after it took a flow, `Probe` after its read,
and `Disable` after it wrote the status. -/
inductive Call
  | starting | registered | completing | probing | disabling
  deriving DecidableEq

/-- `flows` counts the registered flows, and `disabled` says that a `Disable` has returned. -/
structure Connection where
  status : Status := .pendingAuthorization
  calls : List Call := []
  flows : Nat := 0
  disabled : Bool := false

inductive Action
  | startOAuth | register | authorize | completeOAuth | probe | fail (call : Call)
  | finish (call : Call) | pruneFlows (left : Nat) | recordCatalog | disable | cancelFlows
  deriving DecidableEq

namespace Connection

variable {connection next : Connection} {action : Action}

def leave (connection : Connection) (call : Call) : Connection :=
  { connection with calls := connection.calls.erase call }

/-- `discover` and `authorizedConnection` answer `ErrDisabled` to a call that read a
disabled connection. -/
def enter (connection : Connection) (call : Call) : Connection :=
  if connection.status = .disabled then connection
  else { connection with calls := call :: connection.calls }

def step (connection : Connection) : Action → Option Connection
  | .startOAuth => some (connection.enter .starting)
  | .probe => some (connection.enter .probing)
  | .register =>
    if .starting ∈ connection.calls then
      some { connection with
        calls := .registered :: connection.calls.erase .starting, flows := connection.flows + 1 }
    else none
  | .authorize =>
    if .registered ∈ connection.calls then
      some { connection.leave .registered with status := .authorizing }
    else none
  | .completeOAuth =>
    if 0 < connection.flows then
      some
        { connection with calls := .completing :: connection.calls, flows := connection.flows - 1 }
    else none
  | .fail call =>
    if call ∈ connection.calls ∧ (call = .completing ∨ call = .probing) then
      some { connection.leave call with status := .error }
    else none
  | .finish call =>
    if call ∈ connection.calls ∧ call ≠ .disabling then some (connection.leave call) else none
  | .pruneFlows left =>
    if left ≤ connection.flows then some { connection with flows := left } else none
  | .recordCatalog =>
    some (if connection.status = .disabled then connection
      else { connection with status := .healthy })
  | .disable =>
    some { connection with status := .disabled, calls := .disabling :: connection.calls }
  | .cancelFlows =>
    if .disabling ∈ connection.calls then
      some { connection.leave .disabling with flows := 0, disabled := true }
    else none

/-- A `Disable` writes while no other call is under way, and no flow is taken before it
has cancelled them. -/
def DisablesAlone (connection : Connection) (action : Action) : Prop :=
  (action = .disable → ∀ call ∈ connection.calls, call = .disabling) ∧
    (action = .completeOAuth → .disabling ∉ connection.calls)

instance : Decidable (DisablesAlone connection action) :=
  inferInstanceAs (Decidable (_ ∧ _))

/-- After the status of a `Disable` is written no call is left that could write another. -/
structure Final (connection : Connection) : Prop where
  status : .disabling ∈ connection.calls ∨ connection.disabled → connection.status = .disabled
  alone : .disabling ∈ connection.calls ∨ connection.disabled →
    ∀ call ∈ connection.calls, call = .disabling
  flows : connection.disabled → connection.flows = 0

theorem Final.step (final : connection.Final) (meets : connection.DisablesAlone action)
    (taken : connection.step action = some next) : next.Final := by
  obtain ⟨status, alone, flows⟩ := final
  cases action with
  | disable =>
    cases taken
    refine ⟨fun _ => rfl, fun _ call member => ?_, flows⟩
    rcases List.mem_cons.mp member with rfl | earlier
    · rfl
    · exact meets.1 rfl call earlier
  | completeOAuth =>
    obtain ⟨some, ⟨⟩⟩ := Option.ite_none_right_eq_some.mp taken
    have enabled : ¬ (.disabling ∈ connection.calls ∨ connection.disabled) := by
      rintro (member | disabled)
      · exact meets.2 rfl member
      · exact absurd (flows disabled) (by omega)
    constructor <;> grind
  | _ =>
    simp only [Connection.step, enter, leave] at taken
    constructor <;> grind

theorem disable_is_final (reachable : Reachable step DisablesAlone {} connection)
    (returned : connection.disabled) : connection.status = .disabled := by
  have final : connection.Final :=
    reachable.invariant { status := by simp, alone := by simp, flows := by simp } Final.step
  exact final.status (.inr returned)

theorem disable_is_final_restarted : ∃ connection : Connection,
    connection.disabled ∧ connection.flows = 0 ∧ connection.status = .disabled := by
  have runs : run step DisablesAlone {} [.startOAuth, .register, .authorize, .disable, .cancelFlows,
    .startOAuth, .probe, .recordCatalog] = some _ := rfl
  exact ⟨_, rfl, rfl, disable_is_final (reachable_of_run runs) rfl⟩

/-- A flow registered after a `Disable`, a probe that fails after one, and a callback taken
before one write their status over it. -/
theorem status_after_disable :
    (run step anyStep {} [.startOAuth, .disable, .cancelFlows, .register, .authorize]).map
        (fun connection => (connection.disabled, connection.status)) = some (true, .authorizing) ∧
      (run step anyStep {} [.probe, .disable, .cancelFlows, .fail .probing]).map
        (fun connection => (connection.disabled, connection.status)) = some (true, .error) ∧
      (run step anyStep {} [.startOAuth, .register, .authorize, .completeOAuth, .disable,
        .cancelFlows,
        .fail .completing]).map (fun connection => (connection.disabled, connection.status)) =
          some (true, .error) :=
  ⟨rfl, rfl, rfl⟩

end Connection

end OpenExec.ExternalConnections
