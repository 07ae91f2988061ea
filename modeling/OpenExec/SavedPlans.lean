import OpenExec.InfraApprovals

/-!
# Saved plans

A saved plan is inspected, waits for its approval and is applied by three steps of its
own, and every one of them names the file by the same fixed name.
-/

namespace OpenExec.Infra

open GuardedRuns Function

/-- A saved plan, as the directory that Terraform works in and the name in it. -/
structure PlanFile where
  workingDir : String
  name : String
  deriving DecidableEq

def Registry.planFile (registry : Registry) (env : String) : Except Refusal PlanFile :=
  (registry.terraform env).map fun (config, _) => ⟨config.workingDir, terraformPlanFile env⟩

section

variable {Plan : Type}

/-- Where a server stands with `terraform_apply`: between calls, waiting for an approval, or
about to run the command.  It keeps the content of the file at the time of the inspection. -/
inductive ApplyStage (Plan : Type)
  | idle
  | awaiting (file : PlanFile) (inspected : Plan) (invocation : Invocation)
  | ready (file : PlanFile) (inspected : Plan) (invocation : Invocation)

structure Application (Plan : Type) where
  inspected : Plan
  applied : Plan
  invocation : Invocation

structure Workspace (Plan : Type) where
  files : PlanFile → Option Plan
  servers : Nat → ApplyStage Plan
  -- Only a record.
  applications : List (Application Plan)

inductive PlanAction (Plan : Type)
  | savePlan (server : Nat) (env : String) (vars : List (String × String)) (plan : Plan)
  | inspect (server : Nat) (env : String)
  | settle (server : Nat) (approved : Bool)
  | apply (server : Nat) (accepted : Bool)

namespace Workspace

def initial (files : PlanFile → Option Plan) : Workspace Plan where
  files := files
  servers := fun _ => .idle
  applications := []

variable (workspace : Workspace Plan)

def enter (server : Nat) (stage : ApplyStage Plan) : Workspace Plan :=
  { workspace with servers := Function.update workspace.servers server stage }

/-- `terraform_plan` with `save` writes the file, unless the call is refused. -/
def savePlan (registry : Registry) (env : String)
    (vars : List (String × String)) (plan : Plan) : Workspace Plan :=
  match registry.resolveTerraformPlan env vars true, registry.planFile env with
  | .ok _, .ok file => { workspace with files := Function.update workspace.files file (some plan) }
  | _, _ => workspace

/-- `terraform_apply` up to the approval.  `shown` is what the JSON of a plan decodes to. -/
def inspect (shown : Plan → Option (List ResourceChange)) (workspace : Workspace Plan)
    (config : Server) (server : Nat) (env : String) : Workspace Plan :=
  match config.registry.planFile env with
  | .error _ => workspace
  | .ok file =>
    match workspace.files file with
    | none => workspace
    | some plan =>
      match config.registry.prepare (some (shown plan)) (.terraformApply env) with
      | .error _ => workspace
      | .ok invocation =>
        if invocation.needsApproval = false then
          workspace.enter server (.ready file plan invocation)
        else if config.gate = none then workspace
        else workspace.enter server (.awaiting file plan invocation)

/-- `terraform apply` reads the file that is there now.  It may refuse the plan. -/
def apply (server : Nat) (file : PlanFile) (inspected : Plan)
    (invocation : Invocation) (accepted : Bool) : Workspace Plan :=
  let settled := workspace.enter server .idle
  match workspace.files file, accepted with
  | some plan, true =>
    { settled with applications := ⟨inspected, plan, invocation⟩ :: workspace.applications }
  | _, _ => settled

def step (shown : Plan → Option (List ResourceChange)) (servers : Nat → Server)
    (workspace : Workspace Plan) : PlanAction Plan → Option (Workspace Plan)
  | .savePlan server env vars plan =>
    match workspace.servers server with
    | .idle => some (workspace.savePlan (servers server).registry env vars plan)
    | _ => none
  | .inspect server env =>
    match workspace.servers server with
    | .idle => some (workspace.inspect shown (servers server) server env)
    | _ => none
  | .settle server approved =>
    match workspace.servers server with
    | .awaiting file inspected invocation =>
      some (workspace.enter server (if approved then .ready file inspected invocation else .idle))
    | _ => none
  | .apply server accepted =>
    match workspace.servers server with
    | .ready file inspected invocation =>
      some (workspace.apply server file inspected invocation accepted)
    | _ => none

end Workspace

/-- The saved plan that a server has inspected and not yet applied. -/
def ApplyStage.file : ApplyStage Plan → Option PlanFile
  | .idle => none
  | .awaiting file _ _ => some file
  | .ready file _ _ => some file

/-- A plan is saved only while no call has inspected the file and not yet applied it. -/
def Undisturbed (servers : Nat → Server) (workspace : Workspace Plan) : PlanAction Plan → Prop
  | .savePlan server env _ _ =>
    ∀ file, (servers server).registry.planFile env = .ok file →
      ∀ other, (workspace.servers other).file ≠ some file
  | _ => True

variable (shown : Plan → Option (List ResourceChange))

def Workspace.Current (workspace : Workspace Plan) (stage : ApplyStage Plan) : Prop :=
  ∀ file inspected invocation,
    stage = .awaiting file inspected invocation ∨ stage = .ready file inspected invocation →
      workspace.files file = some inspected ∧
        destructiveChanges (shown inspected) = some invocation.destructive

def Application.Faithful (application : Application Plan) : Prop :=
  application.applied = application.inspected ∧
    destructiveChanges (shown application.applied) = some application.invocation.destructive

structure Workspace.Sound (shown : Plan → Option (List ResourceChange))
    (workspace : Workspace Plan) : Prop where
  current : ∀ server, workspace.Current shown (workspace.servers server)
  faithful : ∀ application ∈ workspace.applications, application.Faithful shown

namespace Workspace

variable {shown : Plan → Option (List ResourceChange)} {workspace : Workspace Plan}

theorem current_idle : workspace.Current shown .idle := by
  rintro file inspected invocation (isStage | isStage)
  · cases isStage
  · cases isStage

section

variable (sound : workspace.Sound shown)
include sound

theorem Sound.enter {server : Nat} {stage : ApplyStage Plan}
    (current : workspace.Current shown stage) : (workspace.enter server stage).Sound shown where
  current := by
    intro other
    by_cases same : other = server
    · subst same
      simp only [Workspace.enter, update_self]
      exact current
    · simp only [Workspace.enter, update_of_ne same]
      exact sound.current other
  faithful := sound.faithful

theorem Sound.savePlan {registry : Registry} {env : String}
    {vars : List (String × String)} {plan : Plan}
    (undisturbed : ∀ file, registry.planFile env = .ok file →
      ∀ other, (workspace.servers other).file ≠ some file) :
    (workspace.savePlan registry env vars plan).Sound shown := by
  unfold Workspace.savePlan
  split
  · next command file _ isFile =>
    refine ⟨?_, sound.faithful⟩
    intro server other inspected invocation isStage
    have different : other ≠ file := by
      rintro rfl
      refine undisturbed other isFile server ?_
      rcases isStage with awaits | ready
      · rw [awaits, ApplyStage.file]
      · rw [ready, ApplyStage.file]
    simp only [update_of_ne different]
    exact sound.current server other inspected invocation isStage
  · exact sound

theorem Sound.inspect (config : Server) (server : Nat)
    (env : String) : (workspace.inspect shown config server env).Sound shown := by
  unfold Workspace.inspect
  split
  · exact sound
  split
  · exact sound
  next file _ plan isPlan =>
  split
  · exact sound
  next invocation prepares =>
  obtain ⟨changes, command, isShown, _, rfl⟩ := prepare_apply_ok prepares
  have found : destructiveChanges (shown plan) =
      some (changes.flatMap ResourceChange.destructive) := by
    rw [Option.some.inj isShown, destructiveChanges, Option.map_some]
  split
  · refine sound.enter ?_
    rintro _ _ _ (isStage | isStage)
    · cases isStage
    · obtain ⟨rfl, rfl, rfl⟩ := ApplyStage.ready.inj isStage
      exact ⟨isPlan, found⟩
  split
  · exact sound
  · refine sound.enter ?_
    rintro _ _ _ (isStage | isStage)
    · obtain ⟨rfl, rfl, rfl⟩ := ApplyStage.awaiting.inj isStage
      exact ⟨isPlan, found⟩
    · cases isStage

variable {invocation : Invocation} {inspected : Plan} {file : PlanFile} {server : Nat}

theorem Sound.settle (approved : Bool)
    (awaits : workspace.servers server = .awaiting file inspected invocation) :
    (workspace.enter server
      (if approved then .ready file inspected invocation else .idle)).Sound shown := by
  refine sound.enter ?_
  cases approved with
  | false => exact current_idle
  | true =>
    rintro _ _ _ (isStage | isStage)
    · cases isStage
    · obtain ⟨rfl, rfl, rfl⟩ := ApplyStage.ready.inj isStage
      exact sound.current server _ _ _ (.inl awaits)

theorem Sound.apply
    (accepted : Bool) (ready : workspace.servers server = .ready file inspected invocation) :
    (workspace.apply server file inspected invocation accepted).Sound shown := by
  have settled := @Sound.enter _ _ _ sound server .idle current_idle
  obtain ⟨unchanged, found⟩ := sound.current server file inspected invocation (.inr ready)
  unfold Workspace.apply
  rw [unchanged]
  cases accepted with
  | false => exact settled
  | true =>
    refine ⟨settled.current, ?_⟩
    intro application isApplication
    rcases List.mem_cons.mp isApplication with rfl | earlier
    · exact ⟨rfl, found⟩
    · exact sound.faithful application earlier

theorem Sound.step {servers : Nat → Server} {action : PlanAction Plan} {next : Workspace Plan}
    (undisturbed : Undisturbed servers workspace action)
    (taken : workspace.step shown servers action = some next) : next.Sound shown := by
  cases action with
  | savePlan server env vars plan =>
    simp only [Workspace.step] at taken
    split at taken
    · cases taken
      exact sound.savePlan undisturbed
    · cases taken
  | inspect server env =>
    simp only [Workspace.step] at taken
    split at taken
    · cases taken
      exact sound.inspect (servers server) server env
    · cases taken
  | settle server approved =>
    simp only [Workspace.step] at taken
    split at taken
    · next file inspected invocation awaits =>
      cases taken
      exact sound.settle approved awaits
    · cases taken
  | apply server accepted =>
    simp only [Workspace.step] at taken
    split at taken
    · next file inspected invocation ready =>
      cases taken
      exact sound.apply accepted ready
    · cases taken

end

theorem sound_initial (files : PlanFile → Option Plan) : (initial files).Sound shown where
  current := fun _ => current_idle
  faithful := by simp [initial]

end Workspace

/-- If no plan is saved between the inspection and the application of the same file, every
plan that is applied is the one that was inspected. -/
theorem applied_plan_is_inspected (shown : Plan → Option (List ResourceChange))
    (servers : Nat → Server) (files : PlanFile → Option Plan) (workspace : Workspace Plan)
    (reached : Reachable (Workspace.step shown servers) (Undisturbed servers)
      (Workspace.initial files) workspace) :
    ∀ application ∈ workspace.applications, application.Faithful shown := by
  have sound : workspace.Sound shown := by
    refine reached.invariant (Workspace.sound_initial files) ?_
    intro before action after sound undisturbed taken
    exact sound.step undisturbed taken
  exact sound.faithful

end

def stagingServer : Server where
  registry := ⟨[("staging", { riskProfile := .low, terraform := some ⟨"/srv/infra", []⟩ })]⟩
  gate := none

def growing : List ResourceChange := [⟨"aws_instance.web", ["create"]⟩]

def destroying : List ResourceChange := [⟨"aws_db_instance.main", ["delete"]⟩]

def growingCall : Invocation where
  toolName := "terraform_apply"
  command :=
    ⟨"terraform", ["-chdir=/srv/infra", "apply", "-input=false", "-no-color",
      "-lock-timeout=30s", "openexec-staging.tfplan"], true, "staging", .low⟩
  destructive := []

/-- A plan is saved, inspected and applied. -/
theorem applied_plan_is_inspected_staging : ∃ workspace : Workspace (List ResourceChange),
    workspace.applications = [⟨growing, growing, growingCall⟩] ∧
      ∀ application ∈ workspace.applications, application.Faithful some := by
  have started := reachable_start (Workspace.step some fun _ => stagingServer)
    (Undisturbed fun _ => stagingServer) (Workspace.initial fun _ => none)
  have saved := started.next (.savePlan 0 "staging" [] growing)
    (fun _ _ _ isStage => absurd isStage (by simp [Workspace.initial, ApplyStage.file])) rfl
  have inspected := saved.next (.inspect 0 "staging") trivial rfl
  have applied := inspected.next (.apply 0 true) trivial rfl
  have faithful := applied_plan_is_inspected some (fun _ => stagingServer) (fun _ => none) _ applied
  exact ⟨_, rfl, faithful⟩

/-- In an environment of low risk a plan that deletes the database is applied without an
approval, since the plan that was inspected deletes nothing. -/
theorem applied_plan_is_not_inspected : ∃ workspace : Workspace (List ResourceChange),
    Reachable (Workspace.step some fun _ => stagingServer) anyStep
      (Workspace.initial fun _ => none) workspace ∧
    workspace.applications = [⟨growing, destroying, growingCall⟩] ∧
    growingCall.needsApproval = false ∧
    destructiveChanges (some destroying) = some ["[delete] aws_db_instance.main"] := by
  have started := reachable_start (Workspace.step some fun _ => stagingServer) anyStep
    (Workspace.initial fun _ => none)
  have saved := started.next (.savePlan 0 "staging" [] growing) trivial rfl
  have inspected := saved.next (.inspect 0 "staging") trivial rfl
  have replaced := inspected.next (.savePlan 1 "staging" [] destroying) trivial rfl
  have applied := replaced.next (.apply 0 true) trivial rfl
  exact ⟨_, applied, rfl, rfl, rfl⟩

/-- No step answers a request for an approval. -/
def Unanswered (_ : Workspace Plan) : PlanAction Plan → Prop
  | .settle _ _ => False
  | _ => True

def gatedServer : Server :=
  { stagingServer with gate := saltServer.gate }

/-- With a gate that asks for every tool of this kind, the database is deleted all the same,
and no request is answered in the whole run. -/
theorem destroying_apply_unanswered :
    (∃ gate, gatedServer.gate = some gate ∧ gate.Pinned) ∧
    ∃ workspace : Workspace (List ResourceChange),
      Reachable (Workspace.step some fun _ => gatedServer) Unanswered
        (Workspace.initial fun _ => none) workspace ∧
      workspace.applications = [⟨growing, destroying, growingCall⟩] ∧
      destructiveChanges (some destroying) = some ["[delete] aws_db_instance.main"] := by
  have started := reachable_start (Workspace.step some fun _ => gatedServer) Unanswered
    (Workspace.initial fun _ => none)
  have saved := started.next (.savePlan 0 "staging" [] growing) trivial rfl
  have inspected := saved.next (.inspect 0 "staging") trivial rfl
  have replaced := inspected.next (.savePlan 1 "staging" [] destroying) trivial rfl
  have applied := replaced.next (.apply 0 true) trivial rfl
  exact ⟨⟨_, rfl, saltServer_pinned rfl⟩, _, applied, rfl, rfl⟩

end OpenExec.Infra
