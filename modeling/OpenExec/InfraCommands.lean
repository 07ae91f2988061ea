import OpenExec.ApprovalPolicies
import OpenExec.PathValidation

/-!
# Infrastructure commands

The tools for infrastructure run commands that an operator has listed.
-/

namespace OpenExec.Infra

inductive RiskProfile
  | low
  | high
  deriving DecidableEq

structure Command where
  binary : String
  args : List String
  applyClass : Bool
  environment : String
  riskProfile : RiskProfile

structure AnsibleConfig where
  playbookDir : String
  inventory : String
  playbooks : List String

structure SaltConfig where
  targets : List String
  states : List String

/-- The patterns of the hosts are kept as the test that `path.Match` makes of them. -/
structure SSHConfig where
  allowsHost : String → Bool
  queries : List (String × List String)

structure TerraformConfig where
  workingDir : String
  allowedVariables : List String

structure EnvConfig where
  riskProfile : RiskProfile
  ansible : Option AnsibleConfig := none
  salt : Option SaltConfig := none
  ssh : Option SSHConfig := none
  terraform : Option TerraformConfig := none

structure Registry where
  environments : List (String × EnvConfig)

inductive Refusal
  | unknownEnvironment (env : String)
  | engineNotAllowed (env engine : String)
  | notListed (what value env : String)
  | malformed (what value : String)
  | notInspected (env : String)
  | notVerified (env : String)
  | approvalMissing (toolName : String) (destructive : List String)
  | approvalRequired
  | approvalDenied (reason : String)

namespace Registry

variable (registry : Registry)

def env (name : String) : Except Refusal EnvConfig :=
  match registry.environments.lookup name with
  | none => .error (.unknownEnvironment name)
  | some config => .ok config

def limitChar (c : Char) : Bool :=
  c.isAlphanum || c ∈ ['_', '.', ':', '*', ',', '!', '&', '-']

def matchesHost (host : String) : Bool :=
  match host.toList with
  | [] => false
  | c :: rest => c.isAlphanum && rest.all fun c => c.isAlphanum || c ∈ ['.', '_', '-']

def matchesVarValue (value : String) : Bool :=
  value.toList.all fun c => decide (32 ≤ c.toNat ∧ c.toNat ≠ 127)

def joinName (dir name : String) : String :=
  String.ofList (PathValidation.clean (dir.toList ++ '/' :: name.toList)).toString

def resolveAnsiblePlaybook (env playbook limit : String) (check : Bool) :
    Except Refusal Command := do
  let config ← registry.env env
  match config.ansible with
  | none => .error (.engineNotAllowed env "ansible")
  | some ansible =>
    if playbook ∉ ansible.playbooks then .error (.notListed "playbook" playbook env)
    else if limit ≠ "" ∧ limit.toList.all limitChar = false then
      .error (.malformed "limit" limit)
    else
      .ok
        { binary := "ansible-playbook"
          args :=
            ["-i", ansible.inventory, joinName ansible.playbookDir playbook] ++
              (if limit = "" then [] else ["--limit", limit]) ++
              if check then ["--check"] else []
          applyClass := !check
          environment := env
          riskProfile := config.riskProfile }

def resolveSaltState (env state target : String) (test : Bool) : Except Refusal Command := do
  let config ← registry.env env
  match config.salt with
  | none => .error (.engineNotAllowed env "salt")
  | some salt =>
    if state ∉ salt.states then .error (.notListed "salt state" state env)
    else if target ∉ salt.targets then .error (.notListed "salt target" target env)
    else
      .ok
        { binary := "salt"
          args := [target, "state.apply", state] ++ if test then ["test=True"] else []
          applyClass := !test
          environment := env
          riskProfile := config.riskProfile }

def resolveSSHQuery (env host query : String) : Except Refusal Command := do
  let config ← registry.env env
  match config.ssh with
  | none => .error (.engineNotAllowed env "ssh")
  | some ssh =>
    if matchesHost host = false then .error (.malformed "host" host)
    else if ssh.allowsHost host = false then .error (.notListed "host" host env)
    else
      match ssh.queries.lookup query with
      | none => .error (.notListed "ssh query" query env)
      | some argv =>
        .ok
          { binary := "ssh"
            args := ["-o", "BatchMode=yes", "-o", "StrictHostKeyChecking=accept-new", host] ++ argv
            applyClass := false
            environment := env
            riskProfile := config.riskProfile }

variable (env : String)

/-- The name of the saved plan is fixed by the environment. -/
def terraformPlanFile : String := "openexec-" ++ env ++ ".tfplan"

def terraformVars (env : String) (allowed : List String) :
    List (String × String) → Except Refusal (List String)
  | [] => .ok []
  | (name, value) :: rest =>
    if name ∉ allowed then .error (.notListed "terraform variable" name env)
    else if matchesVarValue value = false then .error (.malformed "terraform variable" name)
    else (terraformVars env allowed rest).map fun args => ("-var=" ++ name ++ "=" ++ value) :: args

def terraform (env : String) : Except Refusal (TerraformConfig × RiskProfile) := do
  let config ← registry.env env
  match config.terraform with
  | none => .error (.engineNotAllowed env "terraform")
  | some terraform => .ok (terraform, config.riskProfile)

/-- The variables come sorted by name. -/
def resolveTerraformPlan (vars : List (String × String)) (save : Bool) :
    Except Refusal Command := do
  let (config, riskProfile) ← registry.terraform env
  let vars ← terraformVars env config.allowedVariables vars
  .ok
    { binary := "terraform"
      args :=
        ["-chdir=" ++ config.workingDir, "plan", "-input=false", "-no-color",
          "-lock-timeout=30s"] ++ vars ++
        if save then ["-out=" ++ terraformPlanFile env] else []
      applyClass := false
      environment := env
      riskProfile := riskProfile }

def resolveTerraformShowPlan : Except Refusal Command := do
  let (config, riskProfile) ← registry.terraform env
  .ok
    { binary := "terraform"
      args := ["-chdir=" ++ config.workingDir, "show", "-json", terraformPlanFile env]
      applyClass := false
      environment := env
      riskProfile := riskProfile }

def resolveTerraformApply : Except Refusal Command := do
  let (config, riskProfile) ← registry.terraform env
  .ok
    { binary := "terraform"
      args :=
        ["-chdir=" ++ config.workingDir, "apply", "-input=false", "-no-color",
          "-lock-timeout=30s", terraformPlanFile env]
      applyClass := true
      environment := env
      riskProfile := riskProfile }

end Registry

structure ResourceChange where
  address : String
  actions : List String

/-- One line for each deletion; a deletion among several actions is a replacement. -/
def ResourceChange.destructive (change : ResourceChange) : List String :=
  (change.actions.filter (· = "delete")).map fun _ =>
    "[" ++ (if change.actions.length > 1 then "replace" else "delete") ++ "] " ++ change.address

/-- What the plan's JSON decodes to, if it does. -/
def destructiveChanges (plan : Option (List ResourceChange)) : Option (List String) :=
  plan.map fun changes => changes.flatMap ResourceChange.destructive

inductive ToolCall
  | ansibleRunPlaybook (env playbook limit : String) (check : Bool)
  | saltApplyState (env state target : String) (test : Bool)
  | sshRunQuery (env host query : String)
  | terraformPlan (env : String) (vars : List (String × String)) (save : Bool)
  | terraformApply (env : String)

def ToolCall.name : ToolCall → String
  | .ansibleRunPlaybook .. => "ansible_run_playbook"
  | .saltApplyState .. => "salt_apply_state"
  | .sshRunQuery .. => "ssh_run_query"
  | .terraformPlan .. => "terraform_plan"
  | .terraformApply .. => "terraform_apply"

def applyTools : List String := ["ansible_run_playbook", "salt_apply_state", "terraform_apply"]

/-- A command that is about to be run, with what the inspection of its plan found. -/
structure Invocation where
  toolName : String
  command : Command
  destructive : List String

/-- The output of the inspection of a saved plan: none if the command failed. -/
abbrev Inspection := Option (Option (List ResourceChange))

/-- The handlers up to the common way of running a command. -/
def Registry.prepare (registry : Registry) (inspection : Inspection) (call : ToolCall) :
    Except Refusal Invocation :=
  let plain (command : Command) : Invocation := ⟨call.name, command, []⟩
  match call with
  | .ansibleRunPlaybook env playbook limit check =>
    (registry.resolveAnsiblePlaybook env playbook limit check).map plain
  | .saltApplyState env state target test =>
    (registry.resolveSaltState env state target test).map plain
  | .sshRunQuery env host query => (registry.resolveSSHQuery env host query).map plain
  | .terraformPlan env vars save => (registry.resolveTerraformPlan env vars save).map plain
  | .terraformApply env => do
      let _ ← registry.resolveTerraformShowPlan env
      match inspection with
      | none => .error (.notInspected env)
      | some shown =>
        match destructiveChanges shown with
        | none => .error (.notVerified env)
        | some destructive =>
          let command ← registry.resolveTerraformApply env
          .ok ⟨call.name, command, destructive⟩

/-- An environment of low risk changes on its own, unless something is destroyed. -/
def Invocation.needsApproval (invocation : Invocation) : Bool :=
  invocation.command.applyClass &&
    (invocation.command.riskProfile != .low || !invocation.destructive.isEmpty)

theorem exists_of_map {α β : Type} {change : α → β} {value : Except Refusal α} {result : β}
    (maps : value.map change = .ok result) :
    ∃ input, value = .ok input ∧ change input = result := by
  cases value with
  | error refusal => simp [Except.map] at maps
  | ok input => exact ⟨input, rfl, Except.ok.inj maps⟩

theorem exists_of_bind {α β : Type} {value : Except Refusal α} {next : α → Except Refusal β}
    {result : β} (binds : value >>= next = .ok result) :
    ∃ input, value = .ok input ∧ next input = .ok result := by
  cases value with
  | error refusal => simp [bind, Except.bind] at binds
  | ok input => exact ⟨input, rfl, binds⟩

variable {registry : Registry} {env : String} {invocation : Invocation} {inspection : Inspection}
  {command : Command}

theorem applyClass_of_query {host query : String}
    (resolves : registry.resolveSSHQuery env host query = .ok command) :
    command.applyClass = false := by
  obtain ⟨config, _, resolves⟩ := exists_of_bind resolves
  iterate 4
    split at resolves
    · cases resolves
  · rw [← Except.ok.inj resolves]

theorem applyClass_of_plan {vars : List (String × String)} {save : Bool}
    (resolves : registry.resolveTerraformPlan env vars save = .ok command) :
    command.applyClass = false := by
  obtain ⟨⟨config, riskProfile⟩, _, resolves⟩ := exists_of_bind resolves
  obtain ⟨args, _, resolves⟩ := exists_of_bind resolves
  rw [← Except.ok.inj resolves]

theorem prepare_apply_ok
    (prepares : registry.prepare inspection (.terraformApply env) = .ok invocation) :
    ∃ changes command, inspection = some (some changes) ∧
      registry.resolveTerraformApply env = .ok command ∧
      invocation = ⟨"terraform_apply", command, changes.flatMap ResourceChange.destructive⟩ := by
  obtain ⟨_, _, prepares⟩ := exists_of_bind prepares
  cases inspection with
  | none => cases prepares
  | some shown =>
    cases shown with
    | none => simp [destructiveChanges] at prepares
    | some changes =>
      obtain ⟨command, resolves, isInvocation⟩ := exists_of_bind prepares
      exact ⟨changes, command, rfl, resolves, (Except.ok.inj isInvocation).symm⟩

theorem applyTool_of_prepare {call : ToolCall}
    (prepares : registry.prepare inspection call = .ok invocation)
    (applies : invocation.command.applyClass) : invocation.toolName ∈ applyTools := by
  cases call with
  | ansibleRunPlaybook env playbook limit check | saltApplyState env state target test =>
    obtain ⟨command, _, rfl⟩ := exists_of_map prepares
    simp [applyTools, ToolCall.name]
  | sshRunQuery env host query =>
    obtain ⟨command, resolves, rfl⟩ := exists_of_map prepares
    simp [applyClass_of_query resolves] at applies
  | terraformPlan env vars save =>
    obtain ⟨command, resolves, rfl⟩ := exists_of_map prepares
    simp [applyClass_of_plan resolves] at applies
  | terraformApply env =>
    obtain ⟨_, _, _, _, rfl⟩ := prepare_apply_ok prepares
    simp [applyTools]

end OpenExec.Infra
