import OpenExec.InfraCommands

/-!
# What a caller puts into an argument array

`Config.Validate` of `internal/infra/config.go`, and where the arguments of a
resolved command come from: the operator's lists and the code, or the caller.
-/

namespace OpenExec.Infra

open GoStrings List

def wordChar (c : Char) : Bool :=
  c.isAlphanum || c = '_'

/-- `^[a-z0-9][a-z0-9_-]{0,63}$` -/
def matchesName (name : String) : Bool :=
  match name.toList with
  | [] => false
  | c :: rest =>
    (c.isLower || c.isDigit) && rest.length ≤ 63 &&
      rest.all fun c => c.isLower || c.isDigit || c ∈ ['_', '-']

/-- `[a-zA-Z0-9_]+(\.[a-zA-Z0-9_]+)*$`, of which `inWord` says that a word has begun. -/
def matchesWords : Bool → List Char → Bool
  | inWord, [] => inWord
  | inWord, c :: rest =>
    if wordChar c then matchesWords true rest else inWord && c = '.' && matchesWords false rest

def matchesVarName (name : String) : Bool :=
  match name.toList with
  | [] => false
  | c :: rest => (c.isAlpha || c = '_') && rest.all wordChar

/-- What `Validate` accepts of an environment; playbooks are matched as hosts are. -/
structure EnvConfig.Valid (config : EnvConfig) : Prop where
  ansible : ∀ ansible ∈ config.ansible, ansible.playbookDir ≠ "" ∧ ansible.inventory ≠ "" ∧
    ∀ playbook ∈ ansible.playbooks, Registry.matchesHost playbook
  states : ∀ salt ∈ config.salt, ∀ state ∈ salt.states, matchesWords false state.toList
  targets : ∀ salt ∈ config.salt, ∀ target ∈ salt.targets,
    target ≠ "" ∧ hasPrefix target "-" = false
  queries : ∀ ssh ∈ config.ssh, ∀ query ∈ ssh.queries, matchesName query.1 ∧ query.2 ≠ []
  terraform : ∀ terraform ∈ config.terraform, terraform.workingDir ≠ "" ∧
    ∀ name ∈ terraform.allowedVariables, matchesVarName name

structure Registry.Valid (registry : Registry) : Prop where
  nonempty : registry.environments ≠ []
  environments : ∀ entry ∈ registry.environments, matchesName entry.1 ∧ entry.2.Valid

/-- The texts that the code and the configuration of an environment fix. -/
def EnvConfig.fixedTexts (env : String) (config : EnvConfig) : List String :=
  ["-i", "--limit", "--check", "state.apply", "test=True", "-o", "BatchMode=yes",
    "StrictHostKeyChecking=accept-new", "plan", "show", "apply", "-input=false", "-no-color",
    "-lock-timeout=30s", "-json", "-out=" ++ Registry.terraformPlanFile env,
    Registry.terraformPlanFile env] ++
  (config.ansible.toList.flatMap fun ansible =>
    ansible.inventory :: ansible.playbooks.map (Registry.joinName ansible.playbookDir)) ++
  (config.ssh.toList.flatMap fun ssh => ssh.queries.flatMap Prod.snd) ++
  config.terraform.toList.map fun terraform => "-chdir=" ++ terraform.workingDir

namespace ToolCall

def env : ToolCall → String
  | ansibleRunPlaybook env .. | saltApplyState env .. | sshRunQuery env .. | terraformPlan env ..
  | terraformApply env => env

/-- The caller's values that are arguments of their own. -/
def values : ToolCall → List String
  | ansibleRunPlaybook _ _ limit _ => if limit = "" then [] else [limit]
  | saltApplyState _ state target _ => [target, state]
  | sshRunQuery _ host _ => [host]
  | _ => []

def assignments : ToolCall → List String
  | terraformPlan _ vars _ => vars.map fun var => "-var=" ++ var.1 ++ "=" ++ var.2
  | _ => []

/-- The commands a call resolves to; an application is preceded by an inspection. -/
def commands (registry : Registry) : ToolCall → List (Except Refusal Command)
  | ansibleRunPlaybook env playbook limit check =>
    [registry.resolveAnsiblePlaybook env playbook limit check]
  | saltApplyState env state target test => [registry.resolveSaltState env state target test]
  | sshRunQuery env host query => [registry.resolveSSHQuery env host query]
  | terraformPlan env vars save => [registry.resolveTerraformPlan env vars save]
  | terraformApply env =>
    [registry.resolveTerraformShowPlan env, registry.resolveTerraformApply env]

/-- A limit does not begin like an option. -/
def PlainLimit : ToolCall → Prop
  | ansibleRunPlaybook _ _ limit _ => hasPrefix limit "-" = false
  | _ => True

end ToolCall

/-- Every argument is fixed, or as a whole a value of the caller or an assignment,
and no value of the caller begins like an option. -/
structure Confined (config : EnvConfig) (call : ToolCall) (args : List String) : Prop where
  origin : ∀ arg ∈ args,
    arg ∈ config.fixedTexts call.env ∨ arg ∈ call.values ∨ arg ∈ call.assignments
  plain : ∀ value ∈ call.values, hasPrefix value "-" = false

section

variable {registry : Registry} {name : String} {config : EnvConfig}

theorem lookup_of_env (found : registry.env name = .ok config) :
    registry.environments.lookup name = some config := by
  unfold Registry.env at found
  split at found
  · cases found
  · next isConfig => rw [isConfig, Except.ok.inj found]

theorem Registry.Valid.at (valid : registry.Valid)
    (found : registry.environments.lookup name = some config) : config.Valid := by
  obtain ⟨before, after, isSplit, _⟩ := lookup_eq_some_iff.mp found
  exact (valid.environments (name, config) (by simp [isSplit])).2

theorem lookup_of_terraform {terraform : TerraformConfig} {riskProfile : RiskProfile}
    (found : registry.terraform name = .ok (terraform, riskProfile)) : ∃ config,
    registry.environments.lookup name = some config ∧ config.terraform = some terraform := by
  obtain ⟨config, isConfig, found⟩ := exists_of_bind found
  split at found
  · cases found
  · next isTerraform =>
    cases found
    exact ⟨config, lookup_of_env isConfig, isTerraform⟩

theorem terraformVars_ok {allowed args : List String} {vars : List (String × String)}
    (resolves : Registry.terraformVars name allowed vars = .ok args) :
    args = vars.map fun var => "-var=" ++ var.1 ++ "=" ++ var.2 := by
  induction vars generalizing args with
  | nil => exact (Except.ok.inj resolves).symm
  | cons var vars ih =>
    simp only [Registry.terraformVars] at resolves
    iterate 2
      split at resolves
      · cases resolves
    obtain ⟨rest, isRest, rfl⟩ := exists_of_map resolves
    rw [ih isRest, map_cons]

theorem plain_of_head {text : String} (other : text.toList.head? ≠ some '-') :
    hasPrefix text "-" = false := by
  unfold hasPrefix
  cases chars : text.toList with
  | nil => rfl
  | cons c rest =>
    have different : ('-' == c) = false := by
      refine beq_false_of_ne ?_
      rintro rfl
      exact other (by rw [chars]; rfl)
    change (('-' == c) && _) = false
    rw [different, Bool.false_and]

theorem plain_of_matchesHost {host : String} (isHost : Registry.matchesHost host = true) :
    hasPrefix host "-" = false := by
  refine plain_of_head fun isHyphen => ?_
  obtain ⟨rest, chars⟩ := head?_eq_some_iff.mp isHyphen
  simp [Registry.matchesHost, chars] at isHost

theorem plain_of_matchesWords {state : String} (isState : matchesWords false state.toList = true) :
    hasPrefix state "-" = false := by
  refine plain_of_head fun isHyphen => ?_
  obtain ⟨rest, chars⟩ := head?_eq_some_iff.mp isHyphen
  simp [matchesWords, wordChar, chars] at isState

end

/-- With a valid configuration, the arguments of a resolved command are confined
exactly when a limit does not begin with a hyphen. -/
theorem resolved_confined_iff {registry : Registry} (valid : registry.Valid) {call : ToolCall}
    {command : Command} (resolves : .ok command ∈ call.commands registry) :
    ∃ config, registry.environments.lookup call.env = some config ∧
      (Confined config call command.args ↔ call.PlainLimit) := by
  cases call with
  | ansibleRunPlaybook env playbook limit check =>
    obtain ⟨config, found, resolves⟩ := exists_of_bind (mem_singleton.mp resolves).symm
    split at resolves
    · cases resolves
    next ansible isAnsible =>
    iterate 2
      split at resolves
      · cases resolves
    cases resolves
    refine ⟨config, lookup_of_env found, fun confined => ?_, fun plain => ⟨?_, ?_⟩⟩
    · by_cases empty : limit = ""
      · rw [empty]
        rfl
      · exact confined.plain limit (by simp [ToolCall.values, empty])
    · by_cases empty : limit = "" <;> cases check <;>
        simp [EnvConfig.fixedTexts, ToolCall.values, isAnsible, empty] <;> grind
    · by_cases empty : limit = ""
      · simp [ToolCall.values, empty]
      · simpa [ToolCall.values, ToolCall.PlainLimit, empty] using plain
  | saltApplyState env state target test =>
    obtain ⟨config, found, resolves⟩ := exists_of_bind (mem_singleton.mp resolves).symm
    have validConfig := valid.at (lookup_of_env found)
    split at resolves
    · cases resolves
    next salt isSalt =>
    split at resolves
    · cases resolves
    next isState =>
    split at resolves
    · cases resolves
    next isTarget =>
    cases resolves
    refine ⟨config, lookup_of_env found, fun _ => trivial, fun _ => ⟨?_, ?_⟩⟩
    · cases test <;> simp [EnvConfig.fixedTexts, ToolCall.values]
    · simp only [ToolCall.values, forall_mem_cons]
      exact ⟨(validConfig.targets salt isSalt target (not_not.mp isTarget)).2,
        plain_of_matchesWords (validConfig.states salt isSalt state (not_not.mp isState)), by simp⟩
  | sshRunQuery env host query =>
    obtain ⟨config, found, resolves⟩ := exists_of_bind (mem_singleton.mp resolves).symm
    split at resolves
    · cases resolves
    next ssh isSSH =>
    split at resolves
    · cases resolves
    next isHost =>
    iterate 2
      split at resolves
      · cases resolves
    next argv isQuery =>
    cases resolves
    obtain ⟨before, after, isSplit, _⟩ := lookup_eq_some_iff.mp isQuery
    refine ⟨config, lookup_of_env found, fun _ => trivial, fun _ => ⟨?_, ?_⟩⟩
    · simp +contextual [EnvConfig.fixedTexts, ToolCall.values, isSSH, isSplit]
    · simp only [ToolCall.values, forall_mem_singleton]
      exact plain_of_matchesHost (by simpa using isHost)
  | terraformPlan env vars save =>
    obtain ⟨_, found, resolves⟩ := exists_of_bind (mem_singleton.mp resolves).symm
    obtain ⟨args, isArgs, resolves⟩ := exists_of_bind resolves
    cases resolves
    obtain ⟨config, isConfig, isTerraform⟩ := lookup_of_terraform found
    refine ⟨config, isConfig, fun _ => trivial, fun _ => ⟨?_, by simp [ToolCall.values]⟩⟩
    rw [terraformVars_ok isArgs]
    cases save <;>
      simp +contextual [EnvConfig.fixedTexts, ToolCall.assignments, ToolCall.env,
        isTerraform, or_imp]
  | terraformApply env =>
    simp only [ToolCall.commands, mem_cons, not_mem_nil, or_false] at resolves
    rcases resolves with resolves | resolves
    all_goals
      obtain ⟨_, found, resolves⟩ := exists_of_bind resolves.symm
      cases resolves
      obtain ⟨config, isConfig, isTerraform⟩ := lookup_of_terraform found
      exact ⟨config, isConfig, fun _ => trivial, fun _ =>
        ⟨by simp [EnvConfig.fixedTexts, ToolCall.env, isTerraform], by simp [ToolCall.values]⟩⟩

def labConfig : EnvConfig where
  riskProfile := .low
  ansible := some { playbookDir := "ansible", inventory := "hosts", playbooks := ["site.yml"] }

def labRegistry : Registry := ⟨[("lab", labConfig)]⟩

def labCall (limit : String) : ToolCall := .ansibleRunPlaybook "lab" "site.yml" limit true

theorem labRegistry_valid : labRegistry.Valid := by
  refine ⟨by simp [labRegistry], ?_⟩
  simp only [labRegistry, forall_mem_singleton]
  refine ⟨by decide +kernel, ?_, by simp [labConfig], by simp [labConfig], by simp [labConfig],
    by simp [labConfig]⟩
  decide +kernel

theorem labCall_resolves {limit : String}
    (given : (labRegistry.resolveAnsiblePlaybook "lab" "site.yml" limit true).toOption.any
      fun command => limit ∈ command.args) :
    ∃ command, .ok command ∈ (labCall limit).commands labRegistry ∧ limit ∈ command.args := by
  cases resolved : labRegistry.resolveAnsiblePlaybook "lab" "site.yml" limit true with
  | error refusal => simp [resolved, Except.toOption] at given
  | ok command =>
    refine ⟨command, mem_singleton.mpr resolved.symm, ?_⟩
    simpa [resolved, Except.toOption] using given

theorem resolved_confined_iff_lab :
    ∃ command config, .ok command ∈ (labCall "web").commands labRegistry ∧
      labRegistry.environments.lookup "lab" = some config ∧
      (labCall "web").PlainLimit ∧ Confined config (labCall "web") command.args := by
  obtain ⟨command, resolves, _⟩ := @labCall_resolves "web" (by decide +kernel)
  obtain ⟨config, found, confined⟩ := resolved_confined_iff labRegistry_valid resolves
  have plain : (labCall "web").PlainLimit := by
    unfold labCall ToolCall.PlainLimit
    decide +kernel
  exact ⟨command, config, resolves, found, plain, confined.mpr plain⟩

/-- The limit is read as an option of its own by the tool. -/
theorem limit_begins_like_option :
    labRegistry.Valid ∧ ∃ command, .ok command ∈ (labCall "--syntax-check").commands labRegistry ∧
      "--syntax-check" ∈ (labCall "--syntax-check").values ∧ "--syntax-check" ∈ command.args ∧
      hasPrefix "--syntax-check" "-" := by
  obtain ⟨command, resolves, isArgument⟩ :=
    @labCall_resolves "--syntax-check" (by decide +kernel)
  exact ⟨labRegistry_valid, command, resolves, by decide +kernel, isArgument, by decide +kernel⟩

end OpenExec.Infra
