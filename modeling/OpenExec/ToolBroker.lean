import OpenExec.GoStrings
import Mathlib.Tactic.ByContra

/-!
# The tool broker

Arguments of a tool call are JSON.  The broker decodes from them the one field it needs
to decide; the handler decodes all of them again.
-/

namespace OpenExec.ToolServer

inductive JsonValue
  | null
  | bool (value : Bool)
  | integer (value : Int)
  | text (value : List Char)
  | other
  deriving DecidableEq

inductive Arguments
  | malformed
  | null
  | notObject
  | object (fields : List (List Char × JsonValue))

/-- The folding of letters under which keys are compared. -/
def foldRune (c : Char) : Char :=
  if c = Char.ofNat 0x212a then 'k' else if c = Char.ofNat 0x17f then 's' else c.toLower

def namesField (field : String) (key : List Char) : Bool := key.map foldRune = field.toList

section

variable {β : Type}

/-- One key of an object: a value of another type is an error that stays. -/
def decodeEntry (field : String) (accept : JsonValue → Option β) (current : Option β)
    (entry : List Char × JsonValue) : Option β :=
  if namesField field entry.1 ∧ entry.2 ≠ .null then current.bind fun _ => accept entry.2
  else current

/-- A field of the struct that `json.Unmarshal` fills. -/
def decodeField (field : String) (accept : JsonValue → Option β) (default : β) :
    Arguments → Option β
  | .malformed => none
  | .notObject => none
  | .null => some default
  | .object fields => fields.foldl (decodeEntry field accept) (some default)

end

def acceptBool : JsonValue → Option Bool
  | .bool value => some value
  | _ => none

def acceptText : JsonValue → Option (List Char)
  | .text value => some value
  | _ => none

/-- A number without a fraction that an `int` can hold. -/
def acceptInt : JsonValue → Option Int
  | .integer value => if -(2 ^ 63 : Nat) ≤ value ∧ value < (2 ^ 63 : Nat) then some value else none
  | _ => none

variable (field : String) (arguments : Arguments)

def decodeBool : Option Bool :=
  decodeField field acceptBool false arguments

def decodeText : Option (List Char) :=
  decodeField field acceptText [] arguments

/-- The text a field is left with when the error of `json.Unmarshal` is ignored. -/
def decodeTextLeniently : Arguments → List Char
  | .object fields =>
    fields.foldl (fun current entry =>
      if namesField field entry.1 then (acceptText entry.2).getD current else current) []
  | _ => []

def decodeInt : Option Int :=
  decodeField field acceptInt 0 arguments

inductive PermissionMode
  | suggest
  | autoEdit
  | fullAuto
  deriving DecidableEq

def PermissionMode.toString : PermissionMode → String
  | .suggest => "suggest"
  | .autoEdit => "auto-edit"
  | .fullAuto => "danger-full-access"

structure Toolset where
  name : String
  hasTool : String → Bool

structure ToolBroker where
  mode : PermissionMode
  symbolsOnly : Bool
  activeToolset : Option Toolset

def symbolTools : List String := ["symbol_find", "symbol_read", "symbol_relations"]

variable (name : String)

def isSymbolTool : Bool := symbolTools.contains name

def controlPlaneTools : List String :=
  ["axon_signal", "openexec_signal", "openexec_result", "openexec_action", "get_fork_info",
    "list_session_forks", "fork_session", "backlog_list_stories", "backlog_get_story",
    "backlog_claim_story", "backlog_complete_task", "backlog_complete_story", "backlog_add_task",
    "memory_read", "skill_propose"]

def isControlPlaneTool : Bool := controlPlaneTools.contains name

def infraTools : List String :=
  ["ansible_run_playbook", "salt_apply_state", "ssh_run_query", "terraform_plan", "terraform_apply"]

def isInfraTool : Bool := infraTools.contains name

def approvalTools : List String := ["approval_list", "approval_decide"]

def isApprovalTool : Bool := approvalTools.contains name

/-- The tools that are allowed in every mode. -/
def openTools : List String :=
  ["read_file", "axon_signal", "openexec_signal", "get_fork_info", "list_session_forks",
    "fork_session", "openexec_result", "openexec_action"] ++
  ["backlog_list_stories", "backlog_get_story", "memory_read"] ++ symbolTools ++
  ["backlog_claim_story", "backlog_complete_task", "backlog_complete_story", "backlog_add_task"] ++
  ["skill_propose"] ++ approvalTools

def ToolBroker.toolsetRefusal (broker : ToolBroker) (toolName : String) : Option String :=
  match broker.activeToolset with
  | none => none
  | some toolset =>
    if !isControlPlaneTool toolName && !isInfraTool toolName && !isApprovalTool toolName &&
        !toolset.hasTool toolName then
      some ("[Toolset " ++ toolset.name ++ "] tool '" ++ toolName ++
        "' is not available in the current toolset")
    else none

/-- The decision by mode. -/
def authorizeMode (mode : PermissionMode) (toolName : String) (arguments : Arguments) :
    Except String Unit :=
  if openTools.contains toolName then .ok ()
  else if toolName = "git_apply_patch" then
    if mode = .suggest ∧ decodeBool "check_only" arguments ≠ some true then
      .error ("[Suggest Mode] git_apply_patch requires check_only=true; " ++
        "propose patches as reasoning text for manual apply")
    else .ok ()
  else if mode = .fullAuto then .ok ()
  else if toolName = "write_file" then
    .error ("[Security] write_file is restricted to Full Auto (danger) mode; " ++
      "please use git_apply_patch for workspace edits")
  else if toolName = "run_shell_command" then
    .error ("[" ++ mode.toString ++ " Mode] run_shell_command is disabled; " ++
      "switch to Full Auto (danger) mode to enable shell access")
  else if isInfraTool toolName then
    .error ("[" ++ mode.toString ++ " Mode] infra tool '" ++ toolName ++
      "' requires danger-full-access mode")
  else .error ("[" ++ mode.toString ++ " Mode] unknown tool '" ++ toolName ++ "' is restricted")

/-- `ToolBroker.Authorize`: the symbols profile, then the toolset, then the mode. -/
def ToolBroker.authorize (broker : ToolBroker) (toolName : String) (arguments : Arguments) :
    Except String Unit :=
  if broker.symbolsOnly = true ∧ isSymbolTool toolName = false then
    .error ("[Symbols-only] tool '" ++ toolName ++
      "' is not available; this server exposes only " ++
      "symbol_find, symbol_read and symbol_relations")
  else
    match broker.toolsetRefusal toolName with
    | some refusal => .error refusal
    | none => authorizeMode broker.mode toolName arguments

theorem ToolBroker.authorize_restricted {broker : ToolBroker} {toolName : String}
    {arguments : Arguments} (restricted : broker.mode ≠ .fullAuto)
    (allowed : broker.authorize toolName arguments = .ok ()) : toolName ∈ openTools ∨
      toolName = "git_apply_patch" ∧
        (broker.mode = .suggest → decodeBool "check_only" arguments = some true) := by
  unfold ToolBroker.authorize at allowed
  split at allowed
  · cases allowed
  split at allowed
  · cases allowed
  unfold authorizeMode at allowed
  split at allowed
  · next isOpen => exact .inl (by simpa using isOpen)
  split at allowed
  · next isPatch =>
    refine .inr ⟨isPatch, ?_⟩
    intro isSuggest
    split at allowed
    · cases allowed
    · next decided =>
      by_contra unchecked
      exact decided ⟨isSuggest, unchecked⟩
  iterate 3
    split at allowed
    · cases allowed
  · cases allowed

end OpenExec.ToolServer
