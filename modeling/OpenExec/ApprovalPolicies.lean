import Mathlib.Data.List.MinMax
import Mathlib.Data.Prod.Lex
import OpenExec.ApprovalRequests

/-!
# Approval policies

Which policy decides about a request is a query over the table of policies: the one set
for the project, else the one whose path the project's path is `LIKE`, else the default,
and among equals the one of lowest priority.
-/

namespace OpenExec.Approvals

inductive RiskLevel
  | low
  | medium
  | high
  | critical
  deriving DecidableEq

def RiskLevel.priority : RiskLevel → Nat
  | .low => 0
  | .medium => 1
  | .high => 2
  | .critical => 3

def RiskLevel.toString : RiskLevel → String
  | .low => "low"
  | .medium => "medium"
  | .high => "high"
  | .critical => "critical"

inductive ApprovalMode
  | alwaysAsk
  | autoApprove
  | riskBased
  | sessionTrust
  deriving DecidableEq

def ApprovalMode.toString : ApprovalMode → String
  | .alwaysAsk => "always_ask"
  | .autoApprove => "auto_approve"
  | .riskBased => "risk_based"
  | .sessionTrust => "session_trust"

/-- A row of the table of policies.  The lists of tools are what their JSON texts
decode to; an absent or malformed text lists no tool. -/
structure ApprovalPolicy where
  id : String
  name : String
  projectPath : Option String
  mode : ApprovalMode
  autoApproveRiskLevel : RiskLevel
  autoApproveTrustedTools : List String
  alwaysRequireApprovalTools : List String
  timeoutSeconds : Nat
  isDefault : Bool
  priority : Int
  isActive : Bool
  deriving DecidableEq

variable {policies : List ApprovalPolicy} {projectPath : String} {policy : ApprovalPolicy}

/-- SQLite's `LIKE`, the pattern first. -/
def like : List Char → List Char → Bool
  | [], text => text.isEmpty
  | c :: pattern, text =>
    if c = '%' then text.tails.any (like pattern)
    else
      match text with
      | [] => false
      | d :: rest => (c = '_' || c.toLower = d.toLower) && like pattern rest

/-- `projectPath LIKE project_path || '%'`, for a path that may be null. -/
def ApprovalPolicy.isLike (policy : ApprovalPolicy) (projectPath : String) : Bool :=
  policy.projectPath.any fun path => like (path.toList ++ ['%']) projectPath.toList

def ApprovalPolicy.isCandidate (projectPath : String) (policy : ApprovalPolicy) : Bool :=
  policy.isActive &&
    (policy.projectPath = some projectPath || policy.isLike projectPath || policy.isDefault)

def ApprovalPolicy.rank (projectPath : String) (policy : ApprovalPolicy) : Nat :=
  if policy.projectPath = some projectPath then 0
  else if policy.isLike projectPath then 1
  else if policy.isDefault then 2
  else 3

instance keyOrder : LinearOrder (ℕ ×ₗ ℤ) :=
  @Prod.Lex.instLinearOrder ℕ ℤ Nat.instLinearOrder Int.instLinearOrder

instance keyPreorder : Preorder (ℕ ×ₗ ℤ) := keyOrder.toPreorder

def ApprovalPolicy.key (projectPath : String) (policy : ApprovalPolicy) : ℕ ×ₗ ℤ :=
  toLex (policy.rank projectPath, policy.priority)

/-- Rows that the order does not tell apart come in the order of the table. -/
def getPolicyForProject (policies : List ApprovalPolicy) (projectPath : String) :
    Option ApprovalPolicy :=
  (policies.filter (ApprovalPolicy.isCandidate projectPath)).argmin
    (ApprovalPolicy.key projectPath)

def getDefaultPolicy (policies : List ApprovalPolicy) : Option ApprovalPolicy :=
  policies.find? fun policy => policy.isDefault && policy.isActive

def getApplicablePolicy (policies : List ApprovalPolicy) (projectPath : String) (fails : Bool) :
    Option ApprovalPolicy :=
  let found :=
    if projectPath = "" ∨ fails then none else getPolicyForProject policies projectPath
  found <|> getDefaultPolicy policies

def ApprovalPolicy.shouldAutoApprove (policy : ApprovalPolicy) (hasTrust : Bool)
    (toolName : String) (riskLevel : RiskLevel) : Bool :=
  if toolName ∈ policy.alwaysRequireApprovalTools then false
  else if toolName ∈ policy.autoApproveTrustedTools then true
  else
    match policy.mode with
    | .autoApprove => true
    | .alwaysAsk => false
    | .riskBased => decide (riskLevel.priority ≤ policy.autoApproveRiskLevel.priority)
    | .sessionTrust => hasTrust

def pathComponents (path : String) : List (List Char) :=
  (path.toList.splitOn '/').filter (· ≠ [])

def isRooted (path : String) : Bool :=
  path.toList.head? == some '/'

def IsAncestor (directory path : String) : Prop :=
  isRooted directory = isRooted path ∧ pathComponents directory <+: pathComponents path

instance (directory path : String) : Decidable (IsAncestor directory path) :=
  inferInstanceAs (Decidable (_ ∧ _))

def ApprovalPolicy.AppliesTo (policy : ApprovalPolicy) (projectPath : String) : Prop :=
  policy.isActive = true ∧ ((∃ path, policy.projectPath = some path ∧
      (path = projectPath ∨ IsAncestor path projectPath)) ∨ policy.isDefault = true)

def ApprovalPolicy.IsStray (policy : ApprovalPolicy) (projectPath : String) : Prop :=
  policy.isActive = true ∧ policy.isDefault = false ∧ policy.isLike projectPath = true ∧
    ∀ path, policy.projectPath = some path → path ≠ projectPath ∧ ¬ IsAncestor path projectPath

/-- Another candidate comes before a policy in the order of the query. -/
def Outranked (policies : List ApprovalPolicy) (projectPath : String) (policy : ApprovalPolicy) :
    Prop :=
  ∃ other ∈ policies.filter (ApprovalPolicy.isCandidate projectPath),
    other.key projectPath < policy.key projectPath ∨
      other.key projectPath = policy.key projectPath ∧
        (policies.filter (ApprovalPolicy.isCandidate projectPath)).idxOf other <
          (policies.filter (ApprovalPolicy.isCandidate projectPath)).idxOf policy

theorem candidate_iff : policy ∈ policies.filter (ApprovalPolicy.isCandidate projectPath) ↔ policy ∈
    policies ∧ policy.isActive ∧
    ((policy.projectPath = some projectPath ∨ policy.isLike projectPath) ∨ policy.isDefault) := by
  simp [List.mem_filter, ApprovalPolicy.isCandidate]

theorem getPolicyForProject_iff :
    getPolicyForProject policies projectPath = some policy ↔
      policy ∈ policies.filter (ApprovalPolicy.isCandidate projectPath) ∧
        ¬ Outranked policies projectPath policy := by
  unfold getPolicyForProject
  rw [List.argmin_eq_some_iff]
  constructor
  · rintro ⟨isCandidate, least, first⟩
    refine ⟨isCandidate, ?_⟩
    rintro ⟨other, isOther, lower | ⟨same, earlier⟩⟩
    · exact absurd (least other isOther) (not_le_of_gt lower)
    · exact absurd (first other isOther same.le) (not_le_of_gt earlier)
  · rintro ⟨isCandidate, unbeaten⟩
    refine ⟨isCandidate, fun other isOther => ?_, fun other isOther most => ?_⟩
    · by_contra lower
      exact unbeaten ⟨other, isOther, .inl (lt_of_not_ge lower)⟩
    · by_contra earlier
      rcases most.lt_or_eq with lower | same
      · exact unbeaten ⟨other, isOther, .inl lower⟩
      · exact unbeaten ⟨other, isOther, .inr ⟨same, lt_of_not_ge earlier⟩⟩

theorem stray_iff : policy ∈ policies ∧ policy.IsStray projectPath ↔
    policy ∈ policies.filter (ApprovalPolicy.isCandidate projectPath) ∧
      ¬ policy.AppliesTo projectPath := by
  rw [candidate_iff]
  constructor
  · rintro ⟨isRow, active, special, isLike, foreign⟩
    refine ⟨⟨isRow, active, .inl (.inr isLike)⟩, ?_⟩
    rintro ⟨_, ⟨path, isPath, own | inside⟩ | isDefault⟩
    · exact (foreign path isPath).1 own
    · exact (foreign path isPath).2 inside
    · simp [special] at isDefault
  · rintro ⟨⟨isRow, active, matched⟩, foreign⟩
    have special : policy.isDefault = false := by
      by_contra isDefault
      exact foreign ⟨active, .inr (by simpa using isDefault)⟩
    have elsewhere : ∀ path, policy.projectPath = some path →
        path ≠ projectPath ∧ ¬ IsAncestor path projectPath := by
      intro path isPath
      constructor
      · exact fun own => foreign ⟨active, .inl ⟨path, isPath, .inl own⟩⟩
      · exact fun inside => foreign ⟨active, .inl ⟨path, isPath, .inr inside⟩⟩
    refine ⟨isRow, active, special, ?_, elsewhere⟩
    rcases matched with (own | isLike) | isDefault
    · exact absurd rfl (elsewhere projectPath own).1
    · exact isLike
    · simp [special] at isDefault

/-- The policy of a project is set for the project or a directory that holds it, or is
the default, exactly if every policy for another directory that the project's path is
like has a candidate before it. -/
theorem policy_applies_to_project (policies : List ApprovalPolicy) (projectPath : String) :
    (∀ policy, getPolicyForProject policies projectPath = some policy →
      policy.AppliesTo projectPath) ↔
    ∀ policy ∈ policies, policy.IsStray projectPath → Outranked policies projectPath policy := by
  constructor
  · intro applies policy isRow stray
    obtain ⟨isCandidate, foreign⟩ := stray_iff.mp ⟨isRow, stray⟩
    by_contra unbeaten
    exact foreign (applies policy (getPolicyForProject_iff.mpr ⟨isCandidate, unbeaten⟩))
  · intro outranked policy found
    obtain ⟨isCandidate, unbeaten⟩ := getPolicyForProject_iff.mp found
    by_contra foreign
    obtain ⟨isRow, stray⟩ := stray_iff.mpr ⟨isCandidate, foreign⟩
    exact unbeaten (outranked policy isRow stray)

def seededPolicy : ApprovalPolicy where
  id := "default-policy"
  name := "Default Policy"
  projectPath := none
  mode := .riskBased
  autoApproveRiskLevel := .low
  autoApproveTrustedTools := []
  alwaysRequireApprovalTools := []
  timeoutSeconds := 300
  isDefault := true
  priority := 1000
  isActive := true

def scratchPolicy : ApprovalPolicy where
  id := "scratch"
  name := "Scratch"
  projectPath := some "/srv/app"
  mode := .autoApprove
  autoApproveRiskLevel := .low
  autoApproveTrustedTools := []
  alwaysRequireApprovalTools := []
  timeoutSeconds := 300
  isDefault := false
  priority := 100
  isActive := true

/-- The policy of one project decides for another one whose path starts with the same
characters. -/
theorem policy_of_sibling_applies :
    getPolicyForProject [seededPolicy, scratchPolicy] "/srv/app-live" = some scratchPolicy ∧
      ¬ scratchPolicy.AppliesTo "/srv/app-live" := by
  refine ⟨by decide +kernel, ?_⟩
  rintro ⟨_, ⟨path, isPath, own | inside⟩ | isDefault⟩
  · cases isPath
    exact absurd own (by decide +kernel)
  · cases isPath
    exact absurd inside (by decide +kernel)
  · exact absurd isDefault (by decide)

example : getPolicyForProject [seededPolicy, { scratchPolicy with projectPath := some "/SRV/a_p" }]
    "/srv/app/live" = some { scratchPolicy with projectPath := some "/SRV/a_p" } := by
  decide +kernel

end OpenExec.Approvals
