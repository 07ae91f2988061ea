import OpenExec.ValidationPlans

/-!
# Evidence for validation plans

The steps of a run are registered by whoever ran them.  A link makes a step the evidence
for an item of an accepted plan.
-/

namespace OpenExec.Validation

open Knowledge KeyedRows GoStrings

inductive EvidenceStatus
  | passed
  | failed
  | inconclusive
  | notRun
  | unavailable
  deriving DecidableEq

inductive RunMode
  | readOnly
  | workspaceWrite
  | other (mode : String)
  deriving DecidableEq

inductive StepPhase
  | intake
  | plan
  | execute
  | verify
  | finalize
  deriving DecidableEq

inductive StepStatus
  | completed
  | failed
  | inconclusive
  | unavailable
  | other (status : String)
  deriving DecidableEq

structure Run where
  id : String
  projectPath : String
  mode : RunMode

/-- `registeredIn` is not a column: it is what a scan would have read of each worktree when
the step was registered. -/
structure RunStep where
  id : String
  runID : String
  phase : StepPhase
  iteration : Int
  status : StepStatus
  registeredIn : String → ScanManifest

structure ValidationEvidenceLink where
  validationItemID : String
  runID : String
  runStepID : String
  artifactHash : String
  worktreeStateHash : String
  patchHash : String
  status : EvidenceStatus
  createdAt : Nat

def ValidationEvidenceLink.identity (link : ValidationEvidenceLink) : String × String :=
  (link.validationItemID, link.runStepID)

structure CompletionReport where
  planRevisionID : String
  verified : List CompletionClaim
  notVerified : List CompletionClaim
  canComplete : Bool

structure Ledger extends Tables where
  runs : Table Run.id
  steps : Table RunStep.id
  artifacts : List String
  links : Table ValidationEvidenceLink.identity
  reports : Table CompletionReport.planRevisionID

def EvidenceStatus.expectedStep : EvidenceStatus → StepStatus
  | .passed => .completed
  | .failed => .failed
  | .inconclusive => .inconclusive
  | .notRun => .unavailable
  | .unavailable => .unavailable

def evidenceStatusMatchesRunStep (evidence : EvidenceStatus) (step : StepStatus) : Bool :=
  evidence.expectedStep = step

namespace Ledger

variable (ledger : Ledger) (link : ValidationEvidenceLink)

/-- A second link of an item and a step replaces what the first said, not when it was made. -/
def upsertLink : Ledger :=
  match ledger.links.get? link.identity with
  | none => { ledger with links := ledger.links.put link }
  | some old =>
    { ledger with
      links := ledger.links.put { link with runID := old.runID, createdAt := old.createdAt } }

def linkValidationEvidence : Except Refusal Ledger :=
  match ledger.items.get? link.validationItemID with
  | none => .error .itemMissing
  | some item =>
    match ledger.plans.get? item.planRevisionID with
    | none => .error .itemMissing
    | some plan =>
      if plan.status ≠ .accepted then .error .planNotAccepted
      else if item.disposition ≠ .accepted then .error .itemNotAccepted
      else if plan.worktreeStateHash ≠ link.worktreeStateHash ∨ plan.patchHash ≠ link.patchHash then
        .error .evidenceStateMismatch
      else
        match ledger.steps.get? link.runStepID with
        | none => .error .stepMissing
        | some step =>
          if step.runID ≠ link.runID then .error .stepMissing
          else if evidenceStatusMatchesRunStep link.status step.status = false then
            .error .evidenceStepMismatch
          else if link.artifactHash ≠ "" ∧ link.artifactHash ∉ ledger.artifacts then
            .error (.artifactMissing link.artifactHash)
          else .ok (ledger.upsertLink link)

def linksOf (itemID stateHash : String) : List ValidationEvidenceLink :=
  (ledger.links.rows.filter fun link =>
    link.validationItemID = itemID ∧ link.worktreeStateHash = stateHash).insertionSort
      fun first second => second.createdAt ≤ first.createdAt

end Ledger

/-- The latest link that says something counts, and a failure counts whenever it was. -/
def coverStatus (status : EvidenceStatus) (link : ValidationEvidenceLink) : EvidenceStatus :=
  if status = .notRun ∨ status = .unavailable ∨ link.status = .failed then link.status else status

def EvidenceStatus.claimStatus : EvidenceStatus → ClaimStatus
  | .passed => .supported
  | .failed => .unsupported
  | .inconclusive => .inconclusive
  | .notRun => .notRun
  | .unavailable => .unavailable

namespace Ledger

variable (ledger : Ledger)

def coverageForItem (itemID stateHash : String) : EvidenceStatus × List String :=
  let links := ledger.linksOf itemID stateHash
  (links.foldl coverStatus .notRun,
    ((links.map ValidationEvidenceLink.artifactHash).filter (· ≠ "")).insertionSort (· ≤ ·))

def currentGeneration (worktreeID : String) : Option Generation :=
  ledger.generations.rows.find? fun generation =>
    generation.worktreeID = worktreeID ∧ generation.status = .current

def claimFor (stateHash : String) (stateMatches : Bool) (item : ValidationItem) : CompletionClaim :=
  let coverage := ledger.coverageForItem item.id stateHash
  { validationItemID := item.id
    scope := item.scope
    status := (if stateMatches then coverage.1 else .unavailable).claimStatus
    repositoryStateHash := stateHash
    evidenceArtifactIDs := coverage.2
    criterion := item.criterion
    requirement := item.requirement }

def acceptedItems (planID : String) : List ValidationItem :=
  (ledger.itemsOf planID).filter fun item => item.disposition = .accepted

def currentState (worktreeID : String) : String :=
  (ledger.currentGeneration worktreeID).elim "" Generation.worktreeStateHash

def coverageClaims (plan : ValidationPlanRevision) (bound : Generation) : List CompletionClaim :=
  (ledger.acceptedItems plan.id).map
    (ledger.claimFor plan.worktreeStateHash
      ((ledger.currentGeneration bound.worktreeID).any fun current =>
        current.worktreeStateHash = plan.worktreeStateHash))

end Ledger

def coverageReport (planID : String) (claims : List CompletionClaim) : CompletionReport where
  planRevisionID := planID
  verified := claims.filter fun claim => claim.status = .supported
  notVerified := claims.filter fun claim => claim.status ≠ .supported
  canComplete := (claims.filter fun claim => claim.status ≠ .supported).all fun claim =>
    claim.requirement = .optional

namespace Ledger

variable (ledger : Ledger) (planID : String)

/-- The claims are stored, each in the place of the item's earlier claim for the state. -/
def evidenceCoverage : Except Refusal (Ledger × CompletionReport) :=
  match ledger.plans.get? planID with
  | none => .error .planMissing
  | some plan =>
    match ledger.generations.get? plan.generationID with
    | none => .error .planMissing
    | some bound =>
      if plan.status ≠ .accepted then .error .planNotAccepted
      else
        .ok ({ ledger with
            claims := (ledger.coverageClaims plan bound).foldl Table.put ledger.claims },
          coverageReport planID (ledger.coverageClaims plan bound))

def lacksEvidence : Bool :=
  ledger.links.rows.all fun link =>
    (ledger.acceptedItems planID).all fun item => item.id ≠ link.validationItemID

/-- The first report of a plan stays, whatever happens to the evidence and the worktree. -/
def finalizeEvidenceCoverage : Except Refusal Ledger :=
  match ledger.reports.get? planID with
  | some _ => .ok ledger
  | none =>
    match ledger.plans.get? planID with
    | none => .error .planMissing
    | some plan =>
      match ledger.generations.get? plan.generationID with
      | none => .error .planMissing
      | some bound =>
        if plan.status ≠ .accepted then .error .planNotAccepted
        else if ledger.currentState bound.worktreeID = "" ∨
            ledger.currentState bound.worktreeID ≠ plan.worktreeStateHash then
          .error .completionStateMoved
        else if ledger.acceptedItems planID ≠ [] ∧ ledger.lacksEvidence planID then
          .error .completionEvidenceEmpty
        else
          match ledger.evidenceCoverage planID with
          | .error refusal => .error refusal
          | .ok (covered, report) =>
            .ok { covered with reports := covered.reports.put report }

end Ledger

/-- A request comes over HTTP or from the command line, which checks less of it. -/
inductive Channel
  | http
  | cli
  deriving DecidableEq

def validValidationIdentifier (value : String) : Bool :=
  trimSpace value ≠ "" && (trimSpace value).utf8ByteSize ≤ 200 &&
    (trimSpace value).toList.all fun character => ! ['\r', '\n', '\x00'].contains character

def Channel.admits (channel : Channel) (identifier : String) : Bool :=
  channel = .cli || validValidationIdentifier identifier

namespace Ledger

variable (ledger : Ledger)

def planForCheckout (planID checkoutID : String) : Option ValidationPlanRevision :=
  (ledger.plans.get? planID).filter fun plan => ledger.isForCheckout plan checkoutID

def registerRun (channel : Channel) (identity : RepositoryIdentity)
    (id : String) (mode : RunMode) : Except Refusal Ledger :=
  if channel.admits id = false ∨ mode ≠ .readOnly ∧ mode ≠ .workspaceWrite then
    .error .invalidRequest
  else
    match ledger.runs.get? id with
    | some run =>
      if run.projectPath ≠ identity.rootPath ∨ run.mode ≠ mode then .error .otherContext
      else .ok ledger
    | none =>
      .ok { ledger with runs := ledger.runs.put ⟨id, identity.rootPath, mode⟩ }

def runIn (identity : RepositoryIdentity) (runID : String) : Option Run :=
  (ledger.runs.get? runID).filter fun run => run.projectPath = identity.rootPath

def registerStep (channel : Channel) (identity : RepositoryIdentity)
    (step : RunStep) : Except Refusal Ledger :=
  match ledger.runIn identity step.runID with
  | none => .error .runMissing
  | some _ =>
    if channel.admits step.id = false ∨ step.phase = .intake ∨ step.iteration < 1 ∨
        step.status ∉ [.completed, .failed, .inconclusive, .unavailable] then
      .error .invalidRequest
    else
      match ledger.steps.get? step.id with
      | some old =>
        if old.runID ≠ step.runID ∨ old.phase ≠ step.phase ∨ old.iteration ≠ step.iteration ∨
            old.status ≠ step.status then
          .error .otherContext
        else .ok ledger
      | none => .ok { ledger with steps := ledger.steps.put step }

end Ledger

structure EvidenceRequest where
  validationItemID : String
  runID : String
  runStepID : String
  artifactHash : String
  status : EvidenceStatus

def EvidenceRequest.link (request : EvidenceRequest) (plan : ValidationPlanRevision) (now : Nat) :
    ValidationEvidenceLink where
  validationItemID := request.validationItemID
  runID := request.runID
  runStepID := request.runStepID
  artifactHash := request.artifactHash
  worktreeStateHash := plan.worktreeStateHash
  patchHash := plan.patchHash
  status := request.status
  createdAt := now

namespace Ledger

def linkEvidence (ledger : Ledger) (channel : Channel) (identity : RepositoryIdentity)
    (planID : String) (request : EvidenceRequest) (now : Nat) : Except Refusal Ledger :=
  match ledger.planForCheckout planID identity.checkoutID with
  | none => .error .planMissing
  | some plan =>
    if channel.admits request.validationItemID = false ∨ channel.admits request.runID = false ∨
        channel.admits request.runStepID = false then
      .error .invalidRequest
    else if (ledger.itemsOf planID).all fun item => item.id ≠ request.validationItemID then
      .error .itemMissing
    else
      match ledger.runIn identity request.runID, ledger.steps.get? request.runStepID with
      | none, _ => .error .runMissing
      | some _, none => .error .stepMissing
      | some run, some step =>
        if step.runID ≠ run.id then .error .stepMissing
        else if evidenceStatusMatchesRunStep request.status step.status = false then
          .error .evidenceStepMismatch
        else ledger.linkValidationEvidence (request.link plan now)

def finalizeCompletion (ledger : Ledger) (identity : RepositoryIdentity) (planID : String) :
    Except Refusal Ledger :=
  match ledger.planForCheckout planID identity.checkoutID with
  | none => .error .planMissing
  | some plan => ledger.finalizeEvidenceCoverage plan.id

end Ledger

/-- What the analysis of changed files says to validate. -/
structure ValidationRecommendation where
  criterion : String
  scope : String
  graphPaths : List String
  limitations : List String

def suggestedValidationItem (recommendation : ValidationRecommendation) (id : String) :
    ValidationItem where
  id := id
  planRevisionID := ""
  source := .graph
  disposition := .suggested
  requirement := .optional
  criterion := recommendation.criterion
  commandArgv := []
  scope := recommendation.scope
  graphPaths := recommendation.graphPaths
  limitations := recommendation.limitations

structure ProposalRequest where
  taskID : String
  runID : String
  patchHash : String

/-- The analysis was made through a generation. -/
structure ChangedImpact where
  generation : Generation
  changedSymbols : List String
  recommendations : List ValidationRecommendation

def ProposalRequest.isValid (request : ProposalRequest) (channel : Channel) : Bool :=
  match channel with
  | .http =>
    validValidationIdentifier request.taskID &&
      (request.runID = "" || validValidationIdentifier request.runID) &&
      request.patchHash.utf8ByteSize ≤ 256 &&
      request.patchHash.toList.all fun character => ! ['\r', '\n', '\x00'].contains character
  | .cli => trimSpace request.taskID ≠ ""

/-- Each new item gets the id that `fresh` has for its place. -/
def Tables.proposeFromChangedImpact (tables : Tables) (channel : Channel)
    (request : ProposalRequest)
    (impact : ChangedImpact) (newID : String) (fresh : Nat → String) : Except Refusal Tables :=
  if request.isValid channel = false then .error .invalidRequest
  else if impact.changedSymbols = [] then .error .noChangedSymbol
  else if impact.generation.status ≠ .current then
    .error (.impactNotCurrent impact.generation.status)
  else
    tables.createValidationPlanRevision
      { id := newID
        taskID := trimSpace request.taskID
        runID := trimSpace request.runID
        revision := 0
        generationID := impact.generation.id
        worktreeStateHash := impact.generation.worktreeStateHash
        patchHash := trimSpace request.patchHash
        changedSymbolIDs := impact.changedSymbols.dedup.filter (· ≠ "")
        sourceRevisionID := ""
        status := .proposed }
      (impact.recommendations.mapIdx fun place recommendation =>
        suggestedValidationItem recommendation (fresh place))

/-- The caller has read the state of the worktree: the generation it answers from. -/
def Ledger.acceptProposal (ledger : Ledger) (channel : Channel) (identity : RepositoryIdentity)
    (state : Generation) (proposedID runID : String) (decisions : List ValidationItemDecision)
    (newID : String) (renew : String → String) : Except Refusal Tables :=
  if runID ≠ "" ∧ channel.admits runID = false then .error .invalidRequest
  else
    match ledger.planForCheckout proposedID identity.checkoutID with
    | none => .error .planMissing
    | some plan =>
      if plan.changedSymbolIDs = [] then .error .noChangedSymbol
      else
        match ledger.revisionFrom plan.id with
        | some made =>
          if made.status = .accepted then .ok ledger.toTables
          else .error (.proposalConsumed plan.id)
        | none =>
          if state.id ≠ plan.generationID ∨ state.worktreeStateHash ≠ plan.worktreeStateHash then
            .error .proposalStale
          else ledger.acceptValidationPlanRevision plan.id (trimSpace runID) decisions newID renew

end OpenExec.Validation
