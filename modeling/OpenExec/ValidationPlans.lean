import Mathlib.Data.List.MinMax
import Mathlib.Data.List.Sort
import OpenExec.GoStrings
import OpenExec.GraphGenerations
import OpenExec.PartialWrites

/-!
# Validation plans

A plan for a task lists items to validate.  A proposed revision is never changed; its
acceptance makes a new revision, with the decision on each item.
-/

namespace OpenExec.Validation

open Knowledge KeyedRows PartialWrites GoStrings Table

inductive PlanStatus
  | proposed
  | accepted
  | superseded
  deriving DecidableEq

inductive ItemSource
  | graph
  | blueprint
  | policy
  | user
  | agent

inductive Disposition
  | suggested
  | accepted
  | rejected
  deriving DecidableEq

inductive Requirement
  | optional
  | required
  | blocking
  deriving DecidableEq

inductive ClaimStatus
  | supported
  | unsupported
  | inconclusive
  | notRun
  | unavailable
  deriving DecidableEq

structure ValidationPlanRevision where
  id : String
  taskID : String
  runID : String
  revision : Nat
  generationID : String
  worktreeStateHash : String
  patchHash : String
  changedSymbolIDs : List String
  sourceRevisionID : String
  status : PlanStatus

structure ValidationItem where
  id : String
  planRevisionID : String
  source : ItemSource
  disposition : Disposition
  requirement : Requirement
  criterion : String
  commandArgv : List String
  scope : String
  graphPaths : List String
  limitations : List String

variable {checkoutID : String} {plan : ValidationPlanRevision} {items : List ValidationItem}

/-- Every claim is about the predicate `validation_item_passed`. -/
structure CompletionClaim where
  validationItemID : String
  scope : String
  status : ClaimStatus
  repositoryStateHash : String
  evidenceArtifactIDs : List String
  criterion : String
  requirement : Requirement

def CompletionClaim.identity (claim : CompletionClaim) : String × String :=
  (claim.validationItemID, claim.repositoryStateHash)

structure Tables where
  generations : Generations
  plans : Table ValidationPlanRevision.id
  items : Table ValidationItem.id
  claims : Table CompletionClaim.identity

inductive CompletionRefusal
  | generationMissing
  | evidenceStale (taskID : String) (status : GraphStatus)
  | outstanding (taskID : String) (count : Nat)
  deriving DecidableEq

/-- Why a request on plans and their evidence is refused. -/
inductive Refusal
  | invalidRequest
  | graphNotFresh
  | impactNotCurrent (status : GraphStatus)
  | noChangedSymbol
  | incompletePlan
  | invalidPlanStatus
  | generationMissing
  | planStateMismatch
  | invalidItem (itemID : String)
  | alreadyStored
  | proposalStale
  | proposalConsumed (proposedID : String)
  | notProposed (status : PlanStatus)
  | invalidItemDecision
  | planMissing
  | runMissing
  | otherContext
  | stepMissing
  | planNotAccepted
  | itemMissing
  | itemNotAccepted
  | evidenceStateMismatch
  | evidenceStepMismatch
  | artifactMissing (hash : String)
  | completionStateMoved
  | completionEvidenceEmpty

structure ValidationItemDecision where
  id : String
  disposition : Disposition
  requirement : Requirement

def validateValidationItem (item : ValidationItem) (planStatus : PlanStatus) : Bool :=
  trimSpace item.criterion ≠ "" && !(planStatus = .accepted && item.disposition = .suggested)

namespace Tables

variable (tables : Tables) (taskID : String)

def acceptedPlan : Option ValidationPlanRevision :=
  (tables.plans.rows.filter fun plan => plan.taskID = taskID ∧ plan.status = .accepted).argmax
    ValidationPlanRevision.revision

def isSupported (stateHash : String) (item : ValidationItem) : Bool :=
  tables.claims.rows.any fun claim =>
    claim.validationItemID = item.id ∧ claim.repositoryStateHash = stateHash ∧
      claim.status = .supported

variable (plan : ValidationPlanRevision)

def outstanding : List ValidationItem :=
  tables.items.rows.filter fun item =>
    item.planRevisionID = plan.id ∧ item.disposition = .accepted ∧ item.requirement ≠ .optional ∧
      tables.isSupported plan.worktreeStateHash item = false

def canCompleteTask : Except CompletionRefusal Unit :=
  match tables.acceptedPlan taskID with
  | none => .ok ()
  | some plan =>
    match tables.generations.get? plan.generationID with
    | none => .error .generationMissing
    | some generation =>
      if generation.status ≠ .current ∨ generation.worktreeStateHash ≠ plan.worktreeStateHash then
        .error (.evidenceStale taskID generation.status)
      else if tables.outstanding plan = [] then .ok ()
      else .error (.outstanding taskID (tables.outstanding plan).length)

def itemsOf (planID : String) : List ValidationItem :=
  (tables.items.rows.filter fun item => item.planRevisionID = planID).insertionSort
    fun first second => first.id ≤ second.id

def nextRevision : Nat :=
  ((tables.plans.rows.filter fun plan => plan.taskID = taskID).map
    ValidationPlanRevision.revision).foldl max 0 + 1

def isForCheckout (checkoutID : String) : Bool :=
  (tables.generations.get? plan.generationID).any fun generation =>
    generation.checkoutID = checkoutID

/-- The accepted revisions of a task in one checkout give way to a new one. -/
def supersede (taskID checkoutID : String) : Table ValidationPlanRevision.id :=
  tables.plans.map
    (fun plan =>
      { plan with
        status :=
          if plan.taskID = taskID ∧ plan.status = .accepted ∧
            tables.isForCheckout plan checkoutID then
            .superseded
          else plan.status })
    fun _ => rfl

def storeRevision (checkoutID : String) (plan : ValidationPlanRevision)
    (items : List ValidationItem) : Option Tables := do
  let earlier :=
    if plan.status = .accepted then tables.supersede plan.taskID checkoutID else tables.plans
  let stored ← earlier.insert? plan
  let storedItems ← items.foldlM (fun table item =>
    table.insert? { item with planRevisionID := plan.id }) tables.items
  pure { tables with plans := stored, items := storedItems }

def createValidationPlanRevision (items : List ValidationItem) : Except Refusal Tables :=
  if plan.taskID = "" ∨ plan.generationID = "" ∨ plan.worktreeStateHash = "" then
    .error .incompletePlan
  else if plan.status = .superseded then .error .invalidPlanStatus
  else
    match tables.generations.get? plan.generationID with
    | none => .error .generationMissing
    | some generation =>
      if generation.worktreeStateHash ≠ plan.worktreeStateHash then .error .planStateMismatch
      else
        match items.find? fun item => !validateValidationItem item plan.status with
        | some item => .error (.invalidItem item.id)
        | none =>
          if plan.status = .accepted ∧ plan.sourceRevisionID ≠ "" ∧
            generation.status ≠ .current then
            .error .proposalStale
          else if plan.sourceRevisionID ≠ "" ∧ tables.plans.rows.any fun other =>
              other.sourceRevisionID = plan.sourceRevisionID then
            .error .alreadyStored
          else
            match tables.storeRevision generation.checkoutID
                { plan with revision := tables.nextRevision plan.taskID } items with
            | none => .error .alreadyStored
            | some stored => .ok stored

def revisionFrom (proposedID : String) : Option ValidationPlanRevision :=
  tables.plans.rows.find? fun plan => plan.sourceRevisionID = proposedID

end Tables

variable (decisions : List ValidationItemDecision)

def decideItem (item : ValidationItem) : ValidationItem :=
  match decisions.find? fun decision => decision.id = item.id with
  | some decision =>
    { item with
      disposition := decision.disposition
      requirement := if decision.disposition = .accepted then decision.requirement else .optional }
  | none => { item with disposition := .rejected, requirement := .optional }

/-- The ids of the decisions are not empty and distinct, each decides, and each is on an
item of the proposal. -/
def validDecisions (items : List ValidationItem) : Bool :=
  decisions.all (fun decision => decision.id ≠ "" && decision.disposition ≠ .suggested &&
      items.any fun item => item.id = decision.id) &&
    (decisions.map ValidationItemDecision.id).Nodup

/-- The revision gets a new id and `renew` is the new id of each item. -/
def Tables.acceptValidationPlanRevision (tables : Tables) (proposedID runID : String)
    (decisions : List ValidationItemDecision) (newID : String) (renew : String → String) :
    Except Refusal Tables :=
  match tables.revisionFrom proposedID with
  | some made => if made.status = .accepted then .ok tables
      else .error (.proposalConsumed proposedID)
  | none =>
    match tables.plans.get? proposedID with
    | none => .error .planMissing
    | some proposed =>
      if proposed.status ≠ .proposed then .error (.notProposed proposed.status)
      else if validDecisions decisions (tables.itemsOf proposedID) = false then
        .error .invalidItemDecision
      else
        tables.createValidationPlanRevision
          { proposed with
            id := newID
            runID := if runID ≠ "" then runID else proposed.runID
            status := .accepted
            sourceRevisionID := proposedID }
          ((tables.itemsOf proposedID).map fun item =>
            { decideItem decisions item with id := renew item.id })

/-- Generations and plans stay up to their status, and items stay as they are. -/
structure Tables.Keeps (tables later : Tables) : Prop where
  generation : tables.generations.Keeps later.generations
  plan : ∀ {id plan}, tables.plans.get? id = some plan →
    ∃ kept, later.plans.get? id = some kept ∧ kept.generationID = plan.generationID ∧
      kept.worktreeStateHash = plan.worktreeStateHash
  item : ∀ {id item}, tables.items.get? id = some item → later.items.get? id = some item

namespace Tables.Keeps

variable {tables later : Tables}

theorem refl : tables.Keeps tables where
  generation := Generations.Keeps.refl
  plan found := ⟨_, found, rfl, rfl⟩
  item found := found

theorem supersede {taskID id : String} (found : tables.plans.get? id = some plan) :
    ∃ kept, (tables.supersede taskID checkoutID).get? id = some kept ∧
      kept.generationID = plan.generationID ∧ kept.worktreeStateHash = plan.worktreeStateHash := by
  unfold Tables.supersede
  rw [get?_map, found]
  exact ⟨_, rfl, rfl, rfl⟩

theorem storeRevision (stored : tables.storeRevision checkoutID plan items = some later) :
    tables.Keeps later := by
  obtain ⟨storedPlans, isPlans, stored⟩ := Option.bind_eq_some_iff.mp stored
  obtain ⟨storedItems, isItems, stored⟩ := Option.bind_eq_some_iff.mp stored
  cases stored
  constructor
  case generation => exact Generations.Keeps.refl
  case plan =>
    intro id plan found
    split at isPlans
    · obtain ⟨kept, isKept, facts⟩ := supersede found
      exact ⟨kept, get?_of_insert? isPlans isKept, facts⟩
    · exact ⟨plan, get?_of_insert? isPlans found, rfl, rfl⟩
  case item =>
    intro id item found
    refine @foldlM_invariant _ _ _ _ _ _ (fun table => table.get? id = some item) ?_ found isItems
    exact fun holds inserted => get?_of_insert? inserted holds

theorem createValidationPlanRevision
    (created : tables.createValidationPlanRevision plan items = .ok later) :
    tables.Keeps later := by
  unfold Tables.createValidationPlanRevision at created
  iterate 3
    split at created
    · cases created
  next generation _ =>
  iterate 5
    split at created
    · cases created
  next stored isStored =>
  exact Except.ok.inj created ▸ storeRevision isStored

theorem acceptValidationPlanRevision {proposedID runID newID : String}
    {decisions : List ValidationItemDecision} {renew : String → String}
    (accepted : tables.acceptValidationPlanRevision proposedID runID decisions newID renew =
      .ok later) : tables.Keeps later := by
  unfold Tables.acceptValidationPlanRevision at accepted
  split at accepted
  · split at accepted
    · exact Except.ok.inj accepted ▸ refl
    · cases accepted
  iterate 3
    split at accepted
    · cases accepted
  exact createValidationPlanRevision accepted

end Tables.Keeps

end OpenExec.Validation
