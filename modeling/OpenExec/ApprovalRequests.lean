import OpenExec.GuardedRuns
import Mathlib.Logic.Function.Basic

/-!
# The life of an approval request

The row of one request, the row of its decision, and the calls of any number of
processes on them.  A call is a sequence of repository calls, each of them atomic;
between two of them every other call may go on.  A repository call may also fail,
and then it changes nothing.
-/

namespace OpenExec.Approvals

inductive RequestStatus
  | pending
  | approved
  | rejected
  | autoApproved
  | expired
  | cancelled
  deriving DecidableEq

def RequestStatus.toString : RequestStatus → String
  | .pending => "pending"
  | .approved => "approved"
  | .rejected => "rejected"
  | .autoApproved => "auto_approved"
  | .expired => "expired"
  | .cancelled => "cancelled"

def RequestStatus.isFinal (status : RequestStatus) : Bool :=
  status != .pending

/-- The columns of a request that a call on it reads or writes. -/
structure ApprovalRequest where
  status : RequestStatus
  policyID : Option String
  expiresAt : Option Nat
  updatedAt : Nat
  deriving DecidableEq

structure ApprovalDecision where
  decision : RequestStatus
  decidedBy : String
  reason : String
  final : decision.isFinal = true
  deriving DecidableEq

structure ApprovalResult where
  request : ApprovalRequest
  decision : Option ApprovalDecision
  approved : Bool
  pending : Bool
  reason : String
  deriving DecidableEq

inductive Fault
  | notRead
  | requestExpired
  | alreadyDecided
  | notUpdated
  | approvalConflict
  | invalidDecision
  | notRecorded
  | contextDone
  deriving DecidableEq

namespace ApprovalRequest

variable (request : ApprovalRequest)

def isPending : Bool :=
  request.status == .pending

def isApproved : Bool :=
  request.status == .approved || request.status == .autoApproved

def isExpired (now : Nat) : Bool :=
  match request.expiresAt with
  | none => false
  | some expiresAt => decide (expiresAt < now)

/-- The common body of the methods that give a pending request its final status. -/
def settle (status : RequestStatus) (request : ApprovalRequest) (now : Nat) :
    Except Fault ApprovalRequest :=
  if request.status.isFinal then .error .alreadyDecided
  else .ok { request with status := status, updatedAt := now }

def approve : ApprovalRequest → Nat → Except Fault ApprovalRequest := settle .approved

def reject : ApprovalRequest → Nat → Except Fault ApprovalRequest := settle .rejected

def expire : ApprovalRequest → Nat → Except Fault ApprovalRequest := settle .expired

def cancel : ApprovalRequest → Nat → Except Fault ApprovalRequest := settle .cancelled

end ApprovalRequest

/-- The two rows of a request.  The table of decisions has at most one row for a
request. -/
structure Store where
  request : ApprovalRequest
  decision : Option ApprovalDecision

namespace Store

variable (store : Store)

def updateRequest (request : ApprovalRequest) : Store :=
  { store with request := request }

def updateRequestStatus (request : ApprovalRequest)
    (expectedStatus : RequestStatus) : Except Fault Store :=
  if store.request.status = expectedStatus then .ok { store with request := request }
  else .error .approvalConflict

def extendRequestExpiration (expiresAt updatedAt : Nat) : Except Fault Store :=
  if store.request.status = .pending then
    .ok { store with
      request := { store.request with expiresAt := some expiresAt, updatedAt := updatedAt } }
  else .error .approvalConflict

def createDecision (decision : ApprovalDecision) : Except Fault Store :=
  if store.decision = none then .ok { store with decision := some decision }
  else .error .notRecorded

def listsExpired (now : Nat) : Bool :=
  store.request.status == .pending && store.request.isExpired now

end Store

inductive Verdict
  | approve (decidedBy reason : String)
  | reject (decidedBy reason : String)
  | cancel (reason : String)
  deriving DecidableEq

namespace Verdict

def status : Verdict → RequestStatus
  | .approve _ _ => .approved
  | .reject _ _ => .rejected
  | .cancel _ => .cancelled

def decision : Verdict → ApprovalDecision
  | .approve decidedBy reason => ⟨.approved, decidedBy, reason, rfl⟩
  | .reject decidedBy reason => ⟨.rejected, decidedBy, reason, rfl⟩
  | .cancel reason => ⟨.cancelled, "system", reason, rfl⟩

/-- What the call makes of the row it read.  A request may be cancelled after it has
expired, but not approved or rejected. -/
def apply (verdict : Verdict) (request : ApprovalRequest) (now : Nat) :
    Except Fault ApprovalRequest :=
  match verdict with
  | .approve _ _ => if request.isExpired now then .error .requestExpired else request.approve now
  | .reject _ _ => if request.isExpired now then .error .requestExpired else request.reject now
  | .cancel _ => request.cancel now

end Verdict

def expiredWithoutDecision : ApprovalDecision :=
  ⟨.expired, "system", "Request expired without a decision", rfl⟩

def expiredWhileWaiting : ApprovalDecision :=
  ⟨.expired, "system", "Request expired while waiting", rfl⟩

def getDecisionReason (decision : Option ApprovalDecision) (request : ApprovalRequest) : String :=
  match decision with
  | none => "Request " ++ request.status.toString
  | some decision =>
    if decision.reason = "" then "Request " ++ request.status.toString else decision.reason

inductive Operation
  | decide (verdict : Verdict)
  | expireRequests
  | checkApproval
  | waitForApproval
  | extendRequestExpiration (expiresAt : Nat)

/-- Where a call stands: before which of its repository calls, and with which copy of
the row. -/
inductive Progress
  | idle
  | deciding (verdict : Verdict)
  | settling (verdict : Verdict) (request : ApprovalRequest)
  | recording (verdict : Verdict)
  | listing
  | expiring (request : ApprovalRequest)
  | recordingExpiry
  | checking
  | marking (request : ApprovalRequest)
  | lookingUp (request : ApprovalRequest)
  | waiting
  | lapsing (request : ApprovalRequest)
  | recordingLapse (request : ApprovalRequest)
  | reporting (request : ApprovalRequest)
  | extending (expiresAt : Nat)
  deriving DecidableEq

inductive Answer
  | done (verdict : Verdict)
  | extended
  | failed (fault : Fault)
  | count (expired : Nat)
  | result (result : ApprovalResult)

inductive Turn
  | goOn (progress : Progress)
  | return (answer : Answer)

def Operation.begin : Operation → Progress
  | .decide verdict => .deciding verdict
  | .expireRequests => .listing
  | .checkApproval => .checking
  | .waitForApproval => .waiting
  | .extendRequestExpiration expiresAt => .extending expiresAt

/-! Each of the following definitions is the stretch of a call from one repository
call to the next. -/

def decideAfterRead (verdict : Verdict) (request : ApprovalRequest) (now : Nat) : Turn :=
  match verdict.apply request now with
  | .error fault => .return (.failed fault)
  | .ok request => .goOn (.settling verdict request)

/-- A decision without a decider is refused only after the status has been written. -/
def decideAfterUpdate (verdict : Verdict) : Turn :=
  if verdict.decision.decidedBy = "" then .return (.failed .invalidDecision)
  else .goOn (.recording verdict)

variable (request : ApprovalRequest)

def expireAfterList (now : Nat) : Turn :=
  match request.expire now with
  | .error _ => .return (.count 0)
  | .ok request => .goOn (.expiring request)

def checkAfterMark : Turn :=
  if request.isPending then
    .return (.result ⟨request, none, false, true, "Awaiting approval"⟩)
  else .goOn (.lookingUp request)

def checkAfterRead (now : Nat) : Turn :=
  if request.isExpired now && request.isPending then
    match request.expire now with
    | .error _ => checkAfterMark request
    | .ok request => .goOn (.marking request)
  else checkAfterMark request

variable (decision : Option ApprovalDecision)

def checkAfterLookup : Answer :=
  let reason := (decision.map ApprovalDecision.reason).getD ""
  .result
    { request := request
      decision := decision
      approved := request.isApproved
      pending := false
      reason :=
        if !request.isApproved && reason = "" then "Request " ++ request.status.toString
        else reason }

def waitAfterExpiry : Answer :=
  .result ⟨request, none, false, false, "Request expired"⟩

def waitAfterRead (now : Nat) : Turn :=
  if request.isExpired now && request.isPending then
    match request.expire now with
    | .error _ => .return (waitAfterExpiry request)
    | .ok request => .goOn (.lapsing request)
  else if request.isPending then .goOn .waiting
  else .goOn (.reporting request)

def waitAfterLookup : Answer :=
  .result ⟨request, decision, request.isApproved, false, getDecisionReason decision request⟩

def answered {α : Type} (fault : Fault) (fails : Bool) (answer : Except Fault α) :
    Except Fault α :=
  if fails then .error fault else answer

/-- The next repository call of a call, and what the call does with its answer.  The
writes of `checkApproval` and `waitForApproval` are not checked for errors. -/
def advance (store : Store) (now : Nat) (fails : Bool) : Progress → Option (Store × Turn)
  | .idle => none
  | .deciding verdict =>
    if fails then some (store, .return (.failed .notRead))
    else some (store, decideAfterRead verdict store.request now)
  | .settling verdict request =>
    match answered .notUpdated fails (store.updateRequestStatus request .pending) with
    | .error fault => some (store, .return (.failed fault))
    | .ok updated => some (updated, decideAfterUpdate verdict)
  | .recording verdict =>
    match answered .notRecorded fails (store.createDecision verdict.decision) with
    | .error fault => some (store, .return (.failed fault))
    | .ok recorded => some (recorded, .return (.done verdict))
  | .listing =>
    if fails then some (store, .return (.failed .notRead))
    else if store.listsExpired now then some (store, expireAfterList store.request now)
    else some (store, .return (.count 0))
  | .expiring request =>
    if fails then some (store, .return (.count 0))
    else some (store.updateRequest request, .goOn .recordingExpiry)
  | .recordingExpiry =>
    match answered .notRecorded fails (store.createDecision expiredWithoutDecision) with
    | .error _ => some (store, .return (.count 0))
    | .ok recorded => some (recorded, .return (.count 1))
  | .checking =>
    if fails then some (store, .return (.failed .notRead))
    else some (store, checkAfterRead store.request now)
  | .marking request =>
    if fails then some (store, checkAfterMark request)
    else some (store.updateRequest request, checkAfterMark request)
  | .lookingUp request =>
    some (store, .return (checkAfterLookup request (if fails then none else store.decision)))
  | .waiting =>
    if fails then some (store, .return (.failed .notRead))
    else some (store, waitAfterRead store.request now)
  | .lapsing request =>
    if fails then some (store, .goOn (.recordingLapse request))
    else some (store.updateRequest request, .goOn (.recordingLapse request))
  | .recordingLapse request =>
    match answered .notRecorded fails (store.createDecision expiredWhileWaiting) with
    | .error _ => some (store, .return (waitAfterExpiry request))
    | .ok recorded => some (recorded, .return (waitAfterExpiry request))
  | .reporting request =>
    some (store, .return (waitAfterLookup request (if fails then none else store.decision)))
  | .extending expiresAt =>
    match answered .notUpdated fails (store.extendRequestExpiration expiresAt now) with
    | .error fault => some (store, .return (.failed fault))
    | .ok extended => some (extended, .return .extended)

structure State where
  store : Store
  callers : Nat → Progress
  answers : List Answer

def State.initial (store : Store) : State where
  store := store
  callers := fun _ => .idle
  answers := []

inductive Action
  | call (caller : Nat) (operation : Operation)
  | advance (caller now : Nat) (fails : Bool)
  | giveUp (caller : Nat)

def State.turn (state : State) (caller : Nat) (store : Store) : Turn → State
  | .goOn progress =>
    { state with store := store, callers := Function.update state.callers caller progress }
  | .return answer =>
    { store := store
      callers := Function.update state.callers caller .idle
      answers := answer :: state.answers }

/-- A process starts a call, makes the next repository call of one, or gives up
waiting because its context is done. -/
def State.step (state : State) : Action → Option State
  | .call caller operation =>
    if state.callers caller = .idle then
      some (state.turn caller state.store (.goOn operation.begin))
    else none
  | .advance caller now fails =>
    (advance state.store now fails (state.callers caller)).map fun (store, turn) =>
      state.turn caller store turn
  | .giveUp caller =>
    if state.callers caller = .waiting then
      some (state.turn caller state.store (.return (.failed .contextDone)))
    else none

end OpenExec.Approvals
