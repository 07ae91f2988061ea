import OpenExec.DecisionFinality

/-!
# What a call believes about its request

A call works on copies of the row of its request.
-/

namespace OpenExec.Approvals

variable (possible : RequestStatus → Prop)

/-- The copies of a request that a call holds have the status that the call gave them,
or one that the request may have had. -/
def Progress.Honest : Progress → Prop
  | .settling verdict request => request.status = verdict.status
  | .expiring request => request.status = .expired
  | .marking request => request.status = .expired
  | .lapsing request => request.status = .expired
  | .lookingUp request => possible request.status
  | .reporting request => possible request.status
  | _ => True

def Answer.Honest : Answer → Prop
  | .result outcome => outcome.approved = true → possible .approved ∨ possible .autoApproved
  | _ => True

def Turn.Honest : Turn → Prop
  | .goOn progress => progress.Honest possible
  | .return answer => answer.Honest possible

section

variable {possible : RequestStatus → Prop} {request : ApprovalRequest}

section

variable (isPossible : possible request.status)
include isPossible

theorem honest_of_approved
    (approved : request.isApproved) : possible .approved ∨ possible .autoApproved := by
  simp only [ApprovalRequest.isApproved, Bool.or_eq_true, beq_iff_eq] at approved
  rcases approved with status | status
  · exact .inl (status ▸ isPossible)
  · exact .inr (status ▸ isPossible)

theorem checkAfterMark_honest : (checkAfterMark request).Honest possible := by
  unfold checkAfterMark
  split
  · exact fun approved => absurd approved (by simp)
  · exact isPossible

theorem checkAfterRead_honest (now : Nat) : (checkAfterRead request now).Honest possible := by
  unfold checkAfterRead
  split
  · split
    · exact checkAfterMark_honest isPossible
    · next expires => exact ApprovalRequest.status_of_settle expires
  · exact checkAfterMark_honest isPossible

theorem waitAfterRead_honest (now : Nat) : (waitAfterRead request now).Honest possible := by
  unfold waitAfterRead
  split
  · split
    · exact fun approved => absurd approved (by simp)
    · next expires => exact ApprovalRequest.status_of_settle expires
  · split
    · trivial
    · exact isPossible

end

theorem decideAfterRead_honest (verdict : Verdict) (request : ApprovalRequest) (now : Nat) :
    (decideAfterRead verdict request now).Honest possible := by
  unfold decideAfterRead
  split
  · trivial
  · next applies => exact Verdict.status_of_apply applies

theorem decideAfterUpdate_honest (verdict : Verdict) :
    (decideAfterUpdate verdict).Honest possible := by
  unfold decideAfterUpdate
  split <;> trivial

theorem expireAfterList_honest (request : ApprovalRequest) (now : Nat) :
    (expireAfterList request now).Honest possible := by
  unfold expireAfterList
  split
  · trivial
  · next expires => exact ApprovalRequest.status_of_settle expires

end

/-- How a repository call may leave the status of the request. -/
inductive Written (progress : Progress) (before after : RequestStatus) : Prop
  | kept (same : after = before)
  | expired (isExpired : after = .expired)
  | settled (verdict : Verdict) (request : ApprovalRequest)
      (settles : progress = .settling verdict request) (wasPending : before = .pending)
      (status : after = verdict.status)

variable {progress : Progress} {now : Nat} {fails : Bool} {turn : Turn}

theorem advance_honest {possible : RequestStatus → Prop} {store next : Store}
    (expirable : possible .expired) (isPossible : possible store.request.status)
    (honest : progress.Honest possible)
    (taken : advance store now fails progress = some (next, turn)) :
    Written progress store.request.status next.request.status ∧ turn.Honest possible := by
  cases progress <;> simp only [advance] at taken
  case idle => cases taken
  case deciding verdict =>
    split at taken <;> cases taken
    · exact ⟨.kept rfl, trivial⟩
    · exact ⟨.kept rfl, decideAfterRead_honest verdict _ now⟩
  case settling verdict request =>
    split at taken <;> cases taken
    · exact ⟨.kept rfl, trivial⟩
    · next updated =>
      obtain ⟨pending, rfl⟩ := updateRequestStatus_ok (answered_ok updated)
      exact ⟨.settled verdict request rfl pending honest, decideAfterUpdate_honest verdict⟩
  case recording _ | recordingExpiry =>
    split at taken <;> cases taken
    · exact ⟨.kept rfl, trivial⟩
    · next recorded =>
      obtain ⟨_, rfl⟩ := createDecision_ok (answered_ok recorded)
      exact ⟨.kept rfl, trivial⟩
  case listing =>
    split at taken
    · cases taken
      exact ⟨.kept rfl, trivial⟩
    · split at taken <;> cases taken
      · exact ⟨.kept rfl, expireAfterList_honest _ now⟩
      · exact ⟨.kept rfl, trivial⟩
  case expiring request | lapsing request =>
    split at taken <;> cases taken
    · exact ⟨.kept rfl, trivial⟩
    · exact ⟨.expired honest, trivial⟩
  case checking =>
    split at taken <;> cases taken
    · exact ⟨.kept rfl, trivial⟩
    · exact ⟨.kept rfl, checkAfterRead_honest isPossible now⟩
  case marking request =>
    have stillPossible : possible request.status := by
      rw [show request.status = .expired from honest]
      exact expirable
    split at taken <;> cases taken
    · exact ⟨.kept rfl, checkAfterMark_honest stillPossible⟩
    · exact ⟨.expired honest, checkAfterMark_honest stillPossible⟩
  case lookingUp request | reporting request =>
    cases taken
    exact ⟨.kept rfl, fun approved => honest_of_approved honest approved⟩
  case waiting =>
    split at taken <;> cases taken
    · exact ⟨.kept rfl, trivial⟩
    · exact ⟨.kept rfl, waitAfterRead_honest isPossible now⟩
  case recordingLapse request =>
    split at taken <;> cases taken
    · exact ⟨.kept rfl, fun approved => absurd approved (by simp)⟩
    · next recorded =>
      obtain ⟨_, rfl⟩ := createDecision_ok (answered_ok recorded)
      exact ⟨.kept rfl, fun approved => absurd approved (by simp)⟩
  case extending expiresAt =>
    split at taken <;> cases taken
    · exact ⟨.kept rfl, trivial⟩
    · next extended =>
      exact ⟨.kept (extendRequestExpiration_ok (answered_ok extended)).1, trivial⟩

/-- The calls of a server that extends the time of its request and waits for it. -/
def Progress.Polls : Progress → Prop
  | .extending _ => True
  | .waiting => True
  | .lapsing _ => True
  | .recordingLapse _ => True
  | .reporting _ => True
  | _ => False

def Turn.Polls : Turn → Prop
  | .goOn progress => progress.Polls
  | .return _ => True

theorem waitAfterRead_polls (request : ApprovalRequest) (now : Nat) :
    (waitAfterRead request now).Polls := by
  unfold waitAfterRead
  split
  · split <;> trivial
  · split <;> trivial

theorem advance_polls {store next : Store} (polls : progress.Polls)
    (taken : advance store now fails progress = some (next, turn)) : turn.Polls := by
  cases progress with
  | extending expiresAt | lapsing request | recordingLapse request =>
    simp only [advance] at taken
    split at taken <;> cases taken <;> trivial
  | waiting =>
    simp only [advance] at taken
    split at taken <;> cases taken
    · trivial
    · exact waitAfterRead_polls _ now
  | reporting request =>
    cases taken
    trivial
  | _ => exact polls.elim

end OpenExec.Approvals
