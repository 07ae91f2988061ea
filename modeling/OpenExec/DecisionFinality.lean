import OpenExec.ApprovalRequests

/-!
# A decision on a request is final

The calls that settle a request compare and set its status.  The calls that find it
expired write back the copy they read, whatever is stored by then, so a decision is
final as long as such a write meets a request that is still pending or already
expired.
-/

namespace OpenExec.Approvals

open GuardedRuns ApprovalRequest Option List

variable {request : ApprovalRequest} {now caller : Nat} {verdict : Verdict} {store next : Store}
  {state : State} {action : Action}

variable {fails : Bool} {expiresAt : Nat} {decision : ApprovalDecision} {answer : Answer}
  {progress : Progress} {start : State}

def Store.Consistent (store : Store) : Prop :=
  ∀ decision, store.decision = some decision → decision.decision = store.request.status

/-- A settled status and a recorded decision stay. -/
structure Store.Keeps (store next : Store) : Prop where
  status : store.request.status ≠ .pending → next.request.status = store.request.status
  decision : store.decision ≠ none → next.decision = store.decision

/-- What a call in progress has stored or is about to store.  A waiting call whose
write failed may go on to record the expiry; this does no harm if the request has
expired or has a decision. -/
def Progress.Sound (store : Store) : Progress → Prop
  | .settling verdict request => request.status = verdict.status
  | .recording verdict => store.request.status = verdict.status
  | .expiring request => request.status = .expired
  | .marking request => request.status = .expired
  | .lapsing request => request.status = .expired
  | .recordingExpiry => store.request.status = .expired
  | .recordingLapse _ => store.request.status = .expired ∨ store.decision ≠ none
  | _ => True

def Answer.Sound (store : Store) : Answer → Prop
  | .done verdict => store.request.status = verdict.status
  | _ => True

def Turn.Sound (store : Store) : Turn → Prop
  | .goOn progress => progress.Sound store
  | .return answer => answer.Sound store

/-- An expired copy may be written over the request. -/
def Store.Open (store : Store) : Prop :=
  store.request.status = .pending ∨ store.request.status = .expired

/-- The condition on a repository call: the copy of an expired request is written back
only over a request that is pending or expired, and a waiting call, which records the
expiry even if this write fails, fails to write only if the request is expired or has
a decision. -/
def TimelyWrite (store : Store) (fails : Bool) : Progress → Prop
  | .expiring _ => fails = false → store.Open
  | .marking _ => fails = false → store.Open
  | .lapsing _ =>
    if fails then store.request.status = .expired ∨ store.decision ≠ none else store.Open
  | _ => True

def Timely (state : State) : Action → Prop
  | .advance caller _ fails => TimelyWrite state.store fails (state.callers caller)
  | _ => True

structure State.Sound (state : State) : Prop where
  row : state.store.Consistent
  callers : ∀ caller, (state.callers caller).Sound state.store
  answers : ∀ answer ∈ state.answers, answer.Sound state.store

/-- Seen from an earlier state of a run, the settled status and the acknowledged
verdicts stay, and the decision row names the stored status. -/
structure Final (state later : State) : Prop where
  status : state.store.request.status ≠ .pending →
    later.store.request.status = state.store.request.status
  acknowledged : ∀ verdict, Answer.done verdict ∈ state.answers →
    later.store.request.status = verdict.status
  row : later.store.Consistent

theorem Verdict.status_ne_pending (verdict : Verdict) : verdict.status ≠ .pending := by
  cases verdict <;> simp [Verdict.status]

@[simp]
theorem Verdict.decision_decision (verdict : Verdict) :
    verdict.decision.decision = verdict.status := by
  cases verdict <;> rfl

theorem Store.Keeps.refl (store : Store) : store.Keeps store :=
  ⟨fun _ => rfl, fun _ => rfl⟩

theorem ApprovalRequest.status_of_settle {status : RequestStatus} {settled : ApprovalRequest}
    (settles : request.settle status now = .ok settled) : settled.status = status := by
  unfold settle at settles
  split at settles
  · cases settles
  · rw [← Except.ok.inj settles]

theorem Verdict.status_of_apply {settled : ApprovalRequest}
    (applies : verdict.apply request now = .ok settled) : settled.status = verdict.status := by
  cases verdict with
  | approve decidedBy reason | reject decidedBy reason =>
    simp only [Verdict.apply] at applies
    split at applies
    · cases applies
    · exact status_of_settle applies
  | cancel reason => exact status_of_settle applies

theorem decideAfterRead_sound (store : Store) (verdict : Verdict) (request : ApprovalRequest)
    (now : Nat) : (decideAfterRead verdict request now).Sound store := by
  unfold decideAfterRead
  split
  · trivial
  · next applies => exact Verdict.status_of_apply applies

theorem decideAfterUpdate_sound (settled : store.request.status = verdict.status) :
    (decideAfterUpdate verdict).Sound store := by
  unfold decideAfterUpdate
  split
  · trivial
  · exact settled

theorem expireAfterList_sound (store : Store) (request : ApprovalRequest) (now : Nat) :
    (expireAfterList request now).Sound store := by
  unfold expireAfterList
  split
  · trivial
  · next expires => exact status_of_settle expires

theorem checkAfterMark_sound (store : Store) (request : ApprovalRequest) :
    (checkAfterMark request).Sound store := by
  unfold checkAfterMark
  split <;> trivial

theorem checkAfterRead_sound (store : Store) (request : ApprovalRequest) (now : Nat) :
    (checkAfterRead request now).Sound store := by
  unfold checkAfterRead
  split
  · split
    · exact checkAfterMark_sound store request
    · next expires => exact status_of_settle expires
  · exact checkAfterMark_sound store request

theorem waitAfterRead_sound (store : Store) (request : ApprovalRequest) (now : Nat) :
    (waitAfterRead request now).Sound store := by
  unfold waitAfterRead
  split
  · split
    · trivial
    · next expires => exact status_of_settle expires
  · split <;> trivial

theorem answered_ok {α : Type} {fault : Fault} {answer : Except Fault α} {value : α}
    (ok : answered fault fails answer = .ok value) : answer = .ok value := by
  unfold answered at ok
  split at ok
  · cases ok
  · exact ok

theorem updateRequestStatus_ok {expectedStatus : RequestStatus}
    (ok : store.updateRequestStatus request expectedStatus = .ok next) :
    store.request.status = expectedStatus ∧ next = { store with request := request } := by
  unfold Store.updateRequestStatus at ok
  split at ok
  · next expected => exact ⟨expected, (Except.ok.inj ok).symm⟩
  · cases ok

theorem extendRequestExpiration_ok {updatedAt : Nat}
    (ok : store.extendRequestExpiration expiresAt updatedAt = .ok next) :
    next.request.status = store.request.status ∧ next.decision = store.decision := by
  unfold Store.extendRequestExpiration at ok
  split at ok
  · rw [← Except.ok.inj ok]
    exact ⟨rfl, rfl⟩
  · cases ok

theorem createDecision_ok (ok : store.createDecision decision = .ok next) :
    store.decision = none ∧ next = { store with decision := some decision } := by
  unfold Store.createDecision at ok
  split at ok
  · next free => exact ⟨free, (Except.ok.inj ok).symm⟩
  · cases ok

structure Steady (store next : Store) (turn : Turn) : Prop where
  keeps : store.Keeps next
  row : next.Consistent
  turn : turn.Sound next

theorem Steady.same {turn : Turn} (row : store.Consistent) (sound : turn.Sound store) :
    Steady store store turn :=
  ⟨Store.Keeps.refl store, row, sound⟩

theorem Store.Consistent.of_pending (row : store.Consistent)
    (pending : store.request.status = .pending) (request : ApprovalRequest) :
    Store.Consistent { store with request := request } := by
  intro decision isDecision
  have final := decision.final
  rw [row decision isDecision, pending] at final
  exact absurd final (by decide)

theorem steady_write {turn : Turn} (row : store.Consistent) (expires : request.status = .expired)
    (timely : store.Open) (sound : turn.Sound (store.updateRequest request)) :
    Steady store (store.updateRequest request) turn := by
  rcases timely with pending | expired
  · exact ⟨⟨fun settled => absurd pending settled, fun _ => rfl⟩,
      row.of_pending pending request, sound⟩
  · refine ⟨⟨fun _ => expires.trans expired.symm, fun _ => rfl⟩, fun decision isDecision => ?_,
      sound⟩
    exact (row decision isDecision).trans (expired.trans expires.symm)

theorem steady_record (recorded : store.createDecision decision = .ok next)
    (names : store.decision = none → store.request.status = decision.decision)
    (sound : store.request.status = decision.decision → answer.Sound next) :
    Steady store next (.return answer) := by
  obtain ⟨free, rfl⟩ := createDecision_ok recorded
  refine ⟨⟨fun _ => rfl, fun taken => absurd free taken⟩, fun other isOther => ?_,
    sound (names free)⟩
  rw [← Option.some.inj isOther]
  exact (names free).symm

theorem steady_settle (row : store.Consistent) (settles : request.status = verdict.status)
    (updated : store.updateRequestStatus request .pending = .ok next) :
    Steady store next (decideAfterUpdate verdict) := by
  obtain ⟨pending, rfl⟩ := updateRequestStatus_ok updated
  exact ⟨⟨fun settled => absurd pending settled, fun _ => rfl⟩, row.of_pending pending request,
    decideAfterUpdate_sound settles⟩

theorem steady_extend (row : store.Consistent)
    (extended : store.extendRequestExpiration expiresAt now = .ok next) :
    Steady store next (.return .extended) := by
  obtain ⟨sameStatus, sameDecision⟩ := extendRequestExpiration_ok extended
  refine ⟨⟨fun _ => sameStatus, fun _ => sameDecision⟩, fun decision isDecision => ?_, trivial⟩
  rw [sameStatus]
  exact row decision (sameDecision ▸ isDecision)

theorem advance_steady {turn : Turn} (row : store.Consistent) (sound : progress.Sound store)
    (timely : TimelyWrite store fails progress)
    (taken : advance store now fails progress = some (next, turn)) : Steady store next turn := by
  cases progress <;> simp only [advance] at taken
  case idle => cases taken
  case deciding verdict =>
    split at taken <;> cases taken
    · exact .same row trivial
    · exact .same row (decideAfterRead_sound _ verdict _ now)
  case settling verdict request =>
    split at taken <;> cases taken
    · exact .same row trivial
    · next updated => exact steady_settle row sound (answered_ok updated)
  case recording verdict =>
    split at taken <;> cases taken
    · exact .same row trivial
    · next recorded =>
      have named := verdict.decision_decision
      obtain ⟨_, rfl⟩ := createDecision_ok (answered_ok recorded)
      exact steady_record (answered_ok recorded) (fun _ => sound.trans named.symm)
        (fun _ => sound)
  case listing =>
    split at taken
    · cases taken
      exact .same row trivial
    · split at taken <;> cases taken
      · exact .same row (expireAfterList_sound _ _ now)
      · exact .same row trivial
  case expiring request =>
    split at taken <;> cases taken
    · exact .same row trivial
    · next written => exact steady_write row sound (timely (by simpa using written)) sound
  case recordingExpiry =>
    split at taken <;> cases taken
    · exact .same row trivial
    · next recorded =>
      exact steady_record (answered_ok recorded) (fun _ => sound) (fun _ => trivial)
  case checking =>
    split at taken <;> cases taken
    · exact .same row trivial
    · exact .same row (checkAfterRead_sound _ _ now)
  case marking request =>
    split at taken <;> cases taken
    · exact .same row (checkAfterMark_sound _ request)
    · next written =>
      exact steady_write row sound (timely (by simpa using written))
        (checkAfterMark_sound _ request)
  case lookingUp request | reporting request =>
    cases taken
    exact .same row trivial
  case waiting =>
    split at taken <;> cases taken
    · exact .same row trivial
    · exact .same row (waitAfterRead_sound _ _ now)
  case lapsing request =>
    simp only [TimelyWrite] at timely
    split at taken <;> cases taken
    · next failed =>
      rw [if_pos failed] at timely
      exact .same row timely
    · next written =>
      rw [if_neg written] at timely
      exact steady_write row sound timely (.inl sound)
  case recordingLapse request =>
    split at taken <;> cases taken
    · exact .same row trivial
    · next recorded =>
      exact steady_record (answered_ok recorded)
        (fun free => sound.resolve_right fun taken => taken free) (fun _ => trivial)
  case extending expiresAt =>
    split at taken <;> cases taken
    · exact .same row trivial
    · next extended => exact steady_extend row (answered_ok extended)

theorem Store.Keeps.expired (keeps : store.Keeps next) (expired : store.request.status = .expired) :
    next.request.status = .expired :=
  (keeps.status (by simp [expired])).trans expired

theorem Store.Keeps.settled (keeps : store.Keeps next)
    (settled : store.request.status = verdict.status) : next.request.status = verdict.status :=
  (keeps.status (settled ▸ verdict.status_ne_pending)).trans settled

theorem Progress.Sound.mono (sound : progress.Sound store) (keeps : store.Keeps next) :
    progress.Sound next := by
  cases progress with
  | recording verdict => exact keeps.settled sound
  | recordingExpiry => exact keeps.expired sound
  | recordingLapse request =>
    refine sound.imp keeps.expired fun recorded => ?_
    rw [keeps.decision recorded]
    exact recorded
  | settling verdict request | expiring request | marking request | lapsing request => exact sound
  | _ => trivial

theorem Answer.Sound.mono (sound : answer.Sound store) (keeps : store.Keeps next) :
    answer.Sound next := by
  cases answer with
  | done verdict => exact keeps.settled sound
  | _ => trivial

theorem Operation.begin_sound (store : Store) (operation : Operation) :
    operation.begin.Sound store := by
  cases operation <;> trivial

theorem State.Sound.turn {turn : Turn} (sound : state.Sound)
    (steady : Steady state.store next turn) : (state.turn caller next turn).Sound := by
  have others : ∀ other, (state.callers other).Sound next :=
    fun other => (sound.callers other).mono steady.keeps
  have earlier : ∀ answer ∈ state.answers, answer.Sound next :=
    fun answer isAnswer => (sound.answers answer isAnswer).mono steady.keeps
  have last := steady.turn
  cases turn with
  | goOn progress =>
    refine ⟨steady.row, fun other => ?_, earlier⟩
    simp only [State.turn, Function.update_apply]
    split
    · exact last
    · exact others other
  | «return» answer =>
    refine ⟨steady.row, fun other => ?_, fun other isAnswer => ?_⟩
    · simp only [State.turn, Function.update_apply]
      split
      · trivial
      · exact others other
    · rcases mem_cons.mp isAnswer with rfl | isEarlier
      · exact last
      · exact earlier other isEarlier

@[simp]
theorem State.turn_store (state : State) (caller : Nat) (store : Store) (turn : Turn) :
    (state.turn caller store turn).store = store := by
  cases turn <;> rfl

theorem step_steady {next : State} (sound : state.Sound) (timely : Timely state action)
    (taken : state.step action = some next) :
    ∃ caller store turn, Steady state.store store turn ∧ next = state.turn caller store turn := by
  cases action with
  | call caller operation =>
    simp only [State.step, ite_none_right_eq_some, Option.some.injEq] at taken
    refine ⟨caller, state.store, .goOn operation.begin, ?_, taken.2.symm⟩
    exact .same sound.row (operation.begin_sound _)
  | advance caller now fails =>
    obtain ⟨⟨store, turn⟩, advanced, rfl⟩ := map_eq_some_iff.mp taken
    exact ⟨caller, store, turn, advance_steady sound.row (sound.callers caller) timely advanced,
      rfl⟩
  | giveUp caller =>
    simp only [State.step, ite_none_right_eq_some, Option.some.injEq] at taken
    exact ⟨caller, state.store, .return (.failed .contextDone), .same sound.row trivial,
      taken.2.symm⟩

theorem sound_step {next : State} (sound : state.Sound) (timely : Timely state action)
    (taken : state.step action = some next) : next.Sound := by
  obtain ⟨caller, store, turn, steady, rfl⟩ := step_steady sound timely taken
  exact sound.turn steady

theorem keeps_step {next : State} (sound : state.Sound) (timely : Timely state action)
    (taken : state.step action = some next) : state.store.Keeps next.store := by
  obtain ⟨caller, store, turn, steady, rfl⟩ := step_steady sound timely taken
  rw [State.turn_store]
  exact steady.keeps

theorem Store.Keeps.trans {middle : Store} (first : store.Keeps middle)
    (second : middle.Keeps next) : store.Keeps next := by
  refine ⟨fun settled => ?_, fun recorded => ?_⟩
  · have same := first.status settled
    exact (second.status (same ▸ settled)).trans same
  · have same := first.decision recorded
    exact (second.decision (same ▸ recorded)).trans same

theorem sound_initial (row : store.Consistent) : (State.initial store).Sound :=
  ⟨row, fun _ => trivial, fun _ isAnswer => absurd isAnswer not_mem_nil⟩

theorem sound_reachable (sound : start.Sound)
    (reachable : Reachable State.step Timely start state) : state.Sound :=
  reachable.invariant sound sound_step

theorem keeps_reachable (sound : start.Sound)
    (reachable : Reachable State.step Timely start state) : start.store.Keeps state.store := by
  induction reachable with
  | initial => exact Store.Keeps.refl _
  | after earlier timely taken ih =>
    exact ih.trans (keeps_step (sound_reachable sound earlier) timely taken)

theorem final_of_sound {later : State} (sound : state.Sound)
    (continued : Reachable State.step Timely state later) : Final state later := by
  have keeps := keeps_reachable sound continued
  refine ⟨keeps.status, fun verdict isAnswer => ?_, (sound_reachable sound continued).row⟩
  exact keeps.settled (sound.answers _ isAnswer)

theorem not_final_of_write {turn : Turn} (expires : request.status = .expired)
    (late : ¬ state.store.Open) :
    ¬ Final state (state.turn caller (state.store.updateRequest request) turn) := by
  intro final
  have same := final.status fun pending => late (.inl pending)
  rw [State.turn_store] at same
  exact late (.inr (same.symm.trans expires))

theorem not_final_of_record {next : State} (now : Nat)
    (unsettled : state.store.request.status ≠ .expired) (free : state.store.decision = none)
    (isNext : next = state.turn caller state.store (.goOn (.recordingLapse request))) :
    ∃ later, next.step (.advance caller now false) = some later ∧ ¬ Final state later := by
  have recorded : advance next.store now false (next.callers caller) =
      some ({ state.store with decision := some expiredWhileWaiting },
        .return (waitAfterExpiry request)) := by
    simp [isNext, State.turn, advance, answered, Store.createDecision, free]
  refine ⟨_, by rw [State.step, recorded]; rfl, fun final => ?_⟩
  exact unsettled (final.row _ rfl).symm

theorem not_final_of_late {next : State} (sound : state.Sound) (late : ¬ Timely state action)
    (taken : state.step action = some next) :
    ∃ later, Reachable State.step anyStep next later ∧ ¬ Final state later := by
  cases action with
  | call caller operation | giveUp caller => exact absurd trivial late
  | advance caller now fails =>
    obtain ⟨⟨store, turn⟩, advanced, rfl⟩ := map_eq_some_iff.mp taken
    have own := sound.callers caller
    simp only [Timely] at late
    generalize state.callers caller = progress at advanced own late
    cases progress with
    | expiring request | marking request =>
      simp only [TimelyWrite, Classical.not_imp] at late
      rw [late.1] at advanced
      cases advanced
      exact ⟨_, .initial, not_final_of_write own late.2⟩
    | lapsing request =>
      simp only [TimelyWrite] at late
      cases fails with
      | false =>
        cases advanced
        exact ⟨_, .initial, not_final_of_write own late⟩
      | true =>
        cases advanced
        simp only [if_true, not_or, not_not] at late
        obtain ⟨later, recorded, broken⟩ :=
          not_final_of_record now late.1 late.2 rfl
        exact ⟨later, .after .initial trivial recorded, broken⟩
    | _ => exact absurd trivial late

/-- A decision is final along every run whose writes of expired copies are in time,
and no other write can be allowed. -/
theorem decision_final (store : Store) (row : store.Consistent) :
    (∀ state later, Reachable State.step Timely (State.initial store) state →
        Reachable State.step Timely state later → Final state later) ∧
      ∀ state action next, Reachable State.step Timely (State.initial store) state →
        ¬ Timely state action → state.step action = some next →
        ∃ later, Reachable State.step anyStep next later ∧ ¬ Final state later := by
  constructor
  · intro state later reachable continued
    exact final_of_sound (sound_reachable (sound_initial row) reachable) continued
  · intro state action next reachable late taken
    exact not_final_of_late (sound_reachable (sound_initial row) reachable) late taken

def pendingStore : Store :=
  ⟨⟨.pending, none, some 10, 0⟩, none⟩

theorem decision_final_pending :
    ∃ state, Reachable State.step Timely (State.initial pendingStore) state ∧
      Answer.done (.approve "operator" "") ∈ state.answers ∧
      ∀ later,
        Reachable State.step Timely state later → later.store.request.status = .approved := by
  have row : pendingStore.Consistent :=
    fun decision isDecision => absurd isDecision.symm (some_ne_none decision)
  have started := reachable_start State.step Timely (State.initial pendingStore)
  have begun := started.next (.call 0 (.decide (.approve "operator" ""))) trivial rfl
  have read := begun.next (.advance 0 9 false) trivial rfl
  have settled := read.next (.advance 0 9 false) trivial rfl
  have recorded := settled.next (.advance 0 9 false) trivial rfl
  refine ⟨_, recorded, mem_cons_self, fun later continued => ?_⟩
  exact ((decision_final pendingStore row).1 _ later recorded continued).acknowledged _
    mem_cons_self

/-- An operator reads a request before it expires and a waiting server after that; the
server then writes its copy over the approval that the operator was told of. -/
def lateExpiry : List Action :=
  [.call 0 (.decide (.approve "operator" "")), .call 1 .waitForApproval, .advance 0 9 false,
    .advance 1 11 false, .advance 0 11 false, .advance 0 11 false, .advance 1 11 false]

theorem approval_is_overwritten :
    (run State.step anyStep (State.initial pendingStore) (lateExpiry.take 6)).map
        (fun state => (state.store.request.status, state.answers)) =
      some (.approved, [.done (.approve "operator" "")]) ∧
    (run State.step anyStep (State.initial pendingStore) lateExpiry).map
        (fun state => (state.store.request.status,
          state.store.decision.map ApprovalDecision.decision)) =
      some (.expired, some .approved) :=
  ⟨rfl, rfl⟩

end OpenExec.Approvals
