import OpenExec.RequestAdmission

/-!
# The chains of one pass

A pass may start a limited number of request chains from its handover.
-/

namespace OpenExec.Execution

open Agent GuardedRuns Provider List

variable {provider : Provider} {request : RunRequest} {world : World} {state next : LoopState}
  {brought : Nat} {stored : Option HandoverData}

def Provider.chainsBrought (provider : Provider) (stored : Option HandoverData) : Nat :=
  if provider.policy.disabled then 0
  else
    match (newRunState stored).load with
    | none => 0
    | some run => run.data.chains

def Rebuilt (messages : List Message) : Prop :=
  ∃ chains rendered instructions, messages = handoverMessage chains false rendered :: instructions ∧
    ∀ message ∈ instructions, message = newTextMessage .user checkpointInstruction

def JudgedHard (provider : Provider) (request : RunRequest) (state : LoopState) : Prop :=
  (provider.policy.admitSize (estimateRequest (provider.roundRequest request state))).1 = .hard

def RefusedForSize (provider : Provider) (request : RunRequest) (world : World)
    (state : LoopState) : Prop :=
  ∃ admitted fault, AdmittedRound provider request world state admitted ∧
    (completeWithEmptyRecovery admitted (provider.roundRequest request admitted)
      world.first world.second).2 = .error fault ∧
    sizeFailure fault (estimateRequest (provider.roundRequest request state)).tokens
      provider.policy = true

def Checkpointed (state : LoopState) : Prop :=
  ∃ result, state.result = some result ∧ result.reason = some .contextCheckpoint

/-- A pass ends as a checkpoint only if the request rebuilt from the handover is too
large, or the pass has started as many chains as it may. -/
def EndsForCause (provider : Provider) (request : RunRequest) (world : World)
    (state next : LoopState) : Prop :=
  Checkpointed next → Rebuilt state.messages ∧
        (JudgedHard provider request state ∨ RefusedForSize provider request world state) ∨
      provider.policy.maxChains ≤ state.started

structure ChainsSound (brought : Nat) (state : LoopState) : Prop where
  chains : state.run.isSome = true → state.chains = brought + state.started
  rebuilt : state.fresh = true → Rebuilt state.messages
  begun : brought ≠ 0 → 1 ≤ state.started

theorem not_checkpointed_of_running (running : state.result = none) : ¬ Checkpointed state := by
  rintro ⟨result, isResult, _⟩
  rw [running] at isResult
  cases isResult

theorem not_checkpointed_finish {event : Event} {result : Result}
    (other : result.reason ≠ some .contextCheckpoint) :
    ¬ Checkpointed (state.finish event result) := by
  rintro ⟨last, isLast, isReason⟩
  cases isLast
  exact other isReason

theorem restartOrEnd_sound {why ending : String} (running : state.result = none)
    (tracked : state.run.isSome) (sound : ChainsSound brought state) :
    ((provider.restartOrEnd world state why ending).result = none →
      ChainsSound brought (provider.restartOrEnd world state why ending)) ∧
    (Checkpointed (provider.restartOrEnd world state why ending) →
      state.fresh = true ∨ provider.policy.maxChains ≤ brought + state.started) := by
  rcases restartOrEnd_cases why ending tracked with
    ⟨_, _, run, event, chains, _, isNext⟩ | ⟨stuck, isEnd⟩
  · rw [isNext]
    refine ⟨fun _ => ⟨?_, fun _ => ?_, fun _ => Nat.le_add_left 1 _⟩,
      fun checkpoint => absurd checkpoint (not_checkpointed_of_running running)⟩
    · intro _
      have before := sound.chains tracked
      simp only [LoopState.chains] at chains before ⊢
      omega
    · exact ⟨_, _, [], rfl, fun _ isMessage => absurd isMessage not_mem_nil⟩
  · rw [isEnd, ← sound.chains tracked]
    exact ⟨by simp [endCheckpoint, LoopState.finish], fun _ => stuck⟩

section

variable (sound : ChainsSound brought state)
include sound

theorem ChainsSound.admitted {admitted : LoopState}
    (admits : AdmittedRound provider request world state admitted) :
    ChainsSound brought admitted := by
  have steady := admits.steady
  refine ⟨fun tracked => ?_, fun fresh => ?_, steady.started.symm ▸ sound.begun⟩
  · rw [steady.run.chains, steady.started]
    exact sound.chains (steady.run.isSome ▸ tracked)
  · have before := sound.rebuilt (steady.fresh ▸ fresh)
    cases admits with
    | unchecked _ | asIs _ _ => exact before
    | asked _ _ =>
      obtain ⟨chains, rendered, instructions, isMessages, isInstruction⟩ := before
      refine ⟨chains, rendered, instructions ++ [newTextMessage .user checkpointInstruction],
        ?_, fun message isMessage => ?_⟩
      · simp [askCheckpoint, LoopState.emit, isMessages]
      · rcases mem_append.mp isMessage with earlier | isLast
        · exact isInstruction message earlier
        · exact mem_singleton.mp isLast

theorem ChainsSound.sent {allowed : List Request}
    (sends : Sent allowed state next) : ChainsSound brought next := by
  obtain ⟨requests, usage, _, _, rfl⟩ := sends
  exact { sound with }

/-- A step keeps the counters sound, and ends the pass as a checkpoint only for the size
of the rebuilt request or for the chains of all passes. -/
theorem chains_stepped (running : state.result = none)
    (stepped : Stepped provider request world state next) :
    (next.result = none → ChainsSound brought next) ∧ (Checkpointed next → Rebuilt state.messages ∧
            (JudgedHard provider request state ∨ RefusedForSize provider request world state) ∨
          provider.policy.maxChains ≤ brought + state.started) := by
  have ended {cause : Prop} {last : LoopState} {event : Event} {result : Result}
      (other : result.reason ≠ some .contextCheckpoint) :
      ((last.finish event result).result = none → ChainsSound brought (last.finish event result)) ∧
        (Checkpointed (last.finish event result) → cause) := by
    refine ⟨fun unfinished => absurd unfinished (by simp [LoopState.finish]), fun checkpoint => ?_⟩
    exact absurd checkpoint (not_checkpointed_finish other)
  cases stepped with
  | cancelled => exact ended (by simp)
  | oversized _ tracked hard =>
    obtain ⟨kept, cause⟩ := restartOrEnd_sound running tracked sound
    refine ⟨kept, fun checkpoint => (cause checkpoint).imp_left fun fresh => ?_⟩
    exact ⟨sound.rebuilt fresh, .inl hard⟩
  | @failed admitted sent tokens fault _ admits estimated sends fails =>
    unfold failRound
    split
    · next size =>
      simp only [Bool.and_eq_true] at size
      have steady := admits.steady.trans sends.steady
      obtain ⟨kept, cause⟩ := restartOrEnd_sound (steady.result.trans running) size.1.1
        ((sound.admitted admits).sent sends)
      rw [steady.fresh, steady.started] at cause
      refine ⟨kept, fun checkpoint => (cause checkpoint).imp_left fun fresh => ?_⟩
      have tracked : state.run.isSome := steady.run.isSome ▸ size.1.1
      rw [estimated tracked] at size
      exact ⟨sound.rebuilt fresh, .inr ⟨admitted, fault, admits, fails, size.2⟩⟩
    · exact ended (by simp)
  | @answered admitted sent response _ admits sends =>
    rcases takeResponse_cases provider world sent response with
      ⟨fault, isEnd⟩ | isEnd | ⟨external, _, ⟨run, _, _, same, _, rfl⟩, isRound⟩
    · rw [isEnd]
      exact ended (by simp)
    · rw [isEnd]
      exact ended (by simp)
    · rw [isRound]
      have steady := admits.steady.trans sends.steady
      have counters := (sound.admitted admits).sent sends
      refine ⟨fun _ => ⟨fun tracked => ?_, fun fresh => ?_, counters.begun⟩, fun checkpoint => ?_⟩
      · have before := counters.chains (same.isSome ▸ tracked)
        exact (SameChains.chains same).trans before
      · simp [LoopState.countRound, LoopState.shown, LoopState.showTexts] at fresh
      · exact absurd checkpoint (not_checkpointed_of_running (steady.result.trans running))
  | @synthesized _ sent _ answer _ _ _ | @resynthesized _ sent answer _ _ _ _ _ =>
    rcases conclude_cases provider world sent answer with
      ⟨fault, isEnd⟩ | ⟨message, isEnd⟩ | ⟨response, message, isEnd⟩ <;>
    · rw [isEnd]
      exact ended (by simp)

end

theorem chainsBrought_of_load {loaded : RunState} (enabled : provider.policy.disabled = false)
    (isLoaded : (newRunState stored).load = some loaded) :
    provider.chainsBrought stored = loaded.data.chains := by
  simp [chainsBrought, enabled, isLoaded]

theorem chainsBrought_of_fresh
    (fresh : (newRunState stored).load = none) : provider.chainsBrought stored = 0 := by
  simp [chainsBrought, fresh]

theorem chainsSound_start (provider : Provider) (request : RunRequest) (world : World)
    (stored : Option HandoverData) :
    ChainsSound (provider.chainsBrought stored) (provider.start request world stored) := by
  rcases start_cases provider request world stored with
    ⟨disabled, isStart⟩ | ⟨_, fresh, isStart⟩ |
      ⟨loaded, run, _, enabled, isLoaded, chains, _, isStart⟩
  · rw [isStart]
    refine ⟨fun tracked => absurd tracked (by simp [opening]),
      fun fresh => absurd fresh (by simp [opening]), fun brings => ?_⟩
    exact absurd (by simp [chainsBrought, disabled]) brings
  · rw [isStart, chainsBrought_of_fresh fresh]
    exact ⟨fun _ => rfl, fun fresh => absurd fresh (by simp [opening]),
      fun brings => absurd rfl brings⟩
  · rw [isStart, chainsBrought_of_load enabled isLoaded]
    refine ⟨fun _ => chains, fun _ => ?_, fun _ => Nat.le_refl 1⟩
    exact ⟨_, _, [], rfl, fun _ isMessage => absurd isMessage not_mem_nil⟩

theorem chainsSound_reachable {opening : World}
    (reachable : Reachable (provider.step request) anyStep
      (provider.start request opening stored) state) (running : state.result = none) :
    ChainsSound (provider.chainsBrought stored) state := by
  have always : state.result = none → ChainsSound (provider.chainsBrought stored) state := by
    apply reachable.invariant
    · exact fun _ => chainsSound_start provider request opening stored
    · intro state world next known _ taken
      obtain ⟨running, stepped⟩ := stepped_of_step taken
      exact (chains_stepped (known running) running stepped).1
  exact always running

/-- The chains of the handover count against a pass only if earlier passes counted some
and the limit allows more than one. -/
def Provider.Unburdened (provider : Provider) (stored : Option HandoverData) : Prop :=
  provider.chainsBrought stored = 0 ∨ provider.policy.maxChains ≤ 1

theorem restart_isSome_iff (provider : Provider) (world : World) (state : LoopState)
    (why : String) : (provider.restart world state why).isSome = true ↔
      state.fresh = false ∧ state.chains < provider.policy.maxChains := by
  unfold restart
  split
  · next stays =>
    simp only [Bool.or_eq_true, decide_eq_true_eq] at stays
    simp only [Option.isSome_none, Bool.false_eq_true, false_iff, not_and]
    intro fresh
    simp only [fresh, Bool.false_eq_true, false_or] at stays
    omega
  · next goes =>
    simp only [Bool.or_eq_true, decide_eq_true_eq, not_or, Bool.not_eq_true] at goes
    exact ⟨fun _ => ⟨goes.1, by omega⟩, fun _ => rfl⟩

/-- A pass without a burden ends as a checkpoint only for cause, and can restart its
chain as often as the limit says.  In every pass, the restarts that are left are those
that the earlier passes left. -/
theorem chains_of_one_pass (provider : Provider) (request : RunRequest) (opening : World)
    (stored : Option HandoverData) : (provider.Unburdened stored → ∀ state world next,
      Reachable (provider.step request) anyStep (provider.start request opening stored) state →
      provider.step request state world = some next →
      EndsForCause provider request world state next ∧
        (state.run.isSome = true → state.fresh = false → state.started < provider.policy.maxChains →
          ∀ why, (provider.restart world state why).isSome = true)) ∧
    ∀ state world,
      Reachable (provider.step request) anyStep (provider.start request opening stored) state →
      state.result = none → state.run.isSome = true → state.fresh = false →
      ∀ why, ((provider.restart world state why).isSome = true ↔
        provider.chainsBrought stored + state.started < provider.policy.maxChains) := by
  constructor
  · intro unburdened state world next reachable taken
    obtain ⟨running, stepped⟩ := stepped_of_step taken
    have sound := chainsSound_reachable reachable running
    have enough : provider.policy.maxChains ≤ provider.chainsBrought stored + state.started →
        provider.policy.maxChains ≤ state.started := by
      intro limit
      have begun := sound.begun
      rcases unburdened with none | one <;> omega
    refine ⟨fun checkpoint => ?_, fun tracked fresh room why => ?_⟩
    · exact ((chains_stepped sound running stepped).2 checkpoint).imp_right enough
    · refine (restart_isSome_iff provider world state why).mpr ⟨fresh, ?_⟩
      have chains := sound.chains tracked
      omega
  · intro state world reachable running tracked fresh why
    rw [restart_isSome_iff, (chainsSound_reachable reachable running).chains tracked]
    exact ⟨And.right, fun room => ⟨fresh, room⟩⟩

def wideProvider : Provider where
  tools := [⟨"look", "Look.", .absent⟩]
  maxSteps := 3
  policy := ⟨false, 1000000, 2000000, 5000000, 0, 12288, 2⟩

theorem chains_of_one_pass_first : ∃ state, Reachable (wideProvider.step lookRequest) anyStep
        (wideProvider.start lookRequest lookWorld none) state ∧
      (wideProvider.restart lookWorld state "size").isSome = true := by
  have started := reachable_start (wideProvider.step lookRequest) anyStep
    (wideProvider.start lookRequest lookWorld none)
  have looked := started.next lookWorld trivial rfl
  refine ⟨_, looked, ?_⟩
  refine ((chains_of_one_pass wideProvider lookRequest lookWorld none).1 (.inl rfl) _ lookWorld
    _ looked (step_of_running ?_)).2 ?_ ?_ ?_ "size"
  · decide +kernel
  · decide +kernel
  · decide +kernel
  · decide +kernel

def earlierPass : HandoverData := ⟨.checkpointed, [], 1, 0, 1, 0⟩

def resumedLook : Request where
  model := "m"
  messages := [handoverMessage 2 false "# Handover"]
  system := ""
  tools := [lookTool]
  toolChoice := "auto"

/-- A provider with two chains, whose hard threshold is the size of that request. -/
def resumedProvider : Provider where
  tools := [lookTool]
  maxSteps := 3
  policy := { snugPolicy resumedLook ⟨0, 0, 0⟩ with maxChains := 2 }

/-- The pass before and after its first round. -/
def resumedOpening : LoopState :=
  resumedProvider.start lookRequest lookWorld (some earlierPass)

def resumedLooked : LoopState :=
  resumedProvider.takeResponse lookWorld
    { resumedOpening with
      dispatched := resumedOpening.dispatched ++
        [resumedProvider.roundRequest lookRequest resumedOpening] } lookCall

theorem resumedLooked_messages : resumedLooked.messages =
      [handoverMessage 2 false "# Handover", ⟨.assistant, lookCall.content, none⟩,
        newToolResultMessage "1" "seen" none] :=
  rfl

theorem step_resumedOpening :
    resumedProvider.step lookRequest resumedOpening lookWorld = some resumedLooked := by
  have ok : resumedProvider.policy.admitSize
      (estimateRequest (resumedProvider.roundRequest lookRequest resumedOpening)) = (.ok, "") :=
    snugPolicy_admitSize resumedLook ⟨0, 0, 0⟩
  have valid : validateTransportConversation resumedOpening.messages = .ok () :=
    handoverMessage_valid 2 false "# Handover"
  rw [step_of_running rfl, if_pos (by decide),
    iterate_of_answer rfl (admitRound_of_ok rfl ok) valid rfl rfl]
  rfl

theorem resumedLooked_hard : JudgedHard resumedProvider lookRequest resumedLooked := by
  have larger : resumedLook.Larger (resumedProvider.roundRequest lookRequest resumedLooked) := by
    have answer := @larger_message resumedLook ⟨.assistant, lookCall.content, none⟩ rfl rfl
      (cons_ne_nil _ _)
    exact answer.trans (@larger_message _ (newToolResultMessage "1" "seen" none)
      answer.marshals.2 rfl (cons_ne_nil _ _))
  have limit : resumedProvider.policy.hardTokens = (estimateRequest resumedLook).tokens :=
    Int.add_zero _
  refine (admit_hard_iff _ _).mpr (.inr (.inl ?_))
  rw [limit]
  exact larger.tokens

/-- A resumed pass ends at its first long conversation, which holds more than the
handover: it has started one chain, from the handover, and may start two. -/
theorem resumed_pass_ends_early : ∃ looked ended, resumedProvider.step lookRequest
        (resumedProvider.start lookRequest lookWorld (some earlierPass)) lookWorld = some looked ∧
      resumedProvider.step lookRequest looked lookWorld = some ended ∧
      ended.result = some { outcome := .inconclusive, reason := some .contextCheckpoint } ∧
      ¬ EndsForCause resumedProvider lookRequest lookWorld looked ended := by
  obtain ⟨why, isEnd⟩ := @iterate_of_hard _ _ lookWorld _ rfl rfl resumedLooked_hard
  have ends : resumedProvider.step lookRequest resumedLooked lookWorld =
      some (endCheckpoint lookWorld resumedLooked why) := by
    rw [step_of_running rfl, if_pos (by decide), isEnd]
    rcases @restartOrEnd_cases resumedProvider lookWorld resumedLooked why why rfl with
      ⟨_, room, _⟩ | ⟨_, isCheckpoint⟩
    · exact absurd room (by decide)
    · rw [isCheckpoint]
  refine ⟨resumedLooked, _, step_resumedOpening, ends, rfl, fun cause => ?_⟩
  rcases cause ⟨_, rfl, rfl⟩ with ⟨⟨_, _, instructions, isMessages, isInstruction⟩, _⟩ | full
  · rw [resumedLooked_messages] at isMessages
    obtain ⟨_, isRest⟩ := List.cons.inj isMessages
    have isAnswer := isInstruction ⟨.assistant, lookCall.content, none⟩
      (isRest ▸ mem_cons_self)
    exact absurd (congrArg Message.role isAnswer) (by decide)
  · exact absurd full (by decide)

end OpenExec.Execution
