import OpenExec.ToolLoop

/-!
# What a step of the tool loop changes

The completions of a step only add requests and usage events to the state, the chains of
the handover are counted by its restarts alone, and every step ends in one of a few ways.
-/

namespace OpenExec.Execution

open Agent Provider LoopState

def Sent (allowed : List Request) (state next : LoopState) : Prop :=
  ∃ requests usage, requests <+: allowed ∧ (∀ event ∈ usage, event.type = .usage) ∧
    next =
      { state with
        dispatched := state.dispatched ++ requests
        events := state.events ++ usage }

theorem Sent.refl (allowed : List Request) (state : LoopState) : Sent allowed state state :=
  ⟨[], [], List.nil_prefix, fun _ isEvent => absurd isEvent List.not_mem_nil, by simp⟩

theorem completeChecked_cases (state : LoopState) (request : Request) (completion : Completion) :
    (∃ fault, completeChecked state request completion = (state, .error fault)) ∨
      ∃ usage : List Event, (∀ event ∈ usage, event.type = .usage) ∧
        completeChecked state request completion =
          ({ state with
              dispatched := state.dispatched ++ [request]
              events := state.events ++ usage }, completion.answer) := by
  unfold completeChecked
  split
  · exact .inl ⟨_, rfl⟩
  right
  split
  · exact ⟨[], fun _ isEvent => absurd isEvent List.not_mem_nil, by simp⟩
  · refine ⟨[_], fun event isEvent => ?_, rfl⟩
    rw [List.mem_singleton.mp isEvent]

theorem sent_of_recovery {state next : LoopState} {request recovery : Request}
    (first second : Completion)
    (ends : next = (completeChecked state request first).1 ∨
      (∃ response, (completeChecked state request first).2 = .ok response) ∧
        next = (completeChecked (completeChecked state request first).1 recovery second).1) :
    Sent [request, recovery] state next := by
  rcases completeChecked_cases state request first with ⟨fault, isError⟩ | ⟨usage, isUsage, isSent⟩
  · rcases ends with rfl | ⟨⟨response, isOk⟩, _⟩
    · rw [isError]
      exact .refl _ state
    · rw [isError] at isOk
      cases isOk
  · rw [isSent] at ends
    rcases ends with rfl | ⟨_, rfl⟩
    · exact ⟨[request], usage, ⟨[recovery], rfl⟩, isUsage, rfl⟩
    · simp only
      rcases completeChecked_cases
        { state with
          dispatched := state.dispatched ++ [request]
          events := state.events ++ usage } recovery second with
        ⟨fault, isError⟩ | ⟨later, isLater, isSecond⟩
      · rw [isError]
        exact ⟨[request], usage, ⟨[recovery], rfl⟩, isUsage, rfl⟩
      · rw [isSecond]
        refine ⟨[request, recovery], usage ++ later, List.prefix_rfl, fun event isEvent => ?_,
          by simp⟩
        exact (List.mem_append.mp isEvent).elim (isUsage event) (isLater event)

section

variable (state : LoopState)
include state

variable (request : Request)

theorem recoverEmpty_state (empty : Option Response) (completion : Completion) :
    (recoverEmpty state request empty completion).1 =
      (completeChecked state (emptyRecoveryRequest request) completion).1 := by
  unfold recoverEmpty
  split
  · next checked => rw [checked]
  · next checked => rw [checked]
  · next checked =>
    rw [checked]
    split <;> rfl

theorem recoverSynthesis_state (poor : Option Response) (completion : Completion) :
    (recoverSynthesis state request poor completion).1 =
      (completeChecked state (synthesisRecoveryRequest request) completion).1 := by
  unfold recoverSynthesis
  split
  · next checked => rw [checked]
  · next checked => rw [checked]
  · next checked =>
    rw [checked]
    split <;> rfl

theorem sent_completeWithEmptyRecovery (first second : Completion) :
    Sent [request, emptyRecoveryRequest request] state
      (completeWithEmptyRecovery state request first second).1 := by
  apply sent_of_recovery first second
  unfold completeWithEmptyRecovery
  split
  · next checked => exact .inl (by rw [checked])
  · next checked =>
    rw [recoverEmpty_state]
    exact .inr ⟨⟨_, by rw [checked]⟩, by rw [checked]⟩
  · next checked =>
    split
    · exact .inl (by rw [checked])
    · rw [recoverEmpty_state]
      exact .inr ⟨⟨_, by rw [checked]⟩, by rw [checked]⟩

theorem sent_completeFinalSynthesis (first second : Completion) :
    Sent [request, synthesisRecoveryRequest request] state
      (completeFinalSynthesis state request first second).1 := by
  apply sent_of_recovery first second
  unfold completeFinalSynthesis
  split
  · next checked => exact .inl (by rw [checked])
  · next checked =>
    rw [recoverSynthesis_state]
    exact .inr ⟨⟨_, by rw [checked]⟩, by rw [checked]⟩
  · next checked =>
    split
    · exact .inl (by rw [checked])
    · rw [recoverSynthesis_state]
      exact .inr ⟨⟨_, by rw [checked]⟩, by rw [checked]⟩

end

@[simp]
theorem RunState.save_chains (run : RunState) (writable : Bool) (status : Option HandoverStatus) :
    (run.save writable status).data.chains = run.data.chains := by
  unfold RunState.save
  split <;> rfl

variable (policy : ContextPolicy)

theorem RunState.afterCall_chains (call : ContentBlock) (outcome : ToolOutcome) (run : RunState) :
    (run.afterCall policy call outcome).1.data.chains = run.data.chains := by
  unfold RunState.afterCall
  split <;> split <;> simp

def SameChains (run next : Option RunState) : Prop :=
  next.map (fun run => run.data.chains) = run.map fun run => run.data.chains

theorem SameChains.isSome {run next : Option RunState} (same : SameChains run next) :
    next.isSome = run.isSome := by
  have mapped := congrArg Option.isSome same
  simpa using mapped

theorem LoopState.chains_eq (state : LoopState) :
    state.chains = (state.run.map fun run => run.data.chains).getD 0 := by
  unfold chains
  cases state.run <;> rfl

theorem SameChains.chains {state next : LoopState} (same : SameChains state.run next.run) :
    next.chains = state.chains := by
  rw [chains_eq, chains_eq, same]

theorem sameChains_map (run : Option RunState) (change : RunState → RunState)
    (keeps : ∀ run, (change run).data.chains = run.data.chains) :
    SameChains run (run.map change) := by
  cases run with
  | none => rfl
  | some run => exact congrArg some (keeps run)

/-- The one message of a conversation that starts from the handover. -/
def handoverMessage (chains : Nat) (final : Bool) (rendered : String) : Message :=
  newTextMessage .user (freshNotice chains final ++ "\n\n" ++ rendered)

theorem freshMessages_spec {state : LoopState} (world : World) (final : Bool)
    (tracked : state.run.isSome) :
    ∃ run : RunState, run.data.chains = state.chains + 1 ∧
      state.freshMessages world final =
        { state with
          run := some run
          messages := [handoverMessage (state.chains + 1) final world.rendered] } := by
  obtain ⟨run, isRun⟩ := Option.isSome_iff_exists.mp tracked
  have chains : state.chains = run.data.chains := by simp [chains, isRun]
  rw [chains]
  refine ⟨RunState.save { run with data := { run.data with chains := run.data.chains + 1 } }
    world.writable none, by simp, ?_⟩
  simp only [freshMessages, isRun, handoverMessage]

theorem handoverMessage_valid (chains : Nat) (final : Bool) (rendered : String) :
    validateTransportConversation [handoverMessage chains final rendered] = .ok () := by
  have begins : ∃ text, freshNotice chains final ++ "\n\n" ++ rendered =
      "Context checkpoint " ++ text := by
    have more : ∀ {first : String} (second : String),
        (∃ text, first = "Context checkpoint " ++ text) →
          ∃ text, first ++ second = "Context checkpoint " ++ text := by
      rintro _ second ⟨text, rfl⟩
      exact ⟨text ++ second, String.append_assoc⟩
    exact more _ (more _ (more _ (more _ (more _ (more _ ⟨_, rfl⟩)))))
  obtain ⟨text, isText⟩ := begins
  have starts : ("Context checkpoint " ++ text).toList =
      'C' :: ("ontext checkpoint ".toList ++ text.toList) := by
    rw [String.toList_append]
    rfl
  have query : isPlainUserQuery (handoverMessage chains final rendered) := by
    rw [handoverMessage, isText]
    exact isPlainUserQuery_of_visible starts (by decide) (by decide)
  have isUser : (handoverMessage chains final rendered).role = .user := rfl
  simp [validateTransportConversation, validateFrom, query, isUser]

inductive CallEvents : List Event → Prop
  | nil : CallEvents []
  | cons {proposed started completed : Event} {rest : List Event}
      (isProposed : proposed.type = .toolProposed) (isStarted : started.type = .toolStarted)
      (isCompleted : completed.type = .toolCompleted)
        (sameStarted : started.callID = proposed.callID)
      (sameCompleted : completed.callID = proposed.callID) (others : CallEvents rest) :
      CallEvents (proposed :: started :: completed :: rest)

def Called (state next : LoopState) : Prop :=
  ∃ run messages events, SameChains state.run run ∧ CallEvents events ∧
    next =
      { state with
        run := run
        messages := state.messages ++ messages
        events := state.events ++ events }

theorem called_runCall (state : LoopState) (call : ContentBlock)
    (outcome : ToolOutcome) : Called state (state.runCall policy call outcome) := by
  unfold runCall
  refine ⟨_, _, _, ?_, ?_, rfl⟩
  rotate_left
  · exact .cons rfl rfl rfl rfl rfl .nil
  split
  · next untracked => rw [untracked]; rfl
  · next run isRun =>
    rw [isRun]
    exact congrArg some (RunState.afterCall_chains policy call outcome run)

theorem CallEvents.append {first second : List Event} (before : CallEvents first)
    (after : CallEvents second) : CallEvents (first ++ second) := by
  induction before with
  | nil => exact after
  | cons isProposed isStarted isCompleted sameStarted sameCompleted _ ih =>
    exact .cons isProposed isStarted isCompleted sameStarted sameCompleted ih

theorem called_runCalls (outcomes : Nat → ToolOutcome)
    (state : LoopState) (calls : List ContentBlock) :
    Called state (LoopState.runCalls policy outcomes state calls) := by
  induction calls generalizing state outcomes with
  | nil => exact ⟨state.run, [], [], rfl, .nil, by simp [runCalls]⟩
  | cons call calls ih =>
    obtain ⟨run, messages, events, same, first, isFirst⟩ :=
      called_runCall policy state call (outcomes 0)
    obtain ⟨lastRun, later, lastEvents, again, rest, isRest⟩ :=
      ih (fun index => outcomes (index + 1)) (state.runCall policy call (outcomes 0))
    rw [isFirst] at again isRest
    refine ⟨lastRun, messages ++ later, events ++ lastEvents, again.trans same,
      first.append rest, ?_⟩
    rw [runCalls, isFirst, isRest]
    simp

inductive AdmittedRound (provider : Provider) (request : RunRequest) (world : World)
    (state : LoopState) : LoopState → Prop
  | unchecked (untracked : state.run = none) : AdmittedRound provider request world state state
  | asIs (tracked : state.run.isSome = true)
      (fits : (provider.policy.admitSize
        (estimateRequest (provider.roundRequest request state))).1 ≠ .hard) :
      AdmittedRound provider request world state state
  | asked {why : String} (tracked : state.run.isSome = true)
      (fits : (provider.policy.admitSize
        (estimateRequest (provider.roundRequest request state))).1 ≠ .hard) :
      AdmittedRound provider request world state (Provider.askCheckpoint world state why)

/-- The state in which the final synthesis is sent, and the tools it offers. -/
inductive AdmittedSynthesis (provider : Provider) (request : RunRequest) (world : World)
    (state : LoopState) : LoopState → List ToolDefinition → Prop
  | unchecked (untracked : state.run = none) :
      AdmittedSynthesis provider request world state state provider.tools
  | asIs (tracked : state.run.isSome = true)
      (fits : (provider.policy.admitSize
        (estimateRequest (Provider.synthesisRequest request state provider.tools))).1 = .ok) :
      AdmittedSynthesis provider request world state state provider.tools
  | rebuilt (tracked : state.run.isSome = true) :
      AdmittedSynthesis provider request world state (Provider.rebuild world state) []

inductive Stepped (provider : Provider) (request : RunRequest) (world : World)
    (state : LoopState) : LoopState → Prop
  | cancelled {reason : String} : Stepped provider request world state (state.cancel reason)
  | oversized {why : String} (inLoop : state.rounds < provider.maxSteps)
      (tracked : state.run.isSome = true)
      (hard : (provider.policy.admitSize
        (estimateRequest (provider.roundRequest request state))).1 = .hard) :
      Stepped provider request world state (provider.restartOrEnd world state why why)
  | failed {admitted sent : LoopState} {tokens : Int} {fault : Fault}
      (inLoop : state.rounds < provider.maxSteps)
      (admits : AdmittedRound provider request world state admitted)
      (estimated : state.run.isSome → tokens =
        (estimateRequest (provider.roundRequest request state)).tokens)
      (sends : Sent [provider.roundRequest request admitted,
        emptyRecoveryRequest (provider.roundRequest request admitted)] admitted sent)
      (fails : (completeWithEmptyRecovery admitted (provider.roundRequest request admitted)
        world.first world.second).2 = .error fault) :
      Stepped provider request world state (provider.failRound world sent tokens fault)
  | answered {admitted sent : LoopState} {response : Response}
      (inLoop : state.rounds < provider.maxSteps)
      (admits : AdmittedRound provider request world state admitted)
      (sends : Sent [provider.roundRequest request admitted,
        emptyRecoveryRequest (provider.roundRequest request admitted)] admitted sent) :
      Stepped provider request world state (provider.takeResponse world sent response)
  | synthesized {admitted sent : LoopState} {tools : List ToolDefinition}
      {answer : Except Fault Response} (usedUp : ¬ state.rounds < provider.maxSteps)
      (admits : AdmittedSynthesis provider request world state admitted tools)
      (sends : Sent [Provider.synthesisRequest request admitted tools,
        synthesisRecoveryRequest (Provider.synthesisRequest request admitted tools)]
        admitted sent) :
      Stepped provider request world state (provider.conclude world (sent, answer))
  | resynthesized {sent again : LoopState} {answer : Except Fault Response}
      (usedUp : ¬ state.rounds < provider.maxSteps)
      (admits : AdmittedSynthesis provider request world state state provider.tools)
      (tracked : sent.run.isSome = true)
      (sends : Sent [Provider.synthesisRequest request state provider.tools,
        synthesisRecoveryRequest (Provider.synthesisRequest request state provider.tools)]
        state sent)
      (sendsAgain : Sent [Provider.synthesisRequest request (Provider.rebuild world sent) [],
        synthesisRecoveryRequest
          (Provider.synthesisRequest request (Provider.rebuild world sent) [])]
        (Provider.rebuild world sent) again) :
      Stepped provider request world state (provider.conclude world (again, answer))

variable {provider : Provider} {request : RunRequest} {world : World}
  {state next admitted : LoopState}

theorem admitRound_cases (provider : Provider) (request : RunRequest) (world : World)
    (state : LoopState) :
    (∃ why, state.run.isSome ∧
        (provider.policy.admitSize (estimateRequest (provider.roundRequest request state))).1 =
          .hard ∧
        provider.admitRound request world state =
          .inl (provider.restartOrEnd world state why why)) ∨
      ∃ admitted tokens, AdmittedRound provider request world state admitted ∧
        (state.run.isSome → tokens =
          (estimateRequest (provider.roundRequest request state)).tokens) ∧
        provider.admitRound request world state = .inr (admitted, tokens) := by
  unfold admitRound
  split
  · next untracked => exact .inr ⟨state, 0, .unchecked untracked, by simp [untracked], rfl⟩
  next run isRun =>
  have tracked : state.run.isSome := by simp [isRun]
  simp only
  split
  · next why hard => exact .inl ⟨why, tracked, by rw [hard], rfl⟩
  · next why soft =>
    have fits : (provider.policy.admitSize
        (estimateRequest (provider.roundRequest request state))).1 ≠ .hard := by simp [soft]
    split
    · exact .inr ⟨state, _, .asIs tracked fits, fun _ => rfl, rfl⟩
    · exact .inr ⟨_, _, .asked tracked fits, fun _ => rfl, rfl⟩
  · next why ok =>
    exact .inr ⟨state, _, .asIs tracked (by simp [ok]), fun _ => rfl, rfl⟩

theorem admitRound_of_ok {why : String} (tracked : state.run.isSome)
    (ok : provider.policy.admitSize (estimateRequest (provider.roundRequest request state)) =
      (.ok, why)) :
    provider.admitRound request world state =
      .inr (state, (estimateRequest (provider.roundRequest request state)).tokens) := by
  obtain ⟨run, isRun⟩ := Option.isSome_iff_exists.mp tracked
  simp only [admitRound, isRun, ok]

theorem stepped_iterate (inLoop : state.rounds < provider.maxSteps) :
    Stepped provider request world state (provider.iterate request world state) := by
  unfold iterate
  split
  · exact .cancelled
  rcases admitRound_cases provider request world state with
    ⟨why, tracked, hard, isEnd⟩ | ⟨admitted, tokens, admits, estimated, isGo⟩
  · rw [isEnd]
    exact .oversized inLoop tracked hard
  · rw [isGo]
    simp only
    have sends := sent_completeWithEmptyRecovery admitted (provider.roundRequest request admitted)
      world.first world.second
    split
    · next isError =>
      rw [isError] at sends
      exact .failed inLoop admits estimated sends (by rw [isError])
    · next isOk =>
      rw [isOk] at sends
      exact .answered inLoop admits sends

theorem admitSynthesis_cases (provider : Provider) (request : RunRequest) (world : World)
    (state : LoopState) :
    (AdmittedSynthesis provider request world state state provider.tools ∧
        provider.admitSynthesis request world state = (state, provider.tools, false)) ∨
      AdmittedSynthesis provider request world state (Provider.rebuild world state) [] ∧
        provider.admitSynthesis request world state = (Provider.rebuild world state, [], true) := by
  unfold admitSynthesis
  split
  · next untracked => exact .inl ⟨.unchecked untracked, rfl⟩
  next run isRun =>
  have tracked : state.run.isSome := by simp [isRun]
  simp only
  split
  · next ok => exact .inl ⟨.asIs tracked ok, rfl⟩
  · exact .inr ⟨.rebuilt tracked, rfl⟩

theorem stepped_synthesize (usedUp : ¬ state.rounds < provider.maxSteps) :
    Stepped provider request world state (provider.synthesize request world state) := by
  unfold synthesize
  split
  · exact .cancelled
  rcases admitSynthesis_cases provider request world state with
    ⟨admits, isAdmitted⟩ | ⟨admits, isAdmitted⟩
  · rw [isAdmitted]
    simp only
    have sends := sent_completeFinalSynthesis state
      (synthesisRequest request state provider.tools) world.first world.second
    split
    · next sent fault isError =>
      rw [isError] at sends
      split
      · next again =>
        simp only [Bool.and_eq_true] at again
        exact .resynthesized usedUp admits again.1.1.1 sends (sent_completeFinalSynthesis _ _ _ _)
      · exact .synthesized usedUp admits sends
    · next isOk =>
      rw [isOk] at sends
      exact .synthesized usedUp admits sends
  · rw [isAdmitted]
    simp only
    have sends := sent_completeFinalSynthesis (rebuild world state)
      (synthesisRequest request (rebuild world state) []) world.first world.second
    split
    · next isError =>
      rw [isError] at sends
      simp only [Bool.not_true, Bool.and_false, Bool.false_and, Bool.false_eq_true, if_false]
      exact .synthesized usedUp admits sends
    · next isOk =>
      rw [isOk] at sends
      exact .synthesized usedUp admits sends

theorem step_of_running (running : state.result = none) :
    provider.step request state world =
      some (if state.rounds < provider.maxSteps then provider.iterate request world state
        else provider.synthesize request world state) := by
  rw [step, running]

theorem stepped_of_step (taken : provider.step request state world = some next) :
    state.result = none ∧ Stepped provider request world state next := by
  unfold step at taken
  split at taken
  · cases taken
  next running =>
  cases taken
  refine ⟨running, ?_⟩
  split
  · next inLoop => exact stepped_iterate inLoop
  · next usedUp => exact stepped_synthesize usedUp

theorem start_cases (provider : Provider) (request : RunRequest) (world : World)
    (stored : Option HandoverData) :
    (provider.policy.disabled ∧
        provider.start request world stored = Provider.opening (replayMessages request) none) ∨
      (provider.policy.disabled = false ∧ (newRunState stored).load = none ∧
        provider.start request world stored =
          Provider.opening (replayMessages request) (some (newRunState stored))) ∨
      ∃ loaded run event, provider.policy.disabled = false ∧
        (newRunState stored).load = some loaded ∧ run.data.chains = loaded.data.chains + 1 ∧
        event.type = .checkpoint ∧
        provider.start request world stored =
          { Provider.opening
              [handoverMessage (loaded.data.chains + 1) false world.rendered] (some run) with
            fresh := true
            started := 1
            events := [{ type := .started }, event] } := by
  unfold start
  cases disabled : provider.policy.disabled with
  | true => exact .inl ⟨rfl, rfl⟩
  | false =>
    simp only [Bool.false_eq_true, if_false]
    cases loaded : (newRunState stored).load with
    | none => exact .inr (.inl ⟨trivial, rfl, rfl⟩)
    | some run =>
      have tracked :
          (opening (replayMessages request) (some run)).run.isSome := rfl
      obtain ⟨fresh, chains, isFresh⟩ := freshMessages_spec world false tracked
      refine .inr (.inr ⟨run, fresh,
        { type := .checkpoint
          text := "resumed from the handover of an earlier pass: " ++ world.path },
        trivial, rfl, chains, rfl, ?_⟩)
      simp only [isFresh]
      rfl

def LoopState.shown (state : LoopState) (response : Response) : LoopState :=
  LoopState.showTexts
    { state with
      fresh := false
      messages := state.messages ++ [⟨.assistant, response.content, response.metadata⟩] } response

theorem takeResponse_cases (provider : Provider) (world : World) (state : LoopState)
    (response : Response) :
    (∃ fault, provider.takeResponse world state response = (state.shown response).fail fault) ∨
      provider.takeResponse world state response =
        ((state.shown response).closeOut world).finish
          { type := .completed } { outcome := .succeeded } ∨
      ∃ external called, Called (state.shown response) called ∧
        provider.takeResponse world state response = called.countRound external := by
  unfold takeResponse
  simp only
  split
  · split
    · exact .inr (.inl rfl)
    · exact .inl ⟨_, rfl⟩
  · exact .inr (.inr ⟨_, _, called_runCalls provider.policy world.tool _ _, rfl⟩)

theorem takeResponse_dispatched (provider : Provider) (world : World) (state : LoopState)
    (response : Response) :
    (provider.takeResponse world state response).dispatched = state.dispatched := by
  rcases takeResponse_cases provider world state response with
    ⟨fault, isEnd⟩ | isEnd | ⟨external, _, ⟨_, _, _, _, _, rfl⟩, isRound⟩
  · rw [isEnd]
    rfl
  · rw [isEnd]
    rfl
  · rw [isRound]
    rfl

theorem iterate_of_answer {tokens : Int} {response : Response} (goesOn : world.cancelled = none)
    (admits : provider.admitRound request world state = .inr (admitted, tokens))
    (valid : validateTransportConversation admitted.messages = .ok ())
    (answers : world.first = ⟨.ok (some response), none⟩)
    (visible : responseHasVisibleOutcome (some response)) :
    provider.iterate request world state =
      provider.takeResponse world
        { admitted with
          dispatched := admitted.dispatched ++ [provider.roundRequest request admitted] }
        response := by
  have sent : completeChecked admitted (provider.roundRequest request admitted) world.first =
      ({ admitted with
          dispatched := admitted.dispatched ++ [provider.roundRequest request admitted] },
        .ok (some response)) := by
    unfold completeChecked
    rw [show (provider.roundRequest request admitted).messages = admitted.messages from rfl, valid,
      answers]
  simp only [iterate, goesOn, admits, completeWithEmptyRecovery, sent, visible, if_true]

theorem iterate_of_hard (goesOn : world.cancelled = none) (tracked : state.run.isSome)
    (hard : (provider.policy.admitSize (estimateRequest (provider.roundRequest request state))).1 =
      .hard) :
    ∃ why, provider.iterate request world state = provider.restartOrEnd world state why why := by
  rcases admitRound_cases provider request world state with
    ⟨why, _, _, isEnd⟩ | ⟨_, _, admits, _⟩
  · exact ⟨why, by simp only [iterate, goesOn, isEnd]⟩
  · cases admits with
    | unchecked untracked => simp [untracked] at tracked
    | asIs _ fits | asked _ fits => exact absurd hard fits

theorem conclude_cases (provider : Provider) (world : World) (state : LoopState)
    (answer : Except Fault Response) :
    (∃ fault, provider.conclude world (state, answer) = state.fail fault) ∨
      (∃ message, provider.conclude world (state, answer) =
        Provider.inconclusive (state.closeOut world) message) ∨
      ∃ response message, provider.conclude world (state, answer) =
        Provider.inconclusive ((state.showTexts response).closeOut world) message := by
  unfold conclude
  split
  · next isError =>
    obtain ⟨rfl, _⟩ := Prod.mk.inj isError
    unfold concludeError
    split
    · exact .inl ⟨_, rfl⟩
    · exact .inr (.inl ⟨_, rfl⟩)
  · next response isOk =>
    obtain ⟨rfl, _⟩ := Prod.mk.inj isOk
    unfold concludeText
    split <;> exact .inr (.inr ⟨response, _, rfl⟩)

def Restarted (provider : Provider) (world : World) (state next : LoopState) : Prop :=
  state.fresh = false ∧ state.chains < provider.policy.maxChains ∧
    ∃ run event, run.data.chains = state.chains + 1 ∧ event.type = .checkpoint ∧
      next =
        { state with
          run := some run
          messages := [handoverMessage (state.chains + 1) false world.rendered]
          askedCheckpoint := false
          fresh := true
          started := state.started + 1
          events := state.events ++ [event] }

/-- A chain that has grown too long is restarted, unless it has just been or there have
been too many of them. -/
theorem restartOrEnd_cases (why ending : String) (tracked : state.run.isSome) :
    Restarted provider world state (provider.restartOrEnd world state why ending) ∨
      (state.fresh = true ∨ provider.policy.maxChains ≤ state.chains) ∧
        provider.restartOrEnd world state why ending =
          Provider.endCheckpoint world state ending := by
  unfold restartOrEnd restart
  by_cases stays : state.fresh || decide (state.chains ≥ provider.policy.maxChains)
  · rw [if_pos stays]
    simp only [Bool.or_eq_true, decide_eq_true_eq] at stays
    exact .inr ⟨stays, rfl⟩
  · rw [if_neg stays]
    simp only [Bool.or_eq_true, decide_eq_true_eq, not_or, Bool.not_eq_true] at stays
    obtain ⟨run, chains, isFresh⟩ := freshMessages_spec world false tracked
    refine .inl ⟨stays.1, by omega, run,
      { type := .checkpoint
        text := "request chain ended (" ++ why ++ "); continuing from " ++ world.path },
      chains, rfl, ?_⟩
    simp only [isFresh]
    rfl

/-- The parts of the state that neither the admission nor the completions of a step
change. -/
structure Steady (requests : Nat) (state next : LoopState) : Prop where
  rounds : next.rounds = state.rounds
  localOnly : next.localOnly = state.localOnly
  toolRounds : next.toolRounds = state.toolRounds
  result : next.result = state.result
  fresh : next.fresh = state.fresh
  started : next.started = state.started
  run : SameChains state.run next.run
  dispatched : next.dispatched.length ≤ state.dispatched.length + requests

theorem Steady.trans {first second : Nat} {state middle next : LoopState}
    (before : Steady first state middle) (after : Steady second middle next) :
    Steady (first + second) state next where
  rounds := after.rounds.trans before.rounds
  localOnly := after.localOnly.trans before.localOnly
  toolRounds := after.toolRounds.trans before.toolRounds
  result := after.result.trans before.result
  fresh := after.fresh.trans before.fresh
  started := after.started.trans before.started
  run := Eq.trans after.run before.run
  dispatched := by
    have := before.dispatched
    have := after.dispatched
    omega

theorem Steady.refl (state : LoopState) : Steady 0 state state :=
  ⟨rfl, rfl, rfl, rfl, rfl, rfl, rfl, Nat.le_refl _⟩

theorem steady_askCheckpoint (world : World) (state : LoopState) (why : String) :
    Steady 0 state (Provider.askCheckpoint world state why) :=
  ⟨rfl, rfl, rfl, rfl, rfl, rfl, sameChains_map _ _ fun _ => RunState.save_chains _ _ _,
    Nat.le_refl _⟩

theorem AdmittedRound.steady
    (admits : AdmittedRound provider request world state admitted) : Steady 0 state admitted := by
  cases admits with
  | unchecked _ | asIs _ _ => exact .refl state
  | asked _ _ => exact steady_askCheckpoint world state _

theorem Sent.steady {allowed : List Request} (sends : Sent allowed state next) :
    Steady allowed.length state next := by
  obtain ⟨requests, usage, isPrefix, _, rfl⟩ := sends
  refine ⟨rfl, rfl, rfl, rfl, rfl, rfl, rfl, ?_⟩
  have bound := isPrefix.length_le
  simp only [List.length_append]
  omega

end OpenExec.Execution
