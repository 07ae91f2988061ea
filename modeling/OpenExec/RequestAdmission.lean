import OpenExec.ToolLoopSteps

/-!
# Admitted requests

The size of a request is judged before it is sent, but what is sent may be longer than
what was judged: a request past the soft threshold is given the instruction to update
the handover and the tool for it, an empty completion is followed by a request with one
more message, and the request of the final synthesis is rebuilt from the handover after
it was judged.
-/

namespace OpenExec.Execution

open Agent GoStrings GuardedRuns Provider List

variable {provider : Provider} {request : RunRequest} {world : World} {state next : LoopState}

variable {policy : ContextPolicy} {tools : List ToolDefinition} {allowed : List Request}

/-- The policy does not judge a request too large to be sent. -/
def ContextPolicy.Fits (policy : ContextPolicy) (request : Request) : Prop :=
  (policy.admitSize (estimateRequest request)).1 ≠ .hard

/-- The policy would not judge a request too large even with an addition. -/
def ContextPolicy.HasRoom (policy : ContextPolicy) (request : Request) (addition : Addition) :
    Prop :=
  (policy.admitSize
    ⟨(estimateRequest request).tokens + addition.cost.tokens,
      (estimateRequest request).bytes + addition.cost.bytes⟩).1 ≠ .hard

theorem admit_hard_iff (policy : ContextPolicy) (size : Size) : (policy.admitSize size).1 = .hard ↔
    (0 < policy.timeTokens ∧ policy.timeTokens < size.tokens) ∨ policy.hardTokens < size.tokens ∨
    policy.hardBytes < size.bytes := by
  unfold ContextPolicy.admitSize
  split
  · next slow => simp [slow]
  next fast =>
  split
  · next long => simp [long]
  next short =>
  split
  · next big => simp [big]
  next small =>
  have fits : ¬ ((0 < policy.timeTokens ∧ policy.timeTokens < size.tokens) ∨
      policy.hardTokens < size.tokens ∨ policy.hardBytes < size.bytes) := by
    rintro (slow | long | big)
    · exact fast slow
    · exact short long
    · exact small big
  split
  · simp [fits]
  · split <;> simp [fits]

theorem admit_ok {size : Size} (untimed : policy.timeTokens = 0)
    (soft : size.tokens ≤ policy.softTokens) (hard : size.tokens ≤ policy.hardTokens)
    (bytes : size.bytes ≤ policy.hardBytes) : policy.admitSize size = (.ok, "") := by
  unfold ContextPolicy.admitSize
  rw [if_neg (by omega), if_neg (by omega), if_neg (by omega), if_neg (by omega), if_neg (by omega)]

theorem fits_of_growsBy {small large : Request} {addition : Addition}
    (room : policy.HasRoom small addition) (grows : small.GrowsBy large addition) :
    policy.Fits large := by
  obtain ⟨tokens, bytes⟩ := grows.estimate
  intro hard
  refine room ((admit_hard_iff policy _).mpr ?_)
  rcases (admit_hard_iff policy _).mp hard with ⟨timed, slow⟩ | long | big
  · exact .inl ⟨timed, by simp only; omega⟩
  · exact .inr (.inl (by simp only; omega))
  · exact .inr (.inr (by simp only; omega))

def instructionAddition (instruction : String) : Addition :=
  itemAddition (newTextMessage .user instruction).encode

/-- What may be added to a round's request after it was judged: the instruction to update
the handover, the tool for it, and the instruction that follows an empty completion. -/
def roundAddition : Addition :=
  instructionAddition checkpointInstruction + itemAddition handoverToolDefinition.encode +
    instructionAddition emptyCompletionRecoveryInstruction

/-- What is added to the request of the synthesis if it was not answered in text. -/
def synthesisAddition (model : String) : Addition :=
  textAddition ("\n\n" ++ finalSynthesisRecoveryInstruction) +
    instructionAddition (synthesisRecovery model)

theorem growsBy_instruction (request : Request) (instruction : String) :
    request.GrowsBy
      { request with messages := request.messages ++ [newTextMessage .user instruction] }
      (instructionAddition instruction) :=
  growsBy_message request rfl

theorem RunState.save_outputs (run : RunState) (writable : Bool) (status : Option HandoverStatus) :
    (run.save writable status).data.outputs = run.data.outputs := by
  unfold RunState.save
  split <;> rfl

theorem toolsNow_askCheckpoint (provider : Provider) (world : World) (why : String)
    (tracked : state.run.isSome) :
    ∃ before after, provider.toolsNow (Provider.askCheckpoint world state why) =
        before ++ handoverToolDefinition :: after ∧
      (provider.toolsNow state = before ++ handoverToolDefinition :: after ∨
        provider.toolsNow state = before ++ after) := by
  obtain ⟨run, isRun⟩ := Option.isSome_iff_exists.mp tracked
  refine ⟨provider.tools, if run.data.outputs.length > 0 then [readSavedDefinition] else [],
    ?_, ?_⟩
  · simp [toolsNow, askCheckpoint, LoopState.emit, isRun, RunState.save_outputs]
  · cases asked : state.askedHandover with
    | true => exact .inl (by simp [toolsNow, isRun, asked])
    | false => exact .inr (by simp [toolsNow, isRun, asked])

theorem growsBy_askCheckpoint (provider : Provider) (request : RunRequest) (world : World)
    (why : String) (tracked : state.run.isSome) :
    (provider.roundRequest request state).GrowsBy
      (provider.roundRequest request (Provider.askCheckpoint world state why))
      (instructionAddition checkpointInstruction +
        itemAddition handoverToolDefinition.encode) := by
  obtain ⟨before, after, isTools, had | hadNot⟩ :=
    toolsNow_askCheckpoint provider world why tracked
  · have same : provider.roundRequest request (askCheckpoint world state why) =
        { provider.roundRequest request state with
          messages := state.messages ++ [newTextMessage .user checkpointInstruction] } := by
      simp only [roundRequest, isTools, had]
      rfl
    rw [same]
    exact (growsBy_instruction _ _).trans (.refl _ _)
  · have one : provider.roundRequest request (askCheckpoint world state why) =
        { provider.roundRequest request state with
          messages := state.messages ++ [newTextMessage .user checkpointInstruction]
          tools := before ++ handoverToolDefinition :: after } := by
      simp only [roundRequest, isTools]
      rfl
    rw [one]
    exact (growsBy_instruction _ _).trans (growsBy_tool _ hadNot rfl)

theorem growsBy_admitted {admitted : LoopState}
    (admits : AdmittedRound provider request world state admitted) :
    (provider.roundRequest request state).GrowsBy (provider.roundRequest request admitted)
      (instructionAddition checkpointInstruction + itemAddition handoverToolDefinition.encode) := by
  cases admits with
  | unchecked _ | asIs _ _ => exact .refl _ _
  | asked tracked _ => exact growsBy_askCheckpoint provider request world _ tracked

theorem trimSpace_sublist (text : String) : (trimSpace text).toList.Sublist text.toList := by
  rw [trimSpace, String.toList_ofList]
  have start := dropWhile_sublist isSpace (l := text.toList)
  have stop := dropWhile_sublist isSpace (l := (text.toList.dropWhile isSpace).reverse)
  exact (reverse_sublist.mp (by simpa using stop)).trans start

theorem appendSystemInstruction_sublist (system instruction : String) :
    (appendSystemInstruction system instruction).toList.Sublist
      (system.toList ++ ("\n\n" ++ instruction).toList) := by
  unfold appendSystemInstruction
  simp only [String.toList_append]
  split
  · exact (sublist_append_right _ _).trans (sublist_append_right _ _)
  · rw [String.toList_append, String.toList_append, append_assoc]
    exact (trimSpace_sublist system).append (.refl _)

theorem growsBy_synthesisRecovery (request : Request) : { request with tools := [] }.GrowsBy
    (synthesisRecoveryRequest request) (synthesisAddition request.model) := by
  have sublist := appendSystemInstruction_sublist request.system finalSynthesisRecoveryInstruction
  unfold synthesisRecoveryRequest
  generalize appendSystemInstruction request.system finalSynthesisRecoveryInstruction = system
    at sublist ⊢
  have recovered := (growsBy_system { request with tools := [] } sublist).trans
    (growsBy_instruction { request with tools := [], system := system }
      (synthesisRecovery request.model))
  exact { recovered with }

/-- The room that a step needs.  In the loop, a request that is not judged too large has
room for what the round may add to it.  At the end, the request rebuilt from the handover
has room for a second attempt, and so has the conversation itself if it is sent. -/
def Provider.Headroom (provider : Provider) (request : RunRequest) (state : LoopState)
    (world : World) : Prop :=
  if state.rounds < provider.maxSteps then
    provider.policy.Fits (provider.roundRequest request state) →
      provider.policy.HasRoom (provider.roundRequest request state) roundAddition
  else
    ((provider.policy.admitSize
          (estimateRequest (Provider.synthesisRequest request state provider.tools))).1 = .ok →
        provider.policy.HasRoom (Provider.synthesisRequest request state [])
          (synthesisAddition request.model)) ∧
      provider.policy.HasRoom (Provider.synthesisRequest request (Provider.rebuild world state) [])
        (synthesisAddition request.model)

structure SentWithin (policy : ContextPolicy) (state : LoopState) : Prop where
  tracked : state.run.isSome = true
  fits : ∀ sent ∈ state.dispatched, policy.Fits sent

section

variable (within : SentWithin policy state)
include within

theorem SentWithin.of_same (run : next.run.isSome = state.run.isSome)
    (dispatched : next.dispatched = state.dispatched) : SentWithin policy next :=
  ⟨run.trans within.tracked, dispatched ▸ within.fits⟩

theorem SentWithin.sent (fits : ∀ sent ∈ allowed, policy.Fits sent)
    (sends : Sent allowed state next) : SentWithin policy next := by
  obtain ⟨requests, usage, isPrefix, _, rfl⟩ := sends
  refine ⟨within.tracked, fun sent isSent => ?_⟩
  rcases mem_append.mp isSent with earlier | now
  · exact within.fits sent earlier
  · exact fits sent (isPrefix.subset now)

theorem SentWithin.closeOut (world : World) : SentWithin policy (state.closeOut world) :=
  within.of_same (by simp [LoopState.closeOut]) rfl

theorem SentWithin.restartOrEnd (why ending : String) :
    SentWithin policy (provider.restartOrEnd world state why ending) := by
  rcases @restartOrEnd_cases provider world state why ending within.tracked with
    ⟨_, _, run, event, _, _, isNext⟩ | ⟨_, isEnd⟩
  · rw [isNext]
    exact ⟨rfl, within.fits⟩
  · rw [isEnd]
    exact within.of_same (by simp [endCheckpoint, LoopState.finish, LoopState.emit]) rfl

theorem SentWithin.admitted {admitted : LoopState}
    (admits : AdmittedRound provider request world state admitted) :
    SentWithin policy admitted := by
  cases admits with
  | unchecked _ | asIs _ _ => exact within
  | asked _ _ => exact within.of_same (by simp [askCheckpoint, LoopState.emit]) rfl

theorem SentWithin.rebuild (world : World) : SentWithin policy (Provider.rebuild world state) := by
  obtain ⟨run, _, isFresh⟩ := freshMessages_spec world true within.tracked
  unfold Provider.rebuild
  rw [isFresh]
  exact ⟨rfl, within.fits⟩

theorem SentWithin.admittedSynthesis {admitted : LoopState}
    (admits : AdmittedSynthesis provider request world state admitted tools) :
    SentWithin policy admitted := by
  cases admits with
  | unchecked _ | asIs _ _ => exact within
  | rebuilt _ => exact within.rebuild world

theorem SentWithin.takeResponse (response : Response) :
    SentWithin policy (provider.takeResponse world state response) := by
  have shown : SentWithin policy (state.shown response) := within.of_same rfl rfl
  rcases takeResponse_cases provider world state response with
    ⟨fault, isEnd⟩ | isEnd | ⟨external, _, ⟨run, _, _, same, _, rfl⟩, isRound⟩
  · rw [isEnd]
    exact shown.of_same rfl rfl
  · rw [isEnd]
    exact (shown.closeOut world).of_same rfl rfl
  · rw [isRound]
    exact shown.of_same same.isSome rfl

theorem SentWithin.conclude (answer : Except Fault Response) :
    SentWithin policy (provider.conclude world (state, answer)) := by
  rcases conclude_cases provider world state answer with
    ⟨fault, isEnd⟩ | ⟨message, isEnd⟩ | ⟨response, message, isEnd⟩
  · rw [isEnd]
    exact within.of_same rfl rfl
  · rw [isEnd]
    exact (within.closeOut world).of_same rfl rfl
  · rw [isEnd]
    have shown : SentWithin policy (state.showTexts response) := within.of_same rfl rfl
    exact (shown.closeOut world).of_same rfl rfl

end

theorem fits_round {admitted : LoopState} (tracked : state.run.isSome)
    (admits : AdmittedRound provider request world state admitted)
    (room : provider.policy.Fits (provider.roundRequest request state) →
      provider.policy.HasRoom (provider.roundRequest request state) roundAddition) :
    ∀ sent ∈ [provider.roundRequest request admitted,
      emptyRecoveryRequest (provider.roundRequest request admitted)],
      provider.policy.Fits sent := by
  have judged : provider.policy.Fits (provider.roundRequest request state) := by
    cases admits with
    | unchecked untracked => simp [untracked] at tracked
    | asIs _ fits | asked _ fits => exact fits
  have grows := growsBy_admitted admits
  have recovery := growsBy_instruction (provider.roundRequest request admitted)
    emptyCompletionRecoveryInstruction
  refine forall_mem_cons.mpr ⟨?_, forall_mem_singleton.mpr ?_⟩
  · exact fits_of_growsBy (room judged) (grows.trans (.refl _ _))
  · exact fits_of_growsBy (room judged) (grows.trans recovery)

theorem fits_synthesis
    (first : provider.policy.Fits (Provider.synthesisRequest request state tools))
    (room : provider.policy.HasRoom (Provider.synthesisRequest request state [])
      (synthesisAddition request.model)) :
    ∀ sent ∈ [Provider.synthesisRequest request state tools,
      synthesisRecoveryRequest (Provider.synthesisRequest request state tools)],
      provider.policy.Fits sent := by
  refine forall_mem_cons.mpr ⟨first, forall_mem_singleton.mpr ?_⟩
  exact fits_of_growsBy room (growsBy_synthesisRecovery (synthesisRequest request state tools))

theorem fits_of_ok {request : Request} (ok : (policy.admitSize (estimateRequest request)).1 = .ok) :
    policy.Fits request := by
  unfold ContextPolicy.Fits
  rw [ok]
  exact Admission.noConfusion

theorem fits_admittedSynthesis {admitted : LoopState} (tracked : state.run.isSome)
    (admits : AdmittedSynthesis provider request world state admitted tools)
    (usedUp : ¬ state.rounds < provider.maxSteps) (room : provider.Headroom request state world) :
    ∀ sent ∈ [Provider.synthesisRequest request admitted tools,
      synthesisRecoveryRequest (Provider.synthesisRequest request admitted tools)],
      provider.policy.Fits sent := by
  rw [Provider.Headroom, if_neg usedUp] at room
  cases admits with
  | unchecked untracked => simp [untracked] at tracked
  | asIs _ ok => exact fits_synthesis (fits_of_ok ok) (room.1 ok)
  | rebuilt _ => exact fits_synthesis (fits_of_growsBy room.2 (.refl _ _)) room.2

theorem synthesisRequest_rebuild (sends : Sent allowed state next) :
    Provider.synthesisRequest request (Provider.rebuild world next) [] =
      Provider.synthesisRequest request (Provider.rebuild world state) [] := by
  obtain ⟨requests, usage, _, _, rfl⟩ := sends
  unfold rebuild LoopState.freshMessages
  cases state.run <;> rfl

theorem sentWithin_start {stored : Option HandoverData}
    (enabled : provider.policy.disabled = false) :
    SentWithin provider.policy (provider.start request world stored) := by
  rcases start_cases provider request world stored with
    ⟨disabled, _⟩ | ⟨_, _, isStart⟩ | ⟨_, run, event, _, _, _, _, isStart⟩
  · simp [disabled] at enabled
  all_goals
    rw [isStart]
    exact ⟨rfl, fun _ isSent => absurd isSent not_mem_nil⟩

theorem sentWithin_stepped (within : SentWithin provider.policy state)
    (room : provider.Headroom request state world)
    (stepped : Stepped provider request world state next) : SentWithin provider.policy next := by
  unfold Provider.Headroom at room
  cases stepped with
  | cancelled => exact within.of_same rfl rfl
  | oversized _ _ _ => exact within.restartOrEnd _ _
  | @failed admitted sent tokens fault inLoop admits _ sends _ =>
    rw [if_pos inLoop] at room
    have sent := (within.admitted admits).sent (fits_round within.tracked admits room) sends
    unfold failRound
    split
    · exact sent.restartOrEnd _ _
    · exact sent.of_same rfl rfl
  | answered inLoop admits sends =>
    rw [if_pos inLoop] at room
    have sent := (within.admitted admits).sent (fits_round within.tracked admits room) sends
    exact sent.takeResponse _
  | synthesized usedUp admits sends =>
    have first := (within.admittedSynthesis admits).sent
      (fits_admittedSynthesis within.tracked admits usedUp room) sends
    exact first.conclude _
  | resynthesized usedUp admits _ sends sendsAgain =>
    have first := within.sent (fits_admittedSynthesis within.tracked admits usedUp room) sends
    rw [if_neg usedUp] at room
    have again := room.2
    rw [← synthesisRequest_rebuild sends] at again
    have second := (first.rebuild world).sent
      (fits_synthesis (fits_of_growsBy again (.refl _ _)) again) sendsAgain
    exact second.conclude _

/-- Under a context policy, a run whose every step has the room it needs sends no request
that the policy judges too large. -/
theorem no_oversized_request (provider : Provider) (request : RunRequest) (opening : World)
    (stored : Option HandoverData) (enabled : provider.policy.disabled = false) (state : LoopState)
    (reachable : Reachable (provider.step request) (provider.Headroom request)
      (provider.start request opening stored) state) :
    ∀ sent ∈ state.dispatched, (provider.policy.admitSize (estimateRequest sent)).1 ≠ .hard := by
  have within : SentWithin provider.policy state := by
    apply reachable.invariant
    · exact sentWithin_start enabled
    · intro state world next within room taken
      exact sentWithin_stepped within room (stepped_of_step taken).2
  exact within.fits

def lookTool : ToolDefinition := ⟨"look", "Look.", .absent⟩

def lookRequest : RunRequest := ⟨"m", "", "Look.", []⟩

def silent : Completion := ⟨.ok none, none⟩

def lookCall : Response where
  content := [{ type := .toolUse, toolUseID := "1", toolName := "look" }]
  usage := ⟨0, 0⟩

def lookWorld : World where
  first := ⟨.ok (some lookCall), none⟩
  second := silent
  third := silent
  fourth := silent
  tool := fun _ => { output := "seen" }
  rendered := "# Handover"
  path := "/run/HANDOVER.md"
  writable := true

def beforeLook : LoopState :=
  Provider.opening [newTextMessage .user "Look."] (some (newRunState none))

variable (request : Request) (addition : Addition)

def snugPolicy : ContextPolicy where
  disabled := false
  softTokens := (estimateRequest request).tokens
  hardTokens := (estimateRequest request).tokens + addition.cost.tokens
  hardBytes := (estimateRequest request).bytes + addition.cost.bytes
  timeTokens := 0
  maxInlineToolBytes := 12288
  maxChains := 8

theorem snugPolicy_admitSize :
    (snugPolicy request addition).admitSize (estimateRequest request) = (.ok, "") :=
  admit_ok rfl (Int.le_refl _) (Int.le_add_of_nonneg_right (Int.natCast_nonneg _))
    (Int.le_add_of_nonneg_right (Int.natCast_nonneg _))

theorem snugPolicy_hasRoom : (snugPolicy request addition).HasRoom request addition := by
  intro hard
  rcases (admit_hard_iff _ _).mp hard with ⟨timed, _⟩ | long | big
  · exact absurd timed (Int.lt_irrefl 0)
  · exact Int.lt_irrefl _ long
  · exact Int.lt_irrefl _ big

def firstLook : Request where
  model := "m"
  messages := beforeLook.messages
  system := ""
  tools := [lookTool]
  toolChoice := "auto"

def snugProvider : Provider where
  tools := [lookTool]
  maxSteps := 3
  policy := snugPolicy firstLook roundAddition

theorem no_oversized_request_look :
    ∃ state, Reachable (snugProvider.step lookRequest) (snugProvider.Headroom lookRequest)
        (snugProvider.start lookRequest lookWorld none) state ∧
      state.dispatched.length = 1 ∧
      ∀ sent ∈ state.dispatched,
        (snugProvider.policy.admitSize (estimateRequest sent)).1 ≠ .hard := by
  have isFirst : snugProvider.roundRequest lookRequest beforeLook = firstLook := rfl
  have room : snugProvider.Headroom lookRequest beforeLook lookWorld := by
    exact fun _ => snugPolicy_hasRoom firstLook roundAddition
  have ok : snugProvider.policy.admitSize (estimateRequest firstLook) = (.ok, "") :=
    snugPolicy_admitSize firstLook roundAddition
  have admits := @admitRound_of_ok snugProvider lookRequest lookWorld beforeLook "" rfl ok
  have started := reachable_start (snugProvider.step lookRequest)
    (snugProvider.Headroom lookRequest) beforeLook
  have looked := started.next lookWorld room (step_of_running rfl)
  refine ⟨_, looked, ?_, no_oversized_request snugProvider lookRequest lookWorld none rfl _ looked⟩
  rw [if_pos (by decide), iterate_of_answer rfl admits rfl rfl rfl, takeResponse_dispatched]
  rfl

/-- A provider with the thresholds of a window of 549 tokens. -/
def tightProvider : Provider where
  tools := [lookTool]
  maxSteps := 3
  policy := ⟨false, 274, 384, 960, 0, 12288, 8⟩

theorem estimate_beforeLook :
    estimateRequest (tightProvider.roundRequest lookRequest beforeLook) = ⟨384, 153⟩ := by
  decide +kernel

/-- A first request past the soft threshold is sent with the instruction and the tool for
a checkpoint, which take it past the hard one. -/
theorem oversized_request_is_sent : ∃ state, tightProvider.step lookRequest
        (tightProvider.start lookRequest lookWorld none) lookWorld = some state ∧
      ∃ sent ∈ state.dispatched,
        (tightProvider.policy.admitSize (estimateRequest sent)).1 = .hard := by
  have asked : tightProvider.admitRound lookRequest lookWorld beforeLook =
      .inr (askCheckpoint lookWorld beforeLook
        "estimated tokens past the soft threshold", 384) := by
    simp only [admitRound, estimate_beforeLook]
    rfl
  have larger : (tightProvider.roundRequest lookRequest beforeLook).Larger
      (tightProvider.roundRequest lookRequest (askCheckpoint lookWorld beforeLook
        "estimated tokens past the soft threshold")) := by
    have message := @larger_message (tightProvider.roundRequest lookRequest beforeLook)
      (newTextMessage .user checkpointInstruction) rfl rfl (cons_ne_nil _ _)
    exact message.trans (@larger_tool _ handoverToolDefinition message.marshals.2 rfl
      (cons_ne_nil _ _))
  have tokens := larger.tokens
  rw [estimate_beforeLook] at tokens
  refine ⟨_, step_of_running rfl, ?_⟩
  rw [if_pos (by decide), show tightProvider.start lookRequest lookWorld none = beforeLook from rfl,
    iterate_of_answer rfl asked rfl rfl rfl, takeResponse_dispatched]
  exact ⟨_, mem_singleton_self _, (admit_hard_iff _ _).mpr (.inr (.inl tokens))⟩

end OpenExec.Execution
