import OpenExec.RequestSize
import OpenExec.GuardedRuns

/-!
# The tool loop of an API run

A run alternates requests to the model and the tool calls it answers with, until the
model answers in text, the tool rounds are used up, or the context is.  A run with a
context policy keeps a handover: when the conversation gets too long the next request
starts again from the handover alone.

One step of the loop is one iteration, or the final synthesis once the rounds are used
up.  What the endpoint, the tools, the disk and the caller's context do in a step is an
input of the step.
-/

namespace OpenExec.Execution

open Agent GoStrings

inductive EventType
  | usage
  | started
  | assistantDelta
  | toolProposed
  | toolStarted
  | toolCompleted
  | failed
  | cancelled
  | completed
  | inconclusive
  | checkpoint
  deriving DecidableEq

inductive Outcome
  | succeeded
  | failed
  | cancelled
  | inconclusive
  deriving DecidableEq

inductive Reason
  | maxTurns
  | contextCheckpoint
  deriving DecidableEq

structure Event where
  type : EventType
  inputTokens : Int := 0
  outputTokens : Int := 0
  usageFinal : Bool := false
  text : String := ""
  callID : String := ""
  toolName : String := ""
  data : RawMessage := .absent
  reason : Option Reason := none

/-- How a run ended; its final text is kept with the state of the loop. -/
structure Result where
  outcome : Outcome
  reason : Option Reason := none
  error : Option Fault := none

/-- A context policy by the thresholds that follow from its window, ratios, speed and
timeout. -/
structure ContextPolicy where
  disabled : Bool
  softTokens : Int
  hardTokens : Int
  hardBytes : Int
  timeTokens : Int
  maxInlineToolBytes : Int
  maxChains : Nat

inductive Admission
  | ok
  | soft
  | hard

def ContextPolicy.admitSize (policy : ContextPolicy) (size : Size) : Admission × String :=
  if policy.timeTokens > 0 ∧ size.tokens > policy.timeTokens then
    (.hard, "prompt processing would not finish inside the request timeout")
  else if size.tokens > policy.hardTokens then (.hard, "estimated tokens past the hard threshold")
  else if size.bytes > policy.hardBytes then (.hard, "request bytes past the hard threshold")
  else if size.tokens > policy.softTokens then (.soft, "estimated tokens past the soft threshold")
  else if policy.timeTokens > 0 ∧ size.tokens > policy.timeTokens.tdiv 2 then
    (.soft, "prompt processing past half of the request timeout")
  else (.ok, "")

def sizeFailure (fault : Fault) (tokens : Int) (policy : ContextPolicy) : Bool :=
  let text := fault.text.toList.map toLower
  if fault.overflow.isSome then true
  else if contains text "context" &&
      (contains text "exceed" || contains text "too long" || contains text "length") then true
  else if contains text "timeout" || contains text "deadline exceeded" ||
      contains text "awaiting headers" then decide (tokens > policy.softTokens.tdiv 2)
  else false

def updateHandoverTool : String := "update_handover"

def readSavedTool : String := "read_saved_output"

def handoverToolDefinition : ToolDefinition where
  name := updateHandoverTool
  description :=
    "Update the run's handover document, which carries this task across context checkpoints. " ++
    "Give what is done, the ordered next steps, decisions and why, and open questions; each " ++
    "field replaces the previous text. Files, commands and test results are recorded for you."
  inputSchema := .json
    ("\x7b\"type\":\"object\",\"properties\":\x7b\"done\":\x7b\"type\":\"string\"\x7d," ++
      "\"next_steps\":\x7b\"type\":\"string\"\x7d,\"decisions\":\x7b\"type\":\"string\"\x7d," ++
      "\"open_questions\":\x7b\"type\":\"string\"\x7d,\"constraints\":\x7b\"type\":\"string\"\x7d\x7d," ++
      "\"additionalProperties\":false\x7d")

def readSavedDefinition : ToolDefinition where
  name := readSavedTool
  description :=
    "Read a range of lines of a large tool output the harness saved to disk (an id such as " ++
    "out-0003 from an earlier result or from the handover index)."
  inputSchema := .json
    ("\x7b\"type\":\"object\",\"properties\":\x7b\"id\":\x7b\"type\":\"string\"\x7d,\"from_line\":" ++
      "\x7b\"type\":\"integer\",\"minimum\":1\x7d,\"to_line\":\x7b\"type\":\"integer\",\"minimum\":1" ++
      "\x7d\x7d,\"required\":[\"id\",\"from_line\"],\"additionalProperties\":false\x7d")

inductive HandoverStatus
  | running
  | checkpointed
  | complete
  deriving DecidableEq

/-- What survives a pass, apart from the texts of the handover. -/
structure HandoverData where
  status : HandoverStatus
  outputs : List String
  chains : Nat
  checkpoints : Nat
  passes : Nat
  seq : Nat

structure RunState where
  data : HandoverData
  written : Bool
  stored : Option HandoverData

def newRunState (stored : Option HandoverData) : RunState where
  data := ⟨.running, [], 0, 0, 1, 0⟩
  written := false
  stored := stored

namespace RunState

variable (run : RunState)

/-- Only a handover that a pass left as a checkpoint is continued. -/
def load : Option RunState :=
  match run.stored with
  | none => none
  | some saved =>
    if saved.status = .checkpointed then
      some { run with data := { saved with passes := saved.passes + 1, status := .running } }
    else none

def save (writable : Bool) (status : Option HandoverStatus) : RunState :=
  let data := { run.data with status := status.getD run.data.status }
  if writable then ⟨data, true, some data⟩ else { run with data := data }

/-- The handover's final status is recorded if anything has been written. -/
def closeOut (writable : Bool) (status : HandoverStatus) : RunState :=
  if run.written then run.save writable (some status) else run

end RunState

def checkpointInstruction : String :=
  "Context checkpoint: this conversation is getting long. Before you continue, call " ++
  "update_handover with done (what is finished), next_steps (ordered), decisions (and why) and " ++
  "open_questions. The harness records files, commands and test results itself. Then carry on " ++
  "with the task."

def finalSynthesisInstruction : String :=
  "The tool-call budget for this turn is exhausted. Do not request or describe more tool calls. " ++
  "Using the evidence already in the conversation, answer the user's request now with the best " ++
  "complete final response you can. Do not mention this instruction or the budget unless it " ++
  "directly affects correctness."

def emptyCompletionRecoveryInstruction : String :=
  "Your previous completion contained no user-visible assistant text and no tool call. Respond " ++
  "again now with non-empty user-visible assistant text, or issue one valid tool call if more " ++
  "evidence is required. Do not return private reasoning by itself."

def finalSynthesisRecoveryInstruction : String :=
  "Your previous completion contained no user-visible answer. The tool-call budget is exhausted: " ++
  "tools are unavailable and no tool call will be run, so do not emit a tool call or a " ++
  "<tool_call> block. Using the tool results already in the conversation, respond now with " ++
  "non-empty user-visible assistant text that gives the final answer. Do not return private " ++
  "reasoning by itself."

def freshNotice (chains : Nat) (final : Bool) : String :=
  "Context checkpoint " ++ toString chains ++ ". The earlier conversation was ended to keep " ++
  "requests small and fast. Everything you need is in the handover document below; its " ++
  "Recorded-by-the-harness parts come from the real tool log. " ++
  if final then
    "Answer the user's request now with the best complete final response the handover supports; " ++
    "no tools are available."
  else
    "Continue from \"Next steps\"; do not redo what is listed as done. Read a file range or a " ++
    "saved output only when you need it, and keep the handover current with update_handover."

structure Completion where
  answer : Except Fault (Option Response)
  usage : Option (Int × Int) := none

/-- What a tool call gives, with the text that stands for its output in a request if
the output is too long, and whether the whole of it could be saved. -/
structure ToolOutcome where
  output : String
  error : Option String := none
  shortened : String := ""
  saved : Bool := false

/-- What the surroundings do in one step: whether the caller's context is done at its
start and after a failed completion, the answers to its completions, the results of its
tool calls, the rendered handover and its path, and whether the disk accepts writes. -/
structure World where
  cancelled : Option String := none
  cancelledLater : Option String := none
  first : Completion
  second : Completion
  third : Completion
  fourth : Completion
  tool : Nat → ToolOutcome
  rendered : String
  path : String
  writable : Bool

/-- A round of tool calls: whether one of them went to a tool other than the handover's
own, and whether it used up one of the rounds. -/
structure ToolRound where
  external : Bool
  charged : Bool

structure LoopState where
  messages : List Message
  rounds : Nat
  localOnly : Nat
  askedHandover : Bool
  askedCheckpoint : Bool
  fresh : Bool
  run : Option RunState
  finalText : String
  events : List Event
  result : Option Result
  -- The rest is only a record: the requests that the adapter was given, the rounds of
  -- tool calls, and the number of chains that this run started from its handover.
  dispatched : List Request
  toolRounds : List ToolRound
  started : Nat

structure Provider where
  tools : List ToolDefinition
  maxSteps : Nat
  policy : ContextPolicy

structure HistoryMessage where
  assistant : Bool
  content : String

structure RunRequest where
  model : String
  system : String
  prompt : String
  history : List HistoryMessage

def replayMessages (request : RunRequest) : List Message :=
  request.history.map (fun message =>
    newTextMessage (if message.assistant then .assistant else .user) message.content) ++
    [newTextMessage .user request.prompt]

namespace LoopState

variable (state : LoopState)

def emit (event : Event) : LoopState :=
  { state with events := state.events ++ [event] }

def finish (event : Event) (result : Result) : LoopState :=
  { state.emit event with result := some result }

def fail (fault : Fault) : LoopState :=
  state.finish { type := .failed, text := fault.text } { outcome := .failed, error := some fault }

def cancel (reason : String) : LoopState :=
  state.finish { type := .cancelled }
    { outcome := .cancelled, error := some { text := reason } }

def closeOut (world : World) : LoopState :=
  { state with run := state.run.map fun run => run.closeOut world.writable .complete }

/-- The conversation starts again from the handover alone. -/
def freshMessages (world : World) (final : Bool) : LoopState :=
  match state.run with
  | none => state
  | some run =>
    let data := { run.data with chains := run.data.chains + 1 }
    { state with
      run := some (RunState.save { run with data := data } world.writable none)
      messages :=
        [newTextMessage .user (freshNotice data.chains final ++ "\n\n" ++ world.rendered)] }

def chains : Nat :=
  match state.run with
  | none => 0
  | some run => run.data.chains

end LoopState

variable (state : LoopState) (request : Request)

/-- A conversation that no chat template can render is not sent. -/
def completeChecked (completion : Completion) : LoopState × Except Fault (Option Response) :=
  match validateTransportConversation request.messages with
  | .error reason => (state, .error { text := reason })
  | .ok _ =>
    let state := { state with dispatched := state.dispatched ++ [request] }
    match completion.usage with
    | none => (state, completion.answer)
    | some (input, output) =>
      (state.emit { type := .usage, inputTokens := input, outputTokens := output },
        completion.answer)

def emptyRecoveryError (first second : Option Response) : Fault where
  text :=
    (if responseHasReasoning first || responseHasReasoning second then
      "API provider returned reasoning but neither assistant text nor tool calls after one " ++
      "recovery attempt"
    else
      "API provider returned neither assistant text nor tool calls after one recovery attempt") ++
    nativeCompletionEvidence first ++ nativeCompletionEvidence second

def emptyRecoveryRequest : Request :=
  { request with
    messages := request.messages ++ [newTextMessage .user emptyCompletionRecoveryInstruction] }

/-- The second chance of a model whose first completion shows nothing. -/
def recoverEmpty (empty : Option Response)
    (completion : Completion) : LoopState × Except Fault Response :=
  match completeChecked state (emptyRecoveryRequest request) completion with
  | (state, .error fault) =>
    (state, .error (fault.wrap
      ("API provider empty-response recovery failed" ++ nativeCompletionEvidence empty ++ ": ")))
  | (state, .ok none) => (state, .error (emptyRecoveryError empty none))
  | (state, .ok (some response)) =>
    if responseHasVisibleOutcome (some response) then (state, .ok response)
    else (state, .error (emptyRecoveryError empty (some response)))

def completeWithEmptyRecovery (first second : Completion) : LoopState × Except Fault Response :=
  match completeChecked state request first with
  | (state, .error fault) => (state, .error fault)
  | (state, .ok none) => recoverEmpty state request none second
  | (state, .ok (some response)) =>
    if responseHasVisibleOutcome (some response) then (state, .ok response)
    else recoverEmpty state request (some response) second

def appendSystemInstruction (system instruction : String) : String :=
  let system := trimSpace system
  if system = "" then instruction else system ++ "\n\n" ++ instruction

def synthesisRecoveryError (first second : Option Response) : Fault where
  text :=
    if responseHasToolCall first || responseContainsSerializedToolCall first ||
        responseHasToolCall second || responseContainsSerializedToolCall second then
      "API provider returned a tool call instead of assistant text after the tool budget was " ++
      "exhausted"
    else if responseHasReasoning first || responseHasReasoning second then
      "API provider returned reasoning but no assistant text after final-synthesis recovery"
    else "API provider returned no assistant text after final-synthesis recovery"

def synthesisRecovery (model : String) : String :=
  if contains (model.toList.map toLower) "qwen" then
    "/no_think\n" ++ finalSynthesisRecoveryInstruction
  else finalSynthesisRecoveryInstruction

def synthesisRecoveryRequest : Request :=
  { request with
    system := appendSystemInstruction request.system finalSynthesisRecoveryInstruction
    tools := []
    toolChoice := "none"
    messages := request.messages ++ [newTextMessage .user (synthesisRecovery request.model)] }

variable (state : LoopState)

def recoverSynthesis (request : Request) (poor : Option Response)
    (completion : Completion) : LoopState × Except Fault Response :=
  match completeChecked state (synthesisRecoveryRequest request) completion with
  | (state, .error fault) =>
    (state, .error (fault.wrap "API provider final-synthesis recovery failed: "))
  | (state, .ok none) => (state, .error (synthesisRecoveryError poor none))
  | (state, .ok (some response)) =>
    if responseHasFinalAnswerText (some response) then (state, .ok response)
    else (state, .error (synthesisRecoveryError poor (some response)))

def completeFinalSynthesis (request : Request)
    (first second : Completion) : LoopState × Except Fault Response :=
  match completeChecked state request first with
  | (state, .error fault) => (state, .error fault)
  | (state, .ok none) => recoverSynthesis state request none second
  | (state, .ok (some response)) =>
    if responseHasFinalAnswerText (some response) then (state, .ok response)
    else recoverSynthesis state request (some response) second

def deltas (response : Response) : List String :=
  (response.content.filter fun block => block.type = .text && block.text ≠ "").map (·.text)

def LoopState.showTexts (response : Response) : LoopState :=
  { state with
    finalText := state.finalText ++ String.join (deltas response)
    events := state.events ++
      (deltas response).map fun text => { type := .assistantDelta, text := text } }

def servesItself (run : Option RunState) (call : ContentBlock) : Bool :=
  run.isSome && (call.toolName = updateHandoverTool || call.toolName = readSavedTool)

/-- The number of a saved output, with at least four digits. -/
def outputID (seq : Nat) : String :=
  let digits := toString seq
  "out-" ++ String.ofList (List.replicate (4 - digits.length) '0') ++ digits

/-- The handover after a call, and the output as it enters the next request. -/
def RunState.afterCall (policy : ContextPolicy) (call : ContentBlock) (outcome : ToolOutcome)
    (run : RunState) : RunState × String :=
  let run :=
    if call.toolName = updateHandoverTool ∧ outcome.error = none then run.save true none else run
  if outcome.error ≠ none ∨ (outcome.output.utf8ByteSize : Int) ≤ policy.maxInlineToolBytes ∨
      call.toolName = readSavedTool ∨ call.toolName = updateHandoverTool then (run, outcome.output)
  else
    let seq := run.data.seq + 1
    let outputs :=
      if outcome.saved then run.data.outputs ++ [outputID seq] else run.data.outputs
    ({ run with data := { run.data with seq := seq, outputs := outputs } }, outcome.shortened)

def LoopState.runCall (policy : ContextPolicy) (state : LoopState) (call : ContentBlock)
    (outcome : ToolOutcome) : LoopState :=
  let event : Event :=
    { type := .toolProposed, callID := call.toolUseID, toolName := call.toolName
      data := call.toolInput }
  let (run, inRequest) :=
    match state.run with
    | none => (none, outcome.output)
    | some run =>
      let (run, inRequest) := run.afterCall policy call outcome
      (some run, inRequest)
  { state with
    events := state.events ++ [event, { event with type := .toolStarted },
        { event with type := .toolCompleted, text := outcome.error.getD outcome.output }]
    run := run
    messages :=
      state.messages ++ [newToolResultMessage call.toolUseID inRequest outcome.error] }

def LoopState.runCalls (policy : ContextPolicy) (outcomes : Nat → ToolOutcome) :
    LoopState → List ContentBlock → LoopState
  | state, [] => state
  | state, call :: calls =>
    LoopState.runCalls policy (fun index => outcomes (index + 1))
      (state.runCall policy call (outcomes 0)) calls

/-- Rounds that only touch the handover are free, up to eight of them in a row. -/
def LoopState.countRound (state : LoopState) (external : Bool) : LoopState :=
  let charge := external || decide (state.localOnly + 1 > 8)
  { state with
    rounds := if charge then state.rounds + 1 else state.rounds
    localOnly := if charge then 0 else state.localOnly + 1
    toolRounds := state.toolRounds ++ [⟨external, charge⟩] }

namespace Provider

variable (provider : Provider) (request : RunRequest) (world : World) (state : LoopState)

def toolsNow : List ToolDefinition :=
  provider.tools ++
    (if state.run.isSome && state.askedHandover then [handoverToolDefinition] else []) ++
    match state.run with
    | none => []
    | some run => if run.data.outputs.length > 0 then [readSavedDefinition] else []

def roundRequest : Request where
  model := request.model
  messages := state.messages
  system := request.system
  tools := provider.toolsNow state
  toolChoice := "auto"

variable (why : String)

def endCheckpoint : LoopState :=
  let message :=
    "Context checkpoint (" ++ why ++ "). The handover is saved at " ++ world.path ++
    "; the next pass continues from it."
  let state : LoopState :=
    { state with
      run := state.run.map fun run => run.save world.writable (some .checkpointed)
      finalText := state.finalText ++ message }
  state.finish { type := .inconclusive, text := message, reason := some .contextCheckpoint }
    { outcome := .inconclusive, reason := some .contextCheckpoint }

def restart : Option LoopState :=
  if state.fresh || decide (state.chains ≥ provider.policy.maxChains) then none
  else
    let state := state.freshMessages world false
    some ({ state with
      askedCheckpoint := false
      fresh := true
      started := state.started + 1 }.emit
        { type := .checkpoint
          text := "request chain ended (" ++ why ++ "); continuing from " ++ world.path })

/-- A chain that has grown too long starts again, or the pass ends. -/
def restartOrEnd (ending : String) : LoopState :=
  match provider.restart world state why with
  | none => endCheckpoint world state ending
  | some state => state

def askCheckpoint : LoopState :=
  let run := state.run.map fun run =>
    RunState.save { run with data := { run.data with checkpoints := run.data.checkpoints + 1 } }
      world.writable none
  { state with
    askedCheckpoint := true
    askedHandover := true
    run := run
    messages := state.messages ++ [newTextMessage .user checkpointInstruction] }.emit
      { type := .checkpoint, text := "checkpoint (" ++ why ++ "); handover at " ++ world.path }

def admitRound : LoopState ⊕ LoopState × Int :=
  match state.run with
  | none => .inr (state, 0)
  | some _ =>
    let size := estimateRequest (provider.roundRequest request state)
    match provider.policy.admitSize size with
    | (.hard, why) => .inl (provider.restartOrEnd world state why why)
    | (.soft, why) =>
      if state.askedCheckpoint then .inr (state, size.tokens)
      else .inr (askCheckpoint world state why, size.tokens)
    | (.ok, _) => .inr (state, size.tokens)

def failRound (tokens : Int) (fault : Fault) : LoopState :=
  if state.run.isSome && world.cancelledLater.isNone &&
      sizeFailure fault tokens provider.policy then
    provider.restartOrEnd world state
      "the endpoint refused or abandoned the request for its size"
      "the endpoint refused the request for its size"
  else state.fail fault

def takeResponse (response : Response) : LoopState :=
  let answer : Message :=
    { role := .assistant, content := response.content, metadata := response.metadata }
  let state : LoopState := { state with fresh := false, messages := state.messages ++ [answer] }
  let state := state.showTexts response
  let calls := response.getToolCalls
  if calls = [] then
    if responseHasVisibleText (some response) then
      (state.closeOut world).finish { type := .completed } { outcome := .succeeded }
    else state.fail { text := "API provider returned neither assistant text nor tool calls" }
  else
    (LoopState.runCalls provider.policy world.tool state calls).countRound
      (calls.any fun call => !servesItself state.run call)

def iterate : LoopState :=
  match world.cancelled with
  | some reason => state.cancel reason
  | none =>
    match provider.admitRound request world state with
    | .inl state => state
    | .inr (state, tokens) =>
      match completeWithEmptyRecovery state (provider.roundRequest request state)
          world.first world.second with
      | (state, .error fault) => provider.failRound world state tokens fault
      | (state, .ok response) => provider.takeResponse world state response

def synthesisSystem : String :=
  let system := trimSpace request.system
  (if system = "" then system else system ++ "\n\n") ++ finalSynthesisInstruction

def synthesisRequest (tools : List ToolDefinition) : Request where
  model := request.model
  messages := state.messages
  system := synthesisSystem request
  tools := tools
  toolChoice := "none"

def rebuild : LoopState :=
  (state.freshMessages world true).emit
    { type := .checkpoint, text := "final synthesis from the handover: " ++ world.path }

def inconclusive (message : String) : LoopState :=
  { state with finalText := state.finalText ++ message }.finish
    { type := .inconclusive, text := message, reason := some .maxTurns }
    { outcome := .inconclusive, reason := some .maxTurns }

def concludeError (fault : Fault) : LoopState :=
  if fault.grantExhausted || fault.overflow.isSome then state.fail fault
  else
    inconclusive (state.closeOut world)
      ("API tool loop reached " ++ toString provider.maxSteps ++
        " rounds and final synthesis failed: " ++ fault.text)

def concludeText (response : Response) : LoopState :=
  let state := (state.showTexts response).closeOut world
  if deltas response = [] then
    inconclusive state
      ("API tool loop reached " ++ toString provider.maxSteps ++
        " rounds and final synthesis returned no text")
  else inconclusive state ""

def conclude (answered : LoopState × Except Fault Response) : LoopState :=
  match answered with
  | (state, .error fault) => provider.concludeError world state fault
  | (state, .ok response) => provider.concludeText world state response

def admitSynthesis : LoopState × List ToolDefinition × Bool :=
  match state.run with
  | none => (state, provider.tools, false)
  | some _ =>
    let size := estimateRequest (synthesisRequest request state provider.tools)
    match (provider.policy.admitSize size).1 with
    | .ok => (state, provider.tools, false)
    | _ => (rebuild world state, [], true)

def synthesize : LoopState :=
  match world.cancelled with
  | some reason => state.cancel reason
  | none =>
    let (state, tools, rebuilt) := provider.admitSynthesis request world state
    match completeFinalSynthesis state (synthesisRequest request state tools)
        world.first world.second with
    | (state, .error fault) =>
      if state.run.isSome && !rebuilt && world.cancelledLater.isNone &&
          sizeFailure fault (2 ^ 40 : Nat) provider.policy then
        let state := rebuild world state
        provider.conclude world
          (completeFinalSynthesis state (synthesisRequest request state [])
            world.third world.fourth)
      else provider.conclude world (state, .error fault)
    | (state, .ok response) => provider.conclude world (state, .ok response)

def step (state : LoopState) (world : World) : Option LoopState :=
  match state.result with
  | some _ => none
  | none =>
    some (if state.rounds < provider.maxSteps then provider.iterate request world state
      else provider.synthesize request world state)

/-- The loop before its first iteration, with the conversation and the handover that
it starts from. -/
def opening (messages : List Message) (run : Option RunState) : LoopState where
  messages := messages
  rounds := 0
  localOnly := 0
  askedHandover := false
  askedCheckpoint := false
  fresh := false
  run := run
  finalText := ""
  events := [{ type := .started }]
  result := none
  dispatched := []
  toolRounds := []
  started := 0

def start (stored : Option HandoverData) : LoopState :=
  let messages := replayMessages request
  if provider.policy.disabled then opening messages none
  else
    match (newRunState stored).load with
    | none => opening messages (some (newRunState stored))
    | some run =>
      let state := (opening messages (some run)).freshMessages world false
      { state with fresh := true, started := 1 }.emit
        { type := .checkpoint
          text := "resumed from the handover of an earlier pass: " ++ world.path }

end Provider

end OpenExec.Execution
