import OpenExec.ToolLoopBounds
import OpenExec.TokenGrant

/-!
# One execution of an API provider

An execution checks its request, reports that it has started, and then streams one
answer or, with tools, runs the tool loop.  With a hard token grant all of this happens
behind a meter, which reports the usage of the execution at its end.

The sink of the events never fails here: an event that is sent is added to a list.
-/

namespace OpenExec.Execution

open Agent GoStrings GuardedRuns

structure ReplayedMessage where
  role : String
  content : String

structure ExecuteRequest where
  nonThinking : Bool := false
  tokenBudget : Int := 0
  contextTokenLimit : Int := 0
  id : String
  workingDir : String
  prompt : String
  model : String
  sandboxMode : String
  writableRoots : List String := []
  system : String := ""
  history : List ReplayedMessage := []
  toolGateway : String := ""
  networkAccess : Bool := false
  nativeSessionID : String := ""

variable (request : ExecuteRequest)

def validateProviderRequest : Option String :=
  if trimSpace request.id = "" ∨ trimSpace request.workingDir = "" ∨
      trimSpace request.prompt = "" then
    some "execution ID, working directory, and prompt are required"
  else if request.sandboxMode ≠ "read-only" ∧ request.sandboxMode ≠ "workspace-write" then
    some ("agent CLI provider cannot enforce sandbox mode " ++ quoteName request.sandboxMode)
  else if request.sandboxMode = "read-only" ∧ request.writableRoots ≠ [] then
    some "read-only execution cannot declare writable roots"
  else if request.networkAccess ∧ request.sandboxMode ≠ "workspace-write" then
    some "network access requires workspace-write mode"
  else
    (request.writableRoots.find? fun root => !hasPrefix root "/").map fun root =>
      "writable root must be absolute: " ++ quoteName root

def maxHistoryBytes : Nat := 65536

def maxSystemBytes : Nat := 16384

/-- The check of a history whose first messages, of the given size, have been checked. -/
def validateHistory (index total : Nat) : List ReplayedMessage → Option String
  | [] =>
    if total > maxHistoryBytes then
      some ("history is " ++ toString total ++ " bytes, over the " ++
        toString maxHistoryBytes ++ " byte budget")
    else none
  | message :: rest =>
    if message.role ≠ "user" ∧ message.role ≠ "assistant" then
      some ("history[" ++ toString index ++ "] has role " ++ quoteName message.role ++
        "; only \"user\" and \"assistant\" may be replayed")
    else if trimSpace message.content = "" then
      some ("history[" ++ toString index ++ "] is empty")
    else validateHistory (index + 1) (total + message.content.utf8ByteSize) rest

def ExecuteRequest.validateReplay : Option String :=
  if request.system.utf8ByteSize > maxSystemBytes then
    some ("system context is " ++ toString request.system.utf8ByteSize ++ " bytes, over the " ++
      toString maxSystemBytes ++ " byte budget")
  else validateHistory 0 0 request.history

def ExecuteRequest.toRun : RunRequest where
  model := request.model
  system := request.system
  prompt := request.prompt
  history := request.history.map fun message => ⟨message.role = "assistant", message.content⟩

/-- A provider: its tools and rounds, whether it has an executor for them, whether that
serves a gateway, what its adapter supports, and its context policy, which a hard token
grant narrows to a ceiling. -/
structure APIProvider where
  tools : List ToolDefinition
  maxSteps : Nat
  hasExecutor : Bool
  gateway : Bool
  supportsHardTokens : Bool
  supportsNativeNonThinking : Bool
  contextPolicy : Option Int → ContextPolicy

structure StreamEvent where
  isError : Bool
  error : Option Fault := none
  delta : Option String := none

/-- What the surroundings do in one execution: the adapter's check of the non-thinking
mode, the executor's check of the access, the stream of an unmetered execution without
tools, the completion and the usage behind the stream of a metered one, whether the
caller's context is done after it, the handover on disk, the steps of the tool loop, and
the totals of the meter. -/
structure Surroundings where
  nonThinkingError : Option Fault := none
  accessError : Option Fault := none
  stream : Except Fault (List StreamEvent)
  metered : Except Fault Response
  meteredUsage : Option (Int × Int) := none
  cancelled : Option String := none
  stored : Option HandoverData := none
  opening : World
  worlds : Nat → World
  input : Int := 0
  output : Int := 0
  unknown : Bool := false

structure Ran where
  outcome : Option Outcome
  reason : Option Reason := none
  finalText : String := ""
  error : Option Fault
  events : List Event

structure Spoken where
  finalText : String
  events : List Event

namespace Spoken

variable (spoken : Spoken)

def say (text : String) : Spoken where
  finalText := spoken.finalText ++ text
  events := spoken.events ++ [{ type := .assistantDelta, text := text }]

def close (event : Event) (outcome : Outcome) (error : Option Fault) : Ran where
  outcome := some outcome
  finalText := spoken.finalText
  error := error
  events := spoken.events ++ [event]

def fail (fault : Fault) : Ran :=
  spoken.close { type := .failed, text := fault.text } .failed (some fault)

def read : Spoken → List StreamEvent → Spoken × Option Fault
  | spoken, [] => (spoken, none)
  | spoken, event :: rest =>
    if event.isError then (spoken, some (event.error.getD { text := "API stream failed" }))
    else
      match event.delta with
      | none => read spoken rest
      | some text => if text = "" then read spoken rest else read (spoken.say text) rest

def finish (cancelled : Option String) : Ran :=
  match cancelled with
  | some reason => spoken.close { type := .cancelled } .cancelled (some { text := reason })
  | none =>
    if trimSpace spoken.finalText = "" then
      spoken.fail { text := "API provider returned no assistant text" }
    else spoken.close { type := .completed } .succeeded none

end Spoken

def openStream (isMetered : Bool) (around : Surroundings) :
    Spoken × Except Fault (List StreamEvent) :=
  let started : Event := { type := .started }
  if isMetered then
    let usage : List Event :=
      match around.meteredUsage with
      | none => []
      | some (input, output) => [{ type := .usage, inputTokens := input, outputTokens := output }]
    (⟨"", started :: usage⟩,
      around.metered.map fun response => [{ isError := false, delta := some response.getText }])
  else (⟨"", [started]⟩, around.stream)

def executeStream (isMetered : Bool) (around : Surroundings) : Ran :=
  match openStream isMetered around with
  | (spoken, .error fault) => spoken.fail fault
  | (spoken, .ok events) =>
    match spoken.read events with
    | (spoken, some fault) => spoken.fail fault
    | (spoken, none) => spoken.finish around.cancelled

def Provider.loop (provider : Provider) (request : RunRequest) :
    Nat → (Nat → World) → LoopState → LoopState
  | 0, _, state => state
  | steps + 1, worlds, state =>
    match provider.step request state (worlds 0) with
    | none => state
    | some next => Provider.loop provider request steps (fun index => worlds (index + 1)) next

def LoopState.ran (state : LoopState) : Ran where
  outcome := some (match state.result with
    | none => .failed
    | some result => result.outcome)
  reason := state.result.bind (·.reason)
  finalText := state.finalText
  error := state.result.bind (·.error)
  events := state.events

def Provider.runToolLoop (provider : Provider) (request : RunRequest) (around : Surroundings) :
    Ran :=
  let start := provider.start request around.opening around.stored
  (provider.loop request (provider.stepsLeft start) around.worlds start).ran

namespace APIProvider

variable (provider : APIProvider) (request : ExecuteRequest) (around : Surroundings)

/-- What stops an execution before it reports that it has started. -/
def refusal : Option Fault :=
  ((validateProviderRequest request).map fun text => { text := text }) <|>
  (request.validateReplay.map fun text => { text := text }) <|>
  (if request.toolGateway ≠ "" ∧ provider.gateway = false then
    some { text := "this provider has no tool gateway; the request named one" } else none) <|>
  (if request.nativeSessionID ≠ "" then
    some { text := "API provider does not support native CLI session resume" } else none) <|>
  (if request.sandboxMode = "workspace-write" ∧ provider.hasExecutor = false then
    some { text := "API provider cannot enforce workspace-write without a bounded tool executor" }
    else none) <|>
  (if provider.hasExecutor then
    around.accessError.map fun fault => fault.wrap "tool executor cannot enforce access: "
    else none)

/-- An execution, behind a meter if it is given the meter's ceiling. -/
def executeRun (ceiling : Option Int) : Ran :=
  match provider.refusal request around with
  | some fault => { outcome := some .failed, error := some fault, events := [] }
  | none =>
    if provider.tools = [] then executeStream ceiling.isSome around
    else
      Provider.runToolLoop ⟨provider.tools, provider.maxSteps, provider.contextPolicy ceiling⟩
        request.toRun around

def grantRefusal : Option Fault :=
  if request.nonThinking ∧ (request.tokenBudget ≤ 0 ∨
    provider.supportsNativeNonThinking = false) then
    some { text := "native non-thinking mode requires a supported adapter and hard token grant" }
  else
    (if request.nonThinking then around.nonThinkingError else none) <|>
    (if request.contextTokenLimit ≠ 0 ∧ (request.contextTokenLimit < 2048 ∨
        request.contextTokenLimit > maxAPIContextTokens ∨ request.tokenBudget ≤ 0) then
      some { text :=
        "context token limit requires a positive hard token grant and a ceiling between 2048 " ++
        "and " ++ toString maxAPIContextTokens }
    else if request.tokenBudget < 0 then some { text := "negative token grant" }
    else if request.tokenBudget > 0 ∧ provider.supportsHardTokens = false then
      some { text := "hard total-token admission unavailable" }
    else none)

def contextCeiling (contextTokenLimit : Int) : Int :=
  if contextTokenLimit > 0 ∧ contextTokenLimit < maxAPIContextTokens then contextTokenLimit
  else maxAPIContextTokens

def settle (ran : Ran) : Ran :=
  { ran with
    error := ran.error.map fun fault =>
      if fault.grantExhausted && !fault.grantContext then errHardTokenGrantExhausted else fault
    events := ran.events ++
      [{ type := .usage, inputTokens := around.input, outputTokens := around.output
         usageFinal := !around.unknown }] }

def execute : Ran :=
  match provider.grantRefusal request around with
  | some fault => { outcome := none, error := some fault, events := [] }
  | none =>
    if request.tokenBudget > 0 then
      settle around
        (provider.executeRun request around (some (contextCeiling request.contextTokenLimit)))
    else provider.executeRun request around none

end APIProvider

variable {provider : Provider} {request : RunRequest} {state : LoopState}

theorem reachable_loop {start : LoopState} (steps : Nat) (worlds : Nat → World)
    (reachable : Reachable (provider.step request) anyStep start state) :
    Reachable (provider.step request) anyStep start (provider.loop request steps worlds state) := by
  induction steps generalizing worlds state with
  | zero => exact reachable
  | succ steps ih =>
    unfold Provider.loop
    split
    · exact reachable
    · next taken => exact ih _ (.after reachable trivial taken)

theorem loop_ends {opening : World} {stored : Option HandoverData} {steps : Nat}
    (worlds : Nat → World) (reachable : Reachable (provider.step request) anyStep
      (provider.start request opening stored) state)
    (enough : provider.stepsLeft state ≤ steps) :
    (provider.loop request steps worlds state).result.isSome := by
  induction steps generalizing worlds state with
  | zero =>
    unfold Provider.stepsLeft at enough
    split at enough
    · next ended => exact ended
    · omega
  | succ steps ih =>
    unfold Provider.loop
    split
    · next stops => exact result_of_stop stops
    · next taken =>
      have lower := stepsLeft_lowers reachable trivial taken
      exact ih _ (.after reachable trivial taken) (by omega)

theorem runToolLoop_ends (provider : Provider) (request : RunRequest) (around : Surroundings) :
    ∃ state result, Reachable (provider.step request) anyStep
        (provider.start request around.opening around.stored) state ∧
      state.result = some result ∧ provider.runToolLoop request around = state.ran := by
  have ended := loop_ends around.worlds (.initial : Reachable (provider.step request) anyStep
    (provider.start request around.opening around.stored) _) (Nat.le_refl _)
  obtain ⟨result, isResult⟩ := Option.isSome_iff_exists.mp ended
  exact ⟨_, result, reachable_loop _ _ .initial, isResult, rfl⟩

end OpenExec.Execution
