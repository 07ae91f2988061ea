import OpenExec.Conversations
import OpenExec.GuardedRuns

/-!
# The hard token grant of a run

Every completion of a run with a hard grant goes through one meter.  It reserves the
worst case before an inference, gives back what was not used after it, and keeps the
reservation of an inference whose usage it does not learn.  A request that the adapter
refuses before sending it may be prepared again, with less output, with repeated
results left out, or once with a larger context.
-/

namespace OpenExec.Execution

open Agent

def minimumOutput : Int := 2048

def maxAPIContextTokens : Int := 65536

def recallTool : String := "recall_prior_tool_result"

def recallDefinition : ToolDefinition where
  name := recallTool
  description :=
    "Read a page of a prior tool result retained from this execution after context compaction."
  inputSchema := .json
    ("\x7b\"type\":\"object\",\"properties\":\x7b\"id\":\x7b\"type\":\"string\"\x7d,\"offset\":" ++
      "\x7b\"type\":\"integer\",\"minimum\":0\x7d\x7d,\"required\":[\"id\",\"offset\"]," ++
      "\"additionalProperties\":false\x7d")

/-- Results that are kept out of a request, by the digest of their text. -/
abbrev PriorResults := List (String × String)

/-- What a bounded completion may answer: a response, a refusal before anything was
sent, or an error after that. -/
inductive BoundedAnswer
  | completed (response : Option Response)
  | refused (estimatedTokens requestBytes : Int)
  | failed (fault : Fault)
  deriving DecidableEq

structure BoundedCall where
  request : Request
  inputCap : Int
  outputCap : Int
  answer : BoundedAnswer

/-- The adapter, which may answer a call by all the earlier ones, the sink of usage
events, and the functions that leave results out of a request. -/
structure Endpoint where
  completeBounded : List BoundedCall → Request → Int → Int → BoundedAnswer
  nativeContextWindow : String → Option Int
  sink : Int → Int → Option Fault
  compactRepeatedResults : Request → Request × Bool
  compactPrior : PriorResults → Request → PriorResults × Request × Bool

structure MeterConfig where
  contextLimit : Int
  providerContext : Int
  nonThinking : Bool
  trustedDirectoryResults : Bool

structure Meter where
  remaining : Int
  input : Int
  output : Int
  unknown : Bool
  contextCap : Int
  contextTarget : Int
  prior : Option PriorResults

/-- The meter and the bounded calls made through it, the last one first. -/
structure Metered where
  meter : Meter
  calls : List BoundedCall

def Metered.start (grant : Int) : Metered where
  meter :=
    { remaining := grant, input := 0, output := 0, unknown := false, contextCap := 0
      contextTarget := 0, prior := none }
  calls := []

variable (endpoint : Endpoint) (config : MeterConfig)

def MeterConfig.ceiling (config : MeterConfig) : Int :=
  let ceiling := maxAPIContextTokens
  let ceiling :=
    if config.providerContext > 0 ∧ config.providerContext < ceiling then config.providerContext
    else ceiling
  if config.contextLimit > 0 ∧ config.contextLimit < ceiling then config.contextLimit else ceiling

/-- The last of the doublings of a positive number that is within the bound. -/
def doubled (bound cap : Int) : Int :=
  if 0 < cap ∧ cap * 2 ≤ bound then doubled bound (cap * 2) else cap
termination_by (bound - cap).toNat

def selectContext (meter : Meter) : Meter :=
  if meter.contextCap = 0 then
    { meter with
      contextCap := doubled (min config.ceiling (meter.remaining - minimumOutput)) 2048
      contextTarget := doubled config.ceiling 2048 }
  else meter

def minNonzero (values : List Int) : Int :=
  values.foldl (fun result value =>
    if value > 0 ∧ (result = 0 ∨ value < result) then value else result) 0

def errHardTokenGrantExhausted : Fault where
  text := "hard token grant cannot admit another inference"
  grantExhausted := true

def contextGrantError (remaining selected estimatedTokens requestBytes
    requiredContext : Int) : Fault where
  text :=
    "hard token grant cannot admit inference: remaining grant=" ++ toString remaining ++
    " selected context=" ++ toString selected ++ " provider/request ceiling=" ++
    toString (minNonzero [config.providerContext, config.contextLimit, maxAPIContextTokens]) ++
    " (estimated_tokens=" ++ toString estimatedTokens ++ " request_bytes=" ++
    toString requestBytes ++ " required_context=" ++ toString requiredContext ++
    " output_reserve=" ++ toString minimumOutput ++ " required_grant=" ++
    toString (requiredContext + minimumOutput) ++ " original_grant=" ++ toString remaining ++
    " branch=preflight_overflow_resize_declined)"
  grantExhausted := true
  grantContext := true

def misconfiguration (window : Int) (model : String) : Fault where
  text :=
    "context_misconfiguration: provider context_tokens=" ++ toString config.providerContext ++
    " is materially below model metadata window=" ++ toString window ++ " (model=" ++ model ++ ")"

def reservationViolated : Fault where
  text := "provider violated token reservation"

def thinkingIgnored : Fault where
  text := "native provider ignored non-thinking mode"

def refusal (input estimatedTokens requestBytes : Int) : Fault :=
  let overflow : ContextOverflowError := ⟨estimatedTokens, input, requestBytes, false⟩
  { text := overflow.error, overflow := some overflow }

/-- A prepared request: the output that is still reserved for it, and the answer. -/
structure Prepared where
  metered : Metered
  output : Int
  answer : BoundedAnswer

def Endpoint.call (metered : Metered) (request : Request) (input output : Int) : Prepared :=
  let answer := endpoint.completeBounded metered.calls request input output
  { metered := { metered with calls := ⟨request, input, output, answer⟩ :: metered.calls }
    output := output
    answer := answer }

def Endpoint.prepare (metered : Metered) (request : Request) (input output : Int) : Prepared :=
  let first := endpoint.call metered request input output
  match first.answer with
  | .refused estimatedTokens _ =>
    let room := input - estimatedTokens
    if room ≥ minimumOutput ∧ room < output then
      let meter := first.metered.meter
      endpoint.call
        { first.metered with
          meter := { meter with remaining := meter.remaining + (output - room) } }
        request input room
    else first
  | _ => first

variable (meter : Meter) (request : Request)

/-- The request as it is sent once results have been kept out of an earlier one. -/
def Endpoint.withPrior : Meter × Request :=
  match meter.prior with
  | none => (meter, request)
  | some prior =>
    let (prior, compacted, changed) := endpoint.compactPrior prior request
    if changed && request.toolChoice ≠ "none" then
      ({ meter with prior := some prior }, compacted)
    else
      ({ meter with prior := some prior },
        { request with tools := request.tools ++ [recallDefinition] })

/-- A refused request is rebuilt without the exact repetitions of a result. -/
def Endpoint.withoutRepeated (input : Int) (prepared : Prepared) : Prepared :=
  match prepared.answer with
  | .refused _ _ =>
    let (compacted, changed) := endpoint.compactRepeatedResults request
    if changed then endpoint.prepare prepared.metered compacted input prepared.output else prepared
  | _ => prepared

def mayKeepPrior : Bool :=
  meter.prior.isNone && config.trustedDirectoryResults && request.toolChoice ≠ "none" &&
    decide (request.tools.length > 0) && !(request.tools.any fun tool => tool.name = recallTool)

/-- A request that is still refused is rebuilt without earlier directory listings. -/
def Endpoint.withoutPrior (input : Int) (prepared : Prepared) : Prepared :=
  match prepared.answer with
  | .refused _ _ =>
    if mayKeepPrior config prepared.metered.meter request then
      let (prior, compacted, changed) := endpoint.compactPrior [] request
      if changed then
        let again := endpoint.prepare prepared.metered compacted input prepared.output
        match again.answer with
        | .completed _ =>
          let meter := again.metered.meter
          { again with
            metered := { again.metered with meter := { meter with prior := some prior } } }
        | _ => again
      else prepared
    else prepared
  | _ => prepared

/-- An attempt returns, or asks to be repeated with a larger context. -/
inductive Attempted
  | returned (result : Except Fault Response)
  | resize

def Endpoint.refusalError (input estimatedTokens requestBytes : Int) : Fault :=
  let required := estimatedTokens + minimumOutput + 16
  if meter.input = 0 ∧ meter.output = 0 ∧ requestBytes > 0 ∧ input < meter.contextTarget ∧
      estimatedTokens + minimumOutput ≤ meter.contextTarget then
    contextGrantError config meter.remaining input estimatedTokens requestBytes required
  else if config.providerContext > 0 ∧ config.providerContext ≤ maxAPIContextTokens ∧
      (config.contextLimit = 0 ∨ config.providerContext < config.contextLimit) then
    match endpoint.nativeContextWindow request.model with
    | some window =>
      if config.providerContext ≤ window.tdiv 4 ∧ estimatedTokens + minimumOutput ≤ window then
        misconfiguration config window request.model
      else refusal input estimatedTokens requestBytes
    | none => refusal input estimatedTokens requestBytes
  else refusal input estimatedTokens requestBytes

/-- Usage that the reservation covers. -/
def Usage.Within (usage : Usage) (input output : Int) : Prop :=
  0 ≤ usage.promptTokens ∧ 0 ≤ usage.completionTokens ∧ usage.promptTokens ≤ input ∧
    usage.completionTokens ≤ output

instance (usage : Usage) (input output : Int) : Decidable (Usage.Within usage input output) :=
  inferInstanceAs (Decidable (_ ∧ _))

variable (metered : Metered)

def Metered.keepReservation (fault : Fault) : Metered × Attempted :=
  ({ metered with meter := { metered.meter with unknown := true } }, .returned (.error fault))

variable (request : Request)

/-- What becomes of the reservation once the adapter has answered. -/
def Endpoint.settle
    (allowResize : Bool) (input : Int) (prepared : Prepared) : Metered × Attempted :=
  let metered := prepared.metered
  let meter := metered.meter
  let output := prepared.output
  match prepared.answer with
  | .refused estimatedTokens requestBytes =>
    let meter := { meter with remaining := meter.remaining + (input + output) }
    let required := estimatedTokens + minimumOutput + 16
    if allowResize = true ∧ meter.input = 0 ∧ meter.output = 0 ∧ requestBytes > 0 ∧
        required > input ∧ required ≤ meter.contextTarget ∧
        required + minimumOutput ≤ meter.remaining then
      ({ metered with meter := { meter with contextCap := required } }, .resize)
    else
      ({ metered with meter := meter }, .returned (.error
          (endpoint.refusalError config meter request input estimatedTokens requestBytes)))
  | .failed fault => metered.keepReservation fault
  | .completed none => metered.keepReservation reservationViolated
  | .completed (some response) =>
    if Usage.Within response.usage input output then
      let usedInput := response.usage.promptTokens
      let usedOutput := response.usage.completionTokens
      let meter :=
        { meter with
          remaining := meter.remaining + (input + output - usedInput - usedOutput)
          input := meter.input + usedInput
          output := meter.output + usedOutput }
      let result : Except Fault Response :=
        match endpoint.sink meter.input meter.output with
        | some fault => .error fault
        | none =>
          if config.nonThinking &&
              (response.metadata.map Metadata.thinking).getD "" ≠ "" then
            .error thinkingIgnored
          else .ok response
      ({ metered with meter := meter }, .returned result)
    else metered.keepReservation reservationViolated

def outputReserve (remaining input : Int) : Int :=
  let output := min input (remaining - input)
  if request.maxTokens > 0 then min output request.maxTokens else output

def Endpoint.attempt (allowResize : Bool) : Metered × Attempted :=
  let request := { request with nonThinking := config.nonThinking }
  if metered.meter.remaining < 4096 then (metered, .returned (.error errHardTokenGrantExhausted))
  else
    let meter := selectContext config metered.meter
    let input := meter.contextCap
    if meter.remaining < input + minimumOutput then
      ({ metered with meter := meter }, .returned (.error errHardTokenGrantExhausted))
    else
      let output := outputReserve request meter.remaining input
      let meter := { meter with remaining := meter.remaining - (input + output) }
      let (meter, request) := endpoint.withPrior meter request
      let prepared := endpoint.prepare { metered with meter := meter } request input output
      let prepared := endpoint.withoutRepeated request input prepared
      let prepared := endpoint.withoutPrior config request input prepared
      endpoint.settle config request allowResize input prepared

def Attempted.result : Attempted → Except Fault Response
  | .returned result => result
  | .resize => .error errHardTokenGrantExhausted

def Endpoint.complete : Metered × Except Fault Response :=
  match endpoint.attempt config metered request true with
  | (metered, .returned result) => (metered, result)
  | (metered, .resize) =>
    let (metered, outcome) := endpoint.attempt config metered request false
    (metered, outcome.result)

/-- A run is a sequence of completions. -/
def Endpoint.step (metered : Metered) (request : Request) : Option Metered :=
  some (endpoint.complete config metered request).1

end OpenExec.Execution
