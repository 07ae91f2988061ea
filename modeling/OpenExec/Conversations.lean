import OpenExec.GoStrings

/-!
# Conversations with a model

The messages, requests and responses that pass between the tool loop and the adapter
of a provider, and the tests the loop makes on them.
-/

namespace OpenExec.Agent

open GoStrings

inductive Role
  | user
  | assistant
  | system
  | tool
  deriving DecidableEq

def Role.toString : Role → String
  | .user => "user"
  | .assistant => "assistant"
  | .system => "system"
  | .tool => "tool"

inductive ContentType
  | text
  | image
  | toolUse
  | toolResult
  deriving DecidableEq

def ContentType.toString : ContentType → String
  | .text => "text"
  | .image => "image"
  | .toolUse => "tool_use"
  | .toolResult => "tool_result"

inductive RawMessage
  | absent
  | json (compact : String)
  | malformed (text : String)
  deriving DecidableEq

/-- A piece of a message.  The bytes of an image are given by their base64 text. -/
structure ContentBlock where
  type : ContentType
  text : String := ""
  imageURL : String := ""
  imageData : String := ""
  imageMedia : String := ""
  toolUseID : String := ""
  toolName : String := ""
  toolInput : RawMessage := .absent
  toolResultID : String := ""
  toolOutput : String := ""
  toolError : String := ""
  deriving DecidableEq

/-- The provider's own fields of a message: their JSON text, the fields with the model's
private reasoning, and the text that reports a native completion. -/
structure Metadata where
  json : RawMessage
  reasoningContent : String
  thinking : String
  nativeCompletion : String
  deriving DecidableEq

structure Message where
  role : Role
  content : List ContentBlock
  metadata : Option Metadata := none
  deriving DecidableEq

structure ToolDefinition where
  name : String
  description : String
  inputSchema : RawMessage
  deriving DecidableEq

structure Request where
  nonThinking : Bool := false
  model : String
  messages : List Message
  system : String
  tools : List ToolDefinition := []
  toolChoice : String := ""
  maxTokens : Int := 0
  deriving DecidableEq

structure Usage where
  promptTokens : Int
  completionTokens : Int
  deriving DecidableEq

structure Response where
  content : List ContentBlock
  usage : Usage
  metadata : Option Metadata := none
  deriving DecidableEq

structure ContextOverflowError where
  estimatedTokens : Int
  contextTokens : Int
  requestBytes : Int
  dispatched : Bool
  deriving DecidableEq

def ContextOverflowError.error (overflow : ContextOverflowError) : String :=
  "context_overflow: assembled request bytes=" ++ toString overflow.requestBytes ++
    " estimated_tokens=" ++ toString overflow.estimatedTokens ++
    " context=" ++ toString overflow.contextTokens ++
    " dispatched=" ++ toString overflow.dispatched

/-- An error: its text and the errors it wraps, as far as a caller asks for them. -/
structure Fault where
  text : String
  overflow : Option ContextOverflowError := none
  grantExhausted : Bool := false
  grantContext : Bool := false
  deriving DecidableEq

def Fault.wrap (fault : Fault) (leading : String) : Fault :=
  { fault with text := leading ++ fault.text }

def newTextMessage (role : Role) (text : String) : Message where
  role := role
  content := [{ type := .text, text := text }]

def newToolResultMessage (toolUseID output : String) (error : Option String) : Message where
  role := .tool
  content :=
    [{ type := .toolResult
       toolResultID := toolUseID
       toolOutput := output
       toolError := error.getD "" }]

def Message.getText (message : Message) : String :=
  String.join ((message.content.filter fun block => block.type = .text).map (·.text))

def Message.getToolCalls (message : Message) : List ContentBlock :=
  message.content.filter fun block => block.type = .toolUse

def Response.getText (response : Response) : String :=
  String.join ((response.content.filter fun block => block.type = .text).map (·.text))

def Response.getToolCalls (response : Response) : List ContentBlock :=
  response.content.filter fun block => block.type = .toolUse

def hasText (text : String) : Bool :=
  trimSpace text != ""

def responseHasVisibleText : Option Response → Bool
  | none => false
  | some response =>
    response.content.any fun block => block.type = .text && hasText block.text

def responseHasVisibleOutcome : Option Response → Bool
  | none => false
  | some response =>
    if response.getToolCalls.length > 0 then true else responseHasVisibleText (some response)

def responseContainsSerializedToolCall : Option Response → Bool
  | none => false
  | some response =>
    response.content.any fun block =>
      block.type = .text &&
        (contains (block.text.toList.map toLower) "<tool_call" ||
          contains (block.text.toList.map toLower) "</tool_call>")

variable (response : Option Response)

def responseHasFinalAnswerText : Bool :=
  responseHasVisibleText response && !responseContainsSerializedToolCall response

def responseHasToolCall : Option Response → Bool
  | none => false
  | some response => response.getToolCalls.length > 0

def responseHasReasoning : Bool :=
  match response.bind Response.metadata with
  | none => false
  | some metadata => hasText metadata.reasoningContent || hasText metadata.thinking

def nativeCompletionEvidence : String :=
  match response.bind Response.metadata with
  | none => ""
  | some metadata => metadata.nativeCompletion

def isPlainUserQuery (message : Message) : Bool :=
  if message.role ≠ .user then false
  else
    let text := trimSpace message.getText
    if text = "" then false
    else !(hasPrefix text "<tool_response>" && hasSuffix text.toList "</tool_response>")

def answerCalls (index : Nat) (pending : List String) :
    List ContentBlock → Except String (List String)
  | [] => .ok pending
  | block :: rest =>
    if block.type ≠ .toolResult then answerCalls index pending rest
    else if block.toolResultID ∈ pending then
      answerCalls index (pending.filter (· ≠ block.toolResultID)) rest
    else
      .error ("API conversation message " ++ toString index ++
        " has a tool result with no matching call")

def validateFrom (index : Nat) (pending : List String) (hasQuery : Bool) :
    List Message → Except String Unit
  | [] =>
    if pending ≠ [] then .error "API conversation ends with an unanswered tool call"
    else if hasQuery = false then
      .error "API conversation has no plain user query for the endpoint template"
    else .ok ()
  | message :: rest =>
    let unanswered :=
      "API conversation message " ++ toString index ++ " follows an unanswered tool call"
    match message.role with
    | .user =>
      if pending ≠ [] then .error unanswered
      else validateFrom (index + 1) [] (hasQuery || isPlainUserQuery message) rest
    | .assistant =>
      if pending ≠ [] then .error unanswered
      else validateFrom (index + 1) (message.getToolCalls.map (·.toolUseID)) hasQuery rest
    | .tool =>
      match answerCalls index pending message.content with
      | .error reason => .error reason
      | .ok pending => validateFrom (index + 1) pending hasQuery rest
    | .system =>
      .error ("API conversation message " ++ toString index ++ " has foreign role \"system\"")

def validateTransportConversation (messages : List Message) : Except String Unit :=
  if messages = [] then .error "API conversation is empty" else validateFrom 0 [] false messages

theorem isPlainUserQuery_of_visible {text : String} {c : Char} {rest : List Char}
    (starts : text.toList = c :: rest) (visible : isSpace c = false) (letter : c ≠ '<') :
    isPlainUserQuery (newTextMessage .user text) := by
  have isText : (newTextMessage .user text).getText = text := by
    simp [Message.getText, newTextMessage, String.join]
  obtain ⟨kept, isKept⟩ := trimSpace_of_visible starts visible
  have nonempty : trimSpace text ≠ "" := by
    intro empty
    rw [empty] at isKept
    cases isKept
  have noTag : hasPrefix (trimSpace text) "<tool_response>" = false := by
    rw [hasPrefix, isKept]
    simp [List.isPrefixOf, Ne.symm letter]
  simp only [isPlainUserQuery, isText]
  simp [newTextMessage, nonempty, noTag]

end OpenExec.Agent
