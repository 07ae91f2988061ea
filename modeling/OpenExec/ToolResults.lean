import OpenExec.ToolLoop

/-!
# Tool results on the wire

What a tool returned enters the conversation as one message, which each adapter writes in
its own way.
-/

namespace OpenExec.Execution

open Agent GoStrings List

structure GatewayBlock where
  type : String
  text : String

def GatewayBlock.shown (block : GatewayBlock) : String :=
  if block.type ≠ "" ∧ block.type ≠ "text" then "[" ++ block.type ++ "]" else block.text

def gatewayMaxToolResponse : Nat := 64 * 2 ^ 10

/-- What a gateway's executor makes of a payload; `cut` is a text up to the limit on bytes. -/
def executeAuthorized (cut : String → String) (name : String) (content : List GatewayBlock)
    (isError : Bool) : ToolOutcome :=
  let answer := String.join (content.map GatewayBlock.shown)
  { output :=
      if answer.utf8ByteSize > gatewayMaxToolResponse then cut answer ++ "\n\n[truncated]"
      else answer
    error := if isError then some ("gateway tool " ++ quoteName name ++ " failed") else none }

structure WireResult where
  content : String
  callID : String := ""
  toolName : String := ""

def emptyToolResultContent := "(no output)"

/-- A tool result as `convertToOpenAIMessage` writes it. -/
def convertToOpenAIMessage (block : ContentBlock) : WireResult :=
  let content := if block.toolError ≠ "" then "Error: " ++ block.toolError else block.toolOutput
  { content := if content = "" then emptyToolResultContent else content
    callID := block.toolResultID }

/-- A tool result as `completeLocalOllama` writes it, with the names of the calls before it. -/
def completeLocalOllama (names : String → String) (block : ContentBlock) :
    Except String WireResult :=
  if names block.toolResultID = "" then .error "unbound tool result"
  else
    .ok { content := if block.toolError ≠ "" then block.toolError else block.toolOutput
          toolName := names block.toolResultID }

variable (policy : ContextPolicy) (outcome : ToolOutcome)

/-- A text shows what a tool printed, or what stands for it if it is too long. -/
def Shows (text : String) : Prop :=
  outcome.output.toList <:+: text.toList ∨ policy.maxInlineToolBytes < outcome.output.utf8ByteSize ∧
      outcome.shortened.toList <:+: text.toList

structure ReachesWire (block : ContentBlock) : Prop where
  openAI : Shows policy outcome (convertToOpenAIMessage block).content
  ollama : ∀ names wire, completeLocalOllama names block = .ok wire →
    Shows policy outcome wire.content

variable {policy outcome} {block : ContentBlock} {text longer : String}

theorem Shows.trans (shows : Shows policy outcome text) (within : text.toList <:+: longer.toList) :
    Shows policy outcome longer :=
  shows.imp (·.trans within) (And.imp_right (·.trans within))

/-- Only the text of an error is written, if there is one. -/
theorem reachesWire_iff : ReachesWire policy outcome block ↔
    Shows policy outcome (if block.toolError ≠ "" then block.toolError else block.toolOutput) := by
  constructor
  · intro reaches
    exact reaches.ollama (fun _ => "tool") _ rfl
  · intro shows
    refine ⟨shows.trans ?_, fun names wire written => ?_⟩
    · by_cases reported : block.toolError = ""
      · by_cases silent : block.toolOutput = ""
        · simp [reported, silent]
        · simp [convertToOpenAIMessage, reported, silent]
      · simp only [convertToOpenAIMessage, ne_eq, reported, not_false_eq_true, if_true]
        exact ⟨"Error: ".toList, [], by simp⟩
    · unfold completeLocalOllama at written
      split at written
      · cases written
      · cases written
        exact shows

theorem RunState.afterCall_shows (run : RunState) (call : ContentBlock) :
    Shows policy outcome (run.afterCall policy call outcome).2 := by
  simp only [afterCall]
  split
  · exact .inl infix_rfl
  · next long =>
    simp only [not_or, Int.not_le] at long
    exact .inr ⟨long.2.1, infix_rfl⟩

theorem LoopState.runCall_message (state : LoopState) (call : ContentBlock) :
    ∃ inRequest, Shows policy outcome inRequest ∧ (state.runCall policy call outcome).messages =
      state.messages ++ [newToolResultMessage call.toolUseID inRequest outcome.error] := by
  simp only [runCall]
  cases state.run with
  | none => exact ⟨_, .inl infix_rfl, rfl⟩
  | some run => exact ⟨_, run.afterCall_shows call, rfl⟩

def failedCommand : ToolOutcome :=
  executeAuthorized (fun text => text) "run" [⟨"text", "2 tests failed"⟩] true

end OpenExec.Execution
