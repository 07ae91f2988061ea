import Mathlib.Data.List.Basic

/-!
# Agent output, line by line

The lines of an agent's output reach the parser through a buffer of one mebibyte.
-/

namespace OpenExec.AgentStream

open List

/-- The envelope of a line.  Session starts and unrecognized types are skipped. -/
inductive RawMessage (α : Type)
  | assistant (message : α)
  | toolResult (toolUseID : String) (content : α)
  | user (message : α)
  | result
  | skipped

/-- What a parser decodes, and what its handlers do to a session: its fields and sent events. -/
structure Parser (σ α : Type) where
  plainText : Bool
  plainMessage : List UInt8 → α
  unmarshalRobust : List UInt8 → Option (RawMessage α)
  toolResults : α → List (String × α)
  parseAssistant : α → σ → σ
  endToolCheck : String → σ → σ
  parseToolResult : α → σ → σ
  finishToolChecks : σ → σ
  sendPeak : σ → σ

structure Parsed (σ : Type) where
  session : σ
  unread : List UInt8
  err : Option String

def maxTokenSize : Nat := 1024 * 1024

def errTooLong : String := "bufio.Scanner: token too long"

def dropCR (line : List UInt8) : List UInt8 :=
  if line.getLast? = some 13 then line.dropLast else line

namespace Parser

variable {σ α : Type} (parser : Parser σ α) (session : σ) (line bytes : List UInt8)

def takeToolResult (result : String × α) : σ :=
  parser.parseToolResult result.2 (parser.endToolCheck result.1 session)

def parseLine : σ :=
  if parser.plainText then parser.parseAssistant (parser.plainMessage line) session
  else match parser.unmarshalRobust line with
    | none | some .skipped => session
    | some (.assistant message) => parser.parseAssistant message session
    | some (.toolResult id content) => parser.takeToolResult session (id, content)
    | some (.user message) => (parser.toolResults message).foldl parser.takeToolResult session
    | some .result => parser.sendPeak (parser.finishToolChecks session)

def takeLine : σ :=
  if dropCR line = [] then session else parser.parseLine session (dropCR line)

/-- The scanner fails on a line that fills its buffer. -/
def scan : σ → List UInt8 → List UInt8 → Parsed σ
  | session, line, [] => ⟨parser.takeLine session line, [], none⟩
  | session, line, byte :: rest =>
    if byte = 10 then scan (parser.takeLine session line) [] rest
    else if line.length + 1 < maxTokenSize then scan session (line ++ [byte]) rest
    else ⟨session, rest, some errTooLong⟩

def parse : Parsed σ :=
  let parsed := parser.scan session [] bytes
  { parsed with session := parser.finishToolChecks parsed.session }

/-- The error of an uncancelled run, whose process ends as given. -/
def runStandalone (wait : Option String) : Option String :=
  (parser.parse session bytes).err.or wait

/-- A line that decodes to a message with a handler. -/
def usable : Bool :=
  dropCR line ≠ [] && (parser.plainText ||
    match parser.unmarshalRobust (dropCR line) with
    | none | some .skipped => false
    | _ => true)

variable {parser session line bytes}

theorem takeLine_of_unusable (unusable : parser.usable line = false) :
    parser.takeLine session line = session := by
  unfold usable at unusable
  unfold takeLine parseLine
  grind

theorem foldl_usable {lines : List (List UInt8)} :
    (lines.filter parser.usable).foldl parser.takeLine session =
      lines.foldl parser.takeLine session := by
  rw [foldl_filter]
  congr
  ext session line
  split
  · rfl
  · next unusable => rw [takeLine_of_unusable (Bool.not_eq_true _ ▸ unusable)]

/-- What a scan does depends on the lines that remain, the first of them begun in the buffer. -/
theorem scan_cases (short : line.length < maxTokenSize) {lines : List (List UInt8)}
    (cut : (bytes.splitOn 10).modifyHead (line ++ ·) = lines) :
    (∀ line ∈ lines, line.length < maxTokenSize) ∧
        parser.scan session line bytes = ⟨lines.foldl parser.takeLine session, [], none⟩ ∨
      (¬ ∀ line ∈ lines, line.length < maxTokenSize) ∧
        (parser.scan session line bytes).err = some errTooLong := by
  subst cut
  induction bytes generalizing session line with
  | nil => simp [scan, short]
  | cons byte rest ih =>
    obtain ⟨head, tail, cut⟩ := exists_cons_of_ne_nil (splitOn_ne_nil 10 rest)
    rw [splitOn_cons_eq_if_modifyHead, cut, scan]
    rw [cut] at ih
    by_cases ended : byte = 10
    · have later := @ih (parser.takeLine session line) [] (by decide)
      simpa [ended, short] using later
    · by_cases fits : line.length + 1 < maxTokenSize
      · have later := @ih session (line ++ [byte]) (by simpa using fits)
        simpa [ended, fits] using later
      · refine .inr ⟨fun allShort => ?_, by simp [ended, fits]⟩
        have first := allShort (line ++ byte :: head) (by simp [ended])
        rw [length_append, length_cons] at first
        omega

/-- A parser that counts the assistant's messages. -/
def counting : Parser Nat Unit :=
  ⟨false, fun _ => (), fun _ => some (.assistant ()), fun _ => [], fun _ sent => sent + 1,
    fun _ => id, fun _ => id, id, id⟩

end Parser

end OpenExec.AgentStream
