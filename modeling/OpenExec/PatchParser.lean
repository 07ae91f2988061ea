import OpenExec.GoStrings

/-!
# The patch parser

`ParsePatch` reads a unified diff line by line.
-/

namespace OpenExec.PatchParser

abbrev Text := List Char

inductive LineType
  | context
  | add
  | remove
  deriving DecidableEq

structure PatchLine where
  type : LineType
  content : Text
  deriving DecidableEq

structure PatchHunk where
  oldStart : Nat
  oldCount : Nat
  newStart : Nat
  newCount : Nat
  header : Text
  lines : List PatchLine
  deriving DecidableEq

structure PatchFile where
  oldName : Text := []
  newName : Text := []
  hunks : List PatchHunk := []
  isBinary : Bool := false
  isNew : Bool := false
  isDeleted : Bool := false
  isRenamed : Bool := false
  gitHeaders : List Text := []
  deriving DecidableEq

structure Patch where
  files : List PatchFile
  rawContent : Text

structure ParseError where
  line : Nat
  message : String
  context : Text

/-! ### Regular expressions

Each function is the match of the expression of its name; a line has no newline,
so `.` is any of its characters. -/

variable (literal : String)

/-- What follows a literal at the beginning of a text. -/
def after? (text : Text) : Option Text :=
  if literal.toList.isPrefixOf text then some (text.drop literal.toList.length) else none

/-- `.+`, the literal, `.+`. -/
def isSplitBy (text : Text) : Bool :=
  (List.range text.length).any fun index =>
    0 < index ∧ literal.toList.isPrefixOf (text.drop index) ∧
      index + literal.toList.length < text.length

variable (line : Text)

def gitDiffHeaderRe : Bool :=
  ((after? "diff --git a/" line).map (isSplitBy " b/")).getD false

/-- `(?:mark)?(.+)`: the mark is dropped if something follows it. -/
def dropMark (mark : String) (text : Text) : Text :=
  match after? mark text with
  | some (first :: rest) => first :: rest
  | _ => text

def headerName (mark : String) (text : Text) : Option Text :=
  if text = [] then none else some (dropMark mark text)

def oldFileRe : Option Text :=
  (after? "--- " line).bind (headerName "a/")

def newFileRe : Option Text :=
  (after? "+++ " line).bind (headerName "b/")

/-- `(\d+)` and what follows it. -/
def digits? (text : Text) : Option (Text × Text) :=
  if text.takeWhile Char.isDigit = [] then none
  else some (text.takeWhile Char.isDigit, text.dropWhile Char.isDigit)

/-- `(\d+)(?:,(\d+))?` and what follows it. -/
def range? (text : Text) : Option ((Text × Option Text) × Text) :=
  (digits? text).map fun start =>
    match (after? "," start.2).bind digits? with
    | some count => ((start.1, some count.1), count.2)
    | none => ((start.1, none), start.2)

def hunkHeaderRe : Option ((Text × Option Text) × (Text × Option Text)) := do
  let text ← after? "@@ -" line
  let (oldRange, text) ← range? text
  let text ← after? " +" text
  let (newRange, text) ← range? text
  let _ ← after? " @@" text
  return (oldRange, newRange)

def binaryFileRe : Bool :=
  match after? "Binary files " line with
  | none => false
  | some text =>
    " differ".toList.isSuffixOf text &&
      isSplitBy " and " (text.take (text.length - " differ".toList.length))

/-- A literal followed by `\d+`. -/
def isMode (line : Text) : Bool :=
  match after? literal line with
  | none => false
  | some text => !text.isEmpty && text.all Char.isDigit

def newFileModeRe : Bool := isMode "new file mode " line

def deletedFileModeRe : Bool := isMode "deleted file mode " line

def renameFromRe : Bool :=
  ((after? "rename from " line).map fun name => !name.isEmpty).getD false

def renameToRe : Bool :=
  ((after? "rename to " line).map fun name => !name.isEmpty).getD false

def maxInt : Nat := 2 ^ 63 - 1

def decimal (digits : Text) : Nat :=
  digits.foldl (fun value digit => 10 * value + (digit.toNat - '0'.toNat)) 0

/-- `strconv.Atoi` with its error dropped: a number that is too large is clipped. -/
def atoi (digits : Text) : Nat := min (decimal digits) maxInt

def countOr (count : Option Text) : Nat := (count.map atoi).getD 1

namespace PatchHunk

def oldLines (lines : List PatchLine) : Nat :=
  lines.countP fun line => line.type = .context ∨ line.type = .remove

def newLines (lines : List PatchLine) : Nat :=
  lines.countP fun line => line.type = .context ∨ line.type = .add

def addLine (hunk : PatchHunk) (type : LineType) (content : Text) : PatchHunk :=
  { hunk with lines := hunk.lines ++ [⟨type, content⟩] }

def ofHeader (oldRange newRange : Text × Option Text) (line : Text) : PatchHunk where
  oldStart := atoi oldRange.1
  oldCount := countOr oldRange.2
  newStart := atoi newRange.1
  newCount := countOr newRange.2
  header := line
  lines := []

end PatchHunk

namespace PatchFile

variable (file : PatchFile)

def addHunk (hunk : Option PatchHunk) : PatchFile :=
  { file with hunks := file.hunks ++ hunk.toList }

def addHeader (line : Text) : PatchFile :=
  { file with gitHeaders := file.gitHeaders ++ [line] }

/-- The git-specific header lines of a file without an open hunk. -/
def gitHeader (line : Text) : Option PatchFile :=
  if newFileModeRe line then some { file.addHeader line with isNew := true }
  else if deletedFileModeRe line then some { file.addHeader line with isDeleted := true }
  else if renameFromRe line || renameToRe line then
    some { file.addHeader line with isRenamed := true }
  else if "index ".toList.isPrefixOf line || "old mode".toList.isPrefixOf line ||
      "new mode".toList.isPrefixOf line || "similarity index".toList.isPrefixOf line then
    some (file.addHeader line)
  else none

def withNewName (name : Text) : PatchFile :=
  { file with
    newName := name
    isNew := file.isNew || file.oldName == "/dev/null".toList
    isDeleted := file.isDeleted || name == "/dev/null".toList }

end PatchFile

structure ParseState where
  files : List PatchFile := []
  currentFile : Option PatchFile := none
  currentHunk : Option PatchHunk := none
  lineNum : Nat := 0

/-- What the body of the loop does with a line: go on with the next one, look at
the same line again, or return an error. -/
inductive Outcome
  | next (state : ParseState)
  | again (state : ParseState)
  | error (error : ParseError)

namespace ParseState

def fail (state : ParseState) (message : String) (line : Text) : Outcome :=
  .error ⟨state.lineNum, message, line⟩

def flush (state : ParseState) : List PatchFile :=
  state.files ++ (state.currentFile.map fun file => file.addHunk state.currentHunk).toList

def openGitFile (state : ParseState) (line : Text) : ParseState :=
  { state with
    files := state.flush
    currentFile := some { gitHeaders := [line] }
    currentHunk := if state.currentFile.isSome then none else state.currentHunk }

def gitHeader (state : ParseState) (line : Text) : Option ParseState :=
  match state.currentFile, state.currentHunk with
  | some file, none => (file.gitHeader line).map fun file => { state with currentFile := some file }
  | _, _ => none

def markBinary (state : ParseState) : ParseState :=
  { state with currentFile := state.currentFile.map fun file => { file with isBinary := true } }

def openOldFile (state : ParseState) (name : Text) : ParseState :=
  match state.currentFile with
  | none => { state with currentFile := some { oldName := name } }
  | some file =>
    if file.hunks ≠ [] ∨ state.currentHunk.isSome then
      { state with
        files := state.flush
        currentFile := some { oldName := name }
        currentHunk := none }
    else { state with currentFile := some { file with oldName := name } }

def setNewName (state : ParseState) (name line : Text) : Outcome :=
  match state.currentFile with
  | none => state.fail "found +++ line without corresponding --- line" line
  | some file => .next { state with currentFile := some (file.withNewName name) }

def openHunk (state : ParseState) (oldRange newRange : Text × Option Text) (line : Text) :
    Outcome :=
  if state.currentHunk.isSome ∧ state.currentFile.isNone then
    state.fail "hunk found without file header" line
  else
    .next { state with
      currentFile := state.currentFile.map fun file => file.addHunk state.currentHunk
      currentHunk := some (PatchHunk.ofHeader oldRange newRange line) }

def addLine (state : ParseState) (hunk : PatchHunk) (type : LineType) (content : Text) : Outcome :=
  .next { state with currentHunk := some (hunk.addLine type content) }

def hunkLine (state : ParseState) (line : Text) : Outcome :=
  match state.currentHunk with
  | none => .next state
  | some hunk =>
    match line with
    | [] =>
      if PatchHunk.oldLines hunk.lines < hunk.oldCount ∨
          PatchHunk.newLines hunk.lines < hunk.newCount then
        state.addLine hunk .context []
      else .next state
    | ' ' :: content => state.addLine hunk .context content
    | '+' :: content => state.addLine hunk .add content
    | '-' :: content => state.addLine hunk .remove content
    | '\\' :: _ => .next state
    | _ =>
      .again { state with
        currentFile := state.currentFile.map fun file => file.addHunk (some hunk)
        currentHunk := none }

def processDiffLine (state : ParseState) (line : Text) : Outcome :=
  match oldFileRe line with
  | some name => .next (state.openOldFile name)
  | none =>
    match newFileRe line with
    | some name => state.setNewName name line
    | none =>
      match hunkHeaderRe line with
      | some (oldRange, newRange) => state.openHunk oldRange newRange line
      | none => state.hunkLine line

def processLine (state : ParseState) (line : Text) : Outcome :=
  if state.currentFile.isNone ∧ line.all GoStrings.isSpace then .next state
  else if gitDiffHeaderRe line then .next (state.openGitFile line)
  else
    match state.gitHeader line with
    | some next => .next next
    | none => if binaryFileRe line then .next state.markBinary else state.processDiffLine line

/-- A line is looked at a second time at most: then no hunk is open. -/
def readLine (state : ParseState) (line : Text) : Except ParseError ParseState :=
  match { state with lineNum := state.lineNum + 1 }.processLine line with
  | .error error => .error error
  | .next state => .ok state
  | .again state =>
    match state.processLine line with
    | .error error => .error error
    | .next state => .ok state
    | .again state => .ok state

def readLines (state : ParseState) : List Text → Except ParseError ParseState
  | [] => .ok state
  | line :: rest => (state.readLine line).bind fun next => next.readLines rest

end ParseState

def parsePatch (content : Text) : Except ParseError Patch :=
  match ParseState.readLines {} (content.splitOn '\n') with
  | .error error => .error error
  | .ok state =>
    if state.flush = [] then .error ⟨1, "no files found in patch", []⟩
    else .ok ⟨state.flush, content⟩

def pathsToCheck (file : PatchFile) : List Text :=
  (if file.oldName ≠ [] ∧ file.oldName ≠ "/dev/null".toList then [file.oldName] else []) ++
    if file.newName ≠ [] ∧ file.newName ≠ "/dev/null".toList ∧ file.newName ≠ file.oldName then
      [file.newName]
    else []

end OpenExec.PatchParser
