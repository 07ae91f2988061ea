import OpenExec.PatchParser
import OpenExec.PathValidation
import OpenExec.ToolBroker
import OpenExec.WalkStops

/-!
# The tool server

`handleToolsCall` authorizes a call, asks for approval, skips what a resumed run
has applied already, runs the handler and records the key of the call.  Files are
touched by the handlers: patches are applied by git in a working directory, and
the bookkeeping of the orchestrator lies in `.openexec` below the workspace root.
-/

namespace OpenExec.ToolServer

open LinkedTrees GoStrings PatchParser
open PathValidation (abs absolutePath clean lstat openForWrite stat systemLinkLimit validate
  validatePathForWrite)

/-- What an operation did: the tree afterwards, the places at which something was
created, changed or deleted, and whether it reported success. -/
structure Effect where
  tree : FileTree
  touched : List Place
  succeeded : Bool

def Effect.after (made before : Effect) : Effect :=
  { made with touched := before.touched ++ made.touched }

/-- `os.Mkdir` after the parents are there. -/
def makeDir (before : Effect) (parent : List Name) (name : Name) : Effect :=
  match walk before.tree false systemLinkLimit [] parent with
  | none => { before with succeeded := false }
  | some place =>
    if isDir : before.tree.kind place = some .dir then
      if before.tree.kind (place ++ [name]) = none then
        ⟨before.tree.addDir place name isDir, before.touched ++ [place ++ [name]], true⟩
      else { before with succeeded := lstat before.tree (parent ++ [name]) = some .dir }
    else { before with succeeded := false }

/-- `os.MkdirAll` of a path given last part first. -/
def makeDirs (tree : FileTree) : List Name → Effect
  | [] => ⟨tree, [], true⟩
  | name :: parts =>
    match stat tree (name :: parts).reverse with
    | some .dir => ⟨tree, [], true⟩
    | some _ => ⟨tree, [], false⟩
    | none =>
      let made := makeDirs tree parts
      if made.succeeded then makeDir made parts.reverse name else made

def withFile (tree : FileTree) (place : Place) : FileTree :=
  match place.getLast? with
  | none => tree
  | some name =>
    if isDir : tree.kind place.dropLast = some .dir then
      if missing : tree.kind (place.dropLast ++ [name]) = none then
        tree.addFile place.dropLast name isDir missing
      else tree
    else tree

/-- A file is opened with `O_CREATE` and written. -/
def createFile (before : Effect) (path : List Name) : Effect :=
  match openForWrite before.tree path with
  | none => { before with succeeded := false }
  | some place => ⟨withFile before.tree place, before.touched ++ [place], true⟩

structure GitOptions where
  check : Bool
  reverse : Bool
  threeWay : Bool
  ignoreWhitespace : Bool
  contextLines : Int
  recount : Bool
  deriving DecidableEq

/-- `git apply` in a working directory: without `--check` it changes files below it,
and with `--3way` objects and the index of the repository. -/
structure Git where
  run : FileTree → Place → GitOptions → List Char → Effect
  repository : FileTree → Place → Place
  contained : ∀ {tree dir options patch place}, place ∈ (run tree dir options patch).touched →
    options.check = false ∧ dir <+: place ∨ options.threeWay = true ∧ repository tree dir <+: place

structure GitApplyPatchRequest where
  patch : List Char
  workingDirectory : List Char
  checkOnly : Bool
  reverse : Bool
  threeWay : Bool
  ignoreWhitespace : Bool
  contextLines : Int
  deriving DecidableEq

def decodeGitApplyPatch (arguments : Arguments) : Option GitApplyPatchRequest := do
  let patch ← decodeText "patch" arguments
  let workingDirectory ← decodeText "working_directory" arguments
  let checkOnly ← decodeBool "check_only" arguments
  let reverse ← decodeBool "reverse" arguments
  let threeWay ← decodeBool "three_way" arguments
  let ignoreWhitespace ← decodeBool "ignore_whitespace" arguments
  let contextLines ← decodeInt "context_lines" arguments
  return ⟨patch, workingDirectory, checkOnly, reverse, threeWay, ignoreWhitespace, contextLines⟩

def hunkIsEmpty (hunk : PatchHunk) : Bool :=
  hunk.lines.isEmpty && (0 < hunk.oldCount || 0 < hunk.newCount)

def countMismatch (hunk : PatchHunk) : Bool :=
  PatchHunk.oldLines hunk.lines ≠ hunk.oldCount || PatchHunk.newLines hunk.lines ≠ hunk.newCount

def isNamed (file : PatchFile) : Bool := file.oldName ≠ [] && file.newName ≠ []

/-- The files whose hunks `ValidatePatch` looks at. -/
def checkedHunks (patch : Patch) : List PatchHunk :=
  ((patch.files.filter isNamed).filter (!·.isBinary)).flatMap (·.hunks)

def isValidPatch (patch : Patch) : Bool :=
  patch.files.all isNamed && !(checkedHunks patch).any hunkIsEmpty

/-- `ValidateGitApplyPatchRequest`: the patch and the options for git. -/
def validateGitApplyPatchRequest (request : GitApplyPatchRequest) : Option (Patch × GitOptions) :=
  if request.patch = [] then none
  else
    match parsePatch request.patch with
    | .error _ => none
    | .ok patch =>
      if isValidPatch patch = false ∨ 10 < request.contextLines then none
      else
        some (patch,
          { check := request.checkOnly
            reverse := request.reverse
            threeWay := request.threeWay
            ignoreWhitespace := request.ignoreWhitespace
            contextLines := max 0 request.contextLines
            recount := (checkedHunks patch).any countMismatch })

def isAbsolutePath (path : List Char) : Bool :=
  match path with
  | '/' :: _ => true
  | _ :: ':' :: '/' :: _ => true
  | _ :: ':' :: '\\' :: _ => true
  | _ => false

/-- `filepath.Join` of two parts that are not empty. -/
def joinPath (root relPath : List Char) : List Char := (clean (root ++ '/' :: relPath)).toString

def validatePatchPathsInWorkspace (tree : FileTree) (processDir : Place) (patch : Patch)
    (workspaceRoot : List Char) : Bool :=
  workspaceRoot ≠ [] && patch.files.all fun file =>
    (pathsToCheck file).all fun path =>
      match validate tree processDir
          { allowedRoots := [workspaceRoot]
            allowSymlinks := false
            requireAbsolute := false
            requireExists := false
            requireFile := false }
          (if isAbsolutePath path then path else joinPath workspaceRoot path) with
      | .ok _ => true
      | .error _ => false

/-- The names that `RegisterProvider` keeps for the server's own tools. -/
def reservedCoreToolNames : List String :=
  ["openexec_signal", "read_file", "git_apply_patch", "openexec_result", "openexec_action",
    "backlog_list_stories", "backlog_get_story", "backlog_claim_story", "backlog_complete_task",
    "backlog_complete_story", "backlog_add_task", "memory_read", "skill_propose", "write_file",
    "run_shell_command", "approval_list", "approval_decide", "fork_session", "get_fork_info",
    "list_session_forks", "symbol_find", "symbol_read", "symbol_relations", "ansible_run_playbook",
    "salt_apply_state", "ssh_run_query", "terraform_plan", "terraform_apply"]

structure Server where
  broker : ToolBroker
  workspaceRoot : List Char
  isRoot : workspaceRoot ≠ []
  processDir : Place
  /-- The environment asks for a read-only server. -/
  readOnly : Bool
  requiresApproval : String → Bool
  resumeMode : Bool
  hasChecker : Bool
  /-- `GenerateIdempotencyKey` for the run of the server. -/
  idempotencyKey : String → Arguments → List Char
  isKey : ∀ name arguments, idempotencyKey name arguments ≠ []
  isProvider : String → Bool
  notReserved : ∀ name, isProvider name = true → name ∉ reservedCoreToolNames
  /-- The file name made from the hash of a patch. -/
  artifactName : List Char → Name
  isArtifact : ∀ patch, IsEntry (artifactName patch)

/-- Files of the orchestrator's directory, by their names below it. -/
structure Records where
  files : List (List Name)
  entries : ∀ file ∈ files, ∀ name ∈ file, IsEntry name

structure World where
  approved : Bool
  approvalRecords : Records
  /-- The lookup of a key in the store fails. -/
  lookupFails : Bool
  /-- The recording of a key succeeds. -/
  marks : Bool
  /-- The content of a file decodes. -/
  decodes : Bool
  /-- Python code in the content of a file parses. -/
  parses : Bool
  written : Bool
  /-- The parts of a proposal other than its name are accepted. -/
  proposed : Bool
  git : Git
  /-- What the extractors of a symbol tool that refreshes its index, or a database, do outside
  the records: a script in the temporary directory, the caches of a compiler. -/
  scratch : Option Effect
  records : Records
  reported : Bool
  /-- What a process of the shell, of the infrastructure tools or of a module does. -/
  process : Effect

structure Call where
  name : String
  arguments : Arguments
  world : World

inductive Answer
  | refused (reason : String)
  | notApproved
  | skipped
  | executed (succeeded : Bool)
  deriving DecidableEq

structure Entry where
  name : String
  key : List Char
  answer : Answer
  touched : List Place
  byProvider : Bool

structure State where
  tree : FileTree
  /-- The keys in the store of applied calls. -/
  applied : List (List Char)
  log : List Entry

namespace Server

variable (server : Server)

/-- The workspace root as the system reads it. -/
def rootNames : List Name := abs server.processDir (clean server.workspaceRoot)

def orchestratorDir : Name := ".openexec".toList

def recordPath (file : List Name) : List Name := server.rootNames ++ orchestratorDir :: file

variable (tree : FileTree)

def leadsTo (path : List Char) : Option Place :=
  (walk tree false systemLinkLimit (targetStart server.processDir path) (targetNames path)).filter
    fun place => tree.kind place = some .dir

def writeRecords (before : Effect) (records : Records) : Effect :=
  records.files.foldl (fun effect file => createFile effect (server.recordPath file)) before

def workDir (request : GitApplyPatchRequest) : List Char :=
  if request.workingDirectory = [] then absolutePath server.processDir else request.workingDirectory

/-- The working directory counts as a repository unless `.git` is missing. -/
def isRepository (dir : List Char) : Bool :=
  match stop tree [] false systemLinkLimit []
    (abs server.processDir (clean (joinPath dir ".git".toList))) with
  | .missing _ _ _ => false
  | _ => true

def acceptedPatch (arguments : Arguments) : Option (GitApplyPatchRequest × GitOptions) :=
  match decodeGitApplyPatch arguments with
  | none => none
  | some request =>
    match validateGitApplyPatchRequest request with
    | none => none
    | some (patch, options) =>
      if server.isRepository tree (server.workDir request) = true ∧
          validatePatchPathsInWorkspace tree server.processDir patch (server.workDir request) =
            true then
        some (request, options)
      else none

def runGit (git : Git) (tree : FileTree) (request : GitApplyPatchRequest) (options : GitOptions) :
    Effect :=
  match server.leadsTo tree (server.workDir request) with
  | none => ⟨tree, [], false⟩
  | some dir => git.run tree dir options request.patch

/-- The patch is kept as an artifact, whatever git made of it. -/
def writeArtifact (before : Effect) (patch : List Char) : Effect :=
  let made := makeDirs before.tree
    (server.recordPath ["artifacts".toList, "patches".toList]).reverse
  let wrote := createFile (made.after before)
    (server.recordPath ["artifacts".toList, "patches".toList, server.artifactName patch])
  { wrote with succeeded := before.succeeded }

variable (call : Call)

def handleGitApplyPatch : Effect :=
  match server.acceptedPatch tree call.arguments with
  | none => ⟨tree, [], false⟩
  | some (request, options) =>
    server.writeArtifact (server.runGit call.world.git tree request options) request.patch

def isSkillName (name : List Char) : Bool :=
  match name with
  | [] => false
  | first :: rest =>
    (first.isLower || first.isDigit) && (1 ≤ rest.length && rest.length ≤ 63) &&
      rest.all fun c => c.isLower || c.isDigit || c = '-'

def skillDir (name : Name) : List Name := ["skills".toList, "_candidates".toList, name]

/-- `skill_propose`; the arguments that are not part of a path count only through
the answer of the world. -/
def handleSkillPropose : Effect :=
  match decodeText "name" call.arguments with
  | none => ⟨tree, [], false⟩
  | some name =>
    if isSkillName name = true ∧ call.world.proposed = true ∧
        stat tree (server.recordPath ["skills".toList, name, "SKILL.md".toList]) = none ∧
        stat tree (server.recordPath (skillDir name ++ ["SKILL.md".toList])) = none then
      let made := makeDirs tree (server.recordPath (skillDir name)).reverse
      if made.succeeded then
        createFile made (server.recordPath (skillDir name ++ ["SKILL.md".toList]))
      else made
    else ⟨tree, [], false⟩

structure WriteFileRequest where
  path : List Char
  encoding : List Char
  mode : List Char
  createDirectories : Bool

def decodeWriteFile (arguments : Arguments) : Option WriteFileRequest := do
  let path ← decodeText "path" arguments
  let _ ← decodeText "content" arguments
  let encoding ← decodeText "encoding" arguments
  let mode ← decodeText "mode" arguments
  let createDirectories ← decodeBool "create_directories" arguments
  return ⟨path, encoding, mode, createDirectories⟩

def isWriteFileRequest (request : WriteFileRequest) : Bool :=
  request.path ≠ [] &&
    ["", "utf-8", "utf-16", "ascii", "binary"].any (·.toList = request.encoding) &&
    ["", "overwrite", "append"].any (·.toList = request.mode)

def handleWriteFile : Effect :=
  match decodeWriteFile call.arguments with
  | none => ⟨tree, [], false⟩
  | some request =>
    if isWriteFileRequest request = true ∧ server.readOnly = false then
      match validatePathForWrite tree server.processDir request.path [server.workspaceRoot] with
      | .error _ => ⟨tree, [], false⟩
      | .ok validPath =>
        if call.world.decodes = false then ⟨tree, [], false⟩
        else
          let prepared : Effect :=
            if request.createDirectories then makeDirs tree validPath.dropLast.reverse
            else ⟨tree, [], stat tree validPath.dropLast = some .dir⟩
          if prepared.succeeded = true ∧ call.world.parses = true then
            let wrote := createFile prepared validPath
            { wrote with succeeded := wrote.succeeded && call.world.written }
          else { prepared with succeeded := false }
    else ⟨tree, [], false⟩

/-- The tools that use the databases of the orchestrator. -/
def recordTools : List String :=
  ["backlog_list_stories", "backlog_get_story", "backlog_claim_story", "backlog_complete_task",
    "backlog_complete_story", "backlog_add_task"] ++ symbolTools ++ approvalTools

def usedScratch : Effect :=
  match call.world.scratch with
  | none => ⟨tree, [], call.world.reported⟩
  | some effect => { effect with succeeded := call.world.reported }

def dispatch : Effect :=
  if server.isProvider call.name then call.world.process
  else if call.name = "write_file" then server.handleWriteFile tree call
  else if call.name = "git_apply_patch" then server.handleGitApplyPatch tree call
  else if call.name = "skill_propose" then server.handleSkillPropose tree call
  else if recordTools.contains call.name then
    server.writeRecords (usedScratch tree call) call.world.records
  else if call.name = "run_shell_command" ∨ isInfraTool call.name = true then call.world.process
  else ⟨tree, [], call.world.reported⟩

def shellIdempotentAllowlist : List String :=
  ["git", "go", "node", "npm", "yarn", "python3", "python"]

def mutatingWords : List String :=
  ["install", "remove", "delete", "apply", "commit", "push", "pull", "write"]

/-- `strings.Fields`. -/
def fields (text : List Char) : List (List Char) := (text.splitOnP isSpace).filter (· ≠ [])

def isShellIdempotent (command : List Char) (words : List (List Char)) : Bool :=
  shellIdempotentAllowlist.any (·.toList = command.map toLower) &&
    words.all fun word => mutatingWords.all fun mutating => !contains (word.map toLower) mutating

def recorded (name : String) : Bool := name = "write_file" || name = "git_apply_patch"

/-- The calls that a resumed run may skip. -/
def eligible (call : Call) : Bool :=
  recorded call.name ||
    (call.name = "run_shell_command" &&
      match fields (decodeTextLeniently "command" call.arguments) with
      | [] => false
      | command :: words => isShellIdempotent command words)

def callKey (call : Call) : List Char :=
  if server.resumeMode = true ∧ server.hasChecker = true ∧ eligible call = true then
    server.idempotencyKey call.name call.arguments
  else []

variable (state : State) (call : Call)

def wasApplied : Bool :=
  server.callKey call ≠ [] && !call.world.lookupFails &&
    state.applied.contains (server.callKey call)

def askApproval (tree : FileTree) (call : Call) : Effect :=
  if server.requiresApproval call.name then
    { server.writeRecords ⟨tree, [], true⟩ call.world.approvalRecords with
      succeeded := call.world.approved }
  else ⟨tree, [], true⟩

def entry (answer : Answer) (touched : List Place) : Entry where
  name := call.name
  key := server.callKey call
  answer := answer
  touched := touched
  byProvider := server.isProvider call.name

/-- The keys in the store after a handler has run. -/
def markToolApplied : List (List Char) :=
  if recorded call.name = true ∧ server.callKey call ≠ [] ∧ call.world.marks = true then
    server.callKey call :: state.applied
  else state.applied

def handleToolsCall : State :=
  match server.broker.authorize call.name call.arguments with
  | .error reason => { state with log := server.entry call (.refused reason) [] :: state.log }
  | .ok _ =>
    let asked := server.askApproval state.tree call
    if asked.succeeded = false then
      { state with
        tree := asked.tree
        log := server.entry call .notApproved asked.touched :: state.log }
    else if server.wasApplied state call = true then
      { state with
        tree := asked.tree
        log := server.entry call .skipped asked.touched :: state.log }
    else
      let ran := server.dispatch asked.tree call
      { tree := ran.tree
        applied := server.markToolApplied state call
        log := server.entry call (.executed ran.succeeded) (asked.touched ++ ran.touched)
          :: state.log }

def step : Option State := some (server.handleToolsCall state call)

end Server

end OpenExec.ToolServer
