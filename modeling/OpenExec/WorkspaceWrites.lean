import OpenExec.PathValidation
import OpenExec.WalkStops

/-!
# Writes of the workspace tools

`write_file` of the `WorkspaceToolExecutor` decides from a path it resolves by hand
whether a denied directory would be entered.
-/

namespace OpenExec.WorkspaceTools

open LinkedTrees GoStrings
open PathValidation (clean abs cleanNames lstat systemLinkLimit evalLinkLimit)

inductive SandboxMode
  | readOnly
  | workspaceWrite
  | other (mode : String)
  deriving DecidableEq

structure WriteInput where
  path : List Char
  createDirectories : Bool

structure ToolRequest where
  workingDir : List Char
  mode : SandboxMode
  writableRoots : List (List Char)
  /-- The decoded input; none if it is not what the tool expects. -/
  input : Option WriteInput

inductive Refusal
  | access
  | readOnly
  | invalidInput
  | pathRequired
  | noAuthorizedRoots
  | deniedArgument (component : Name)
  | unresolved (stopped : Stop)
  | outsideRoot
  | deniedTarget (component : Name)
  | parentsNotCreated
  | notOpened
  | outsideRoots
  deriving DecidableEq

def deniedComponents : List Name := [".openexec".toList, ".uaos".toList, ".git".toList]

def deniedComponent (names : List Name) : Option Name :=
  names.find? (deniedComponents.contains ·)

/-- The process the tool runs in.  `filepath.Rel` cannot compare a relative path
with an absolute one; the resolved paths are both absolute if the root is given
by an absolute path. -/
structure Process where
  dir : Place
  proper : Proper dir
  comparable : FileTree → List Char → List Name → Bool
  comparableOpened : FileTree → List Char → Bool
  of_rooted : ∀ tree root relative, root.head? = some '/' →
    comparable tree root relative = true ∧ comparableOpened tree root = true

/-- `os.OpenRoot`: the directory a root leads to. -/
def openRoot (tree : FileTree) (processDir : Place) (root : List Char) : Option Place :=
  if root = [] then none
  else
    match walk tree false systemLinkLimit (targetStart processDir root) (targetNames root) with
    | none => none
    | some place => if tree.kind place = some .dir then some place else none

def anchored (workingDir argument : List Char) : List Char :=
  if argument.head? = some '/' ∨ workingDir = [] then argument else workingDir ++ '/' :: argument

/-- The path of the argument below the root, by their names alone. -/
def relativeTo (processDir : Place) (root workingDir argument : List Char) : Option (List Name) :=
  if (clean (anchored workingDir argument)).rooted then
    (abs processDir (clean root)).isPrefixOf? (clean (anchored workingDir argument)).names
  else none

/-- The loop of `resolveExistingPrefixDepth`: the names of the probe, last first,
and the names already left out. -/
def resolveProbe (tree : FileTree) (follow : List Name → Except Stop Place) :
    List Name → List Name → Except Stop Place
  | [], suffix => .ok suffix
  | last :: parts, suffix =>
    match lstat tree (last :: parts).reverse with
    | some (.link target) =>
      (follow (targetStart parts.reverse target ++ targetNames target)).map (· ++ suffix)
    | _ =>
      match stop tree [] false evalLinkLimit [] (last :: parts).reverse with
      | .arrived resolved => .ok (resolved ++ suffix)
      | .missing _ _ _ => resolveProbe tree follow parts (last :: suffix)
      | failed => .error failed

/-- `resolveExistingPrefixDepth`, with the number of links that may still be
followed. -/
def resolveExistingPrefixDepth (tree : FileTree) : Nat → List Name → Except Stop Place
  | 0, path => resolveProbe tree (fun _ => .error .tooManyLinks) (cleanNames true path).reverse []
  | depth + 1, path =>
    resolveProbe tree (resolveExistingPrefixDepth tree depth) (cleanNames true path).reverse []

def resolveExistingPrefix (tree : FileTree) (path : List Name) : Except Stop Place :=
  resolveExistingPrefixDepth tree 255 path

def checkPolicy (comparable : Bool) (root resolved : Place) : Except Refusal Unit :=
  match if comparable then root.isPrefixOf? resolved else none with
  | none => .error .outsideRoot
  | some policyPath =>
    match deniedComponent policyPath with
    | some component => .error (.deniedTarget component)
    | none => .ok ()

def refuseDeniedProspectiveTarget (tree : FileTree) (comparable : Bool) (root : Place)
    (relative : List Name) : Except Refusal Unit :=
  match resolveExistingPrefix tree (root ++ relative) with
  | .error stopped => .error (.unresolved stopped)
  | .ok resolved => checkPolicy comparable root resolved

/-- The path `/proc` shows for an open file loses the mark of a deleted one. -/
def descriptorPath (place : Place) : Place :=
  match place.getLast? with
  | none => []
  | some name =>
    place.dropLast ++
      [if hasSuffix name " (deleted)" then name.take (name.length - " (deleted)".length) else name]

def refuseDeniedOpenedTarget (comparable : Bool) (root below : Place) : Except Refusal Unit :=
  checkPolicy comparable root (descriptorPath (root ++ below))

/-- The outcome of making directories: the tree, the directories made, below the
root, and whether the last one is there. -/
structure Made where
  tree : FileTree
  created : List Place
  succeeded : Bool

/-- Walk below a root and make what is missing; `follow` goes on where a link leads. -/
def makeWith (root : Place) (full : List Name) (follow : FileTree → Place → List Name → Made) :
    FileTree → Place → List Name → Made
  | tree, _, [] => ⟨tree, [], true⟩
  | tree, place, name :: rest =>
    if isDot name then makeWith root full follow tree place rest
    else if isDotDot name then
      if place = [] then ⟨tree, [], false⟩
      else makeWith root full follow tree place.dropLast rest
    else
      match tree.kind (root ++ (place ++ [name])) with
      | none =>
        if isDir : tree.kind (root ++ place) = some .dir then
          let made :=
            makeWith root full follow (tree.addDir (root ++ place) name isDir)
              (place ++ [name]) rest
          { made with created := (place ++ [name]) :: made.created }
        else ⟨tree, [], false⟩
      | some .dir => makeWith root full follow tree (place ++ [name]) rest
      | some .file => ⟨tree, [], false⟩
      | some (.link target) =>
        -- the last name is not followed: it counts if it leads to a directory
        if rest = [] then
          match stop tree root true systemLinkLimit [] full with
          | .arrived found => ⟨tree, [], tree.kind (root ++ found) = some .dir⟩
          | _ => ⟨tree, [], false⟩
        else if target.head? = some '/' then ⟨tree, [], false⟩
        else follow tree place (targetNames target ++ rest)

def make (root : Place) (full : List Name) : Nat → FileTree → Place → List Name → Made
  | 0 => makeWith root full fun tree _ _ => ⟨tree, [], false⟩
  | links + 1 => makeWith root full (make root full links)

/-- `MkdirAll` of an `os.Root`. -/
def mkdirAll (tree : FileTree) (root : Place) (path : List Name) : Made :=
  make root path systemLinkLimit tree [] path

structure Opened where
  tree : FileTree
  below : Place
  created : Bool

/-- `OpenFile` of an `os.Root`, for writing and with `O_CREATE`. -/
def openFile (tree : FileTree) (root : Place) (path : List Name) : Option Opened :=
  match stop tree root true systemLinkLimit [] path with
  | .arrived below =>
    if tree.kind (root ++ below) = some .file then some ⟨tree, below, false⟩ else none
  | .missing below name [] =>
    if isDir : tree.kind (root ++ below) = some .dir then
      if missing : tree.kind (root ++ below ++ [name]) = none then
        some ⟨tree.addFile (root ++ below) name isDir missing, below ++ [name], true⟩
      else none
    else none
  | _ => none

structure Use where
  before : FileTree
  root : Place
  comparable : Bool
  comparableOpened : Bool
  relative : List Name
  createDirectories : Bool

/-- What a root was used for: the tree afterwards, and the places below the root
at which something was created or content was changed. -/
structure Attempt where
  tree : FileTree
  touched : List Place
  result : Except Refusal Unit

def Use.parents (use : Use) : Made :=
  if use.createDirectories = true ∧ use.relative.dropLast ≠ [] then
    mkdirAll use.before use.root use.relative.dropLast
  else ⟨use.before, [], true⟩

/-- The operation of `write_file` on an open root. -/
def Use.attempt (use : Use) : Attempt :=
  match refuseDeniedProspectiveTarget use.before use.comparable use.root use.relative with
  | .error refusal => ⟨use.before, [], .error refusal⟩
  | .ok _ =>
    let made := use.parents
    if made.succeeded then
      match openFile made.tree use.root use.relative with
      | none => ⟨made.tree, made.created, .error .notOpened⟩
      | some opened =>
        let created := if opened.created then [opened.below] else []
        match refuseDeniedOpenedTarget use.comparableOpened use.root opened.below with
        | .error refusal => ⟨opened.tree, made.created ++ created, .error refusal⟩
        | .ok _ => ⟨opened.tree, made.created ++ created ++ [opened.below], .ok ()⟩
    else ⟨made.tree, made.created, .error .parentsNotCreated⟩

/-- The loop of `withinRoots`: the roots that contain the path, one after the other
until the operation succeeds. -/
def tryRoots (process : Process) (workingDir : List Char) (input : WriteInput) :
    FileTree → List (List Char) → List Use
  | _, [] => []
  | tree, root :: roots =>
    match openRoot tree process.dir root with
    | none => tryRoots process workingDir input tree roots
    | some place =>
      match relativeTo process.dir root workingDir input.path with
      | none => tryRoots process workingDir input tree roots
      | some relative =>
        let use : Use :=
          { before := tree
            root := place
            comparable := process.comparable tree root relative
            comparableOpened := process.comparableOpened tree root
            relative := relative
            createDirectories := input.createDirectories }
        match use.attempt.result with
        | .ok _ => [use]
        | .error _ => use :: tryRoots process workingDir input use.attempt.tree roots

variable (tree : FileTree) (process : Process) (request : ToolRequest)

def validateAccess : Bool :=
  !(trimSpace (String.ofList request.workingDir)).isEmpty &&
    (openRoot tree process.dir request.workingDir).isSome &&
    request.writableRoots.all (fun root => (openRoot tree process.dir root).isSome) &&
    match request.mode with
    | .readOnly => true
    | .workspaceWrite => !request.writableRoots.isEmpty
    | .other _ => false

/-- The uses of roots in a `write_file` call, or why there is none. -/
def writeFile : Except Refusal (List Use) :=
  if !validateAccess tree process request then .error .access
  else if request.mode ≠ .workspaceWrite then .error .readOnly
  else
    match request.input with
    | none => .error .invalidInput
    | some input =>
      if (trimSpace (String.ofList input.path)).isEmpty then .error .pathRequired
      else if request.writableRoots = [] then .error .noAuthorizedRoots
      else
        match deniedComponent (input.path.splitOn '/') with
        | some component => .error (.deniedArgument component)
        | none => .ok (tryRoots process request.workingDir input tree request.writableRoots)

/-- The uses of roots in a call that may be refused before. -/
def usesOf : List Use :=
  match writeFile tree process request with
  | .error _ => []
  | .ok uses => uses

end OpenExec.WorkspaceTools
