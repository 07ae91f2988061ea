import OpenExec.GoStrings
import OpenExec.LinkedTrees

/-!
# Path validation and file writes

`PathValidator.Validate` decides whether a path is inside the allowed roots by resolving
its links as far as the path exists.
-/

namespace OpenExec.PathValidation

open LinkedTrees GoStrings

def cleanStep (rooted : Bool) (stack : List Name) (name : Name) : List Name :=
  if isDot name then stack
  else if isDotDot name then
    match stack with
    | [] => if rooted then [] else [name]
    | last :: below => if isDotDot last then name :: stack else below
  else name :: stack

def cleanNames (rooted : Bool) (names : List Name) : List Name :=
  (names.foldl (cleanStep rooted) []).reverse

/-- A path that `filepath.Clean` returns. -/
structure CleanPath where
  rooted : Bool
  names : List Name

variable (path : List Char)

def clean : CleanPath where
  rooted := path.head? = some '/'
  names := cleanNames (path.head? = some '/') (path.splitOn '/')

def abs (workingDir : Place) (path : CleanPath) : Place :=
  if path.rooted then path.names else cleanNames true (workingDir ++ path.names)

def absolutePath (place : Place) : List Char :=
  if place = [] then ['/'] else place.flatMap fun name => '/' :: name

/-- A clean path as the string that `filepath.Clean` returns. -/
def CleanPath.toString (path : CleanPath) : List Char :=
  if path.rooted then absolutePath path.names
  else if path.names = [] then ['.']
  else ['/'].intercalate path.names

def base : List Char :=
  if path = [] then ['.']
  else
    match path.reverse.dropWhile (· = '/') with
    | [] => ['/']
    | stripped => (stripped.takeWhile (· ≠ '/')).reverse

def sensitiveFiles : List String :=
  [".env", ".netrc", ".ssh", ".gnupg", "id_rsa", "id_ed25519", "id_dsa", "credentials", "secrets",
    "passwords"]

def isDenied : Bool :=
  let lowerPath := path.map toLower
  let lowerBase := (base path).map toLower
  sensitiveFiles.any (contains lowerBase) ||
    (hasSuffix lowerBase ".pem" || hasSuffix lowerBase ".key" || hasSuffix lowerBase ".p12") ||
    (contains lowerPath "/.git/" || hasSuffix lowerPath "/.git") ||
    (contains lowerPath "/.aws/" || contains lowerPath "/.gcp/" || contains lowerPath "/.azure/")

def traversalPatterns : List String := ["../", "/..", "..\\", "\\.."]

def containsTraversal : Bool :=
  traversalPatterns.any (contains path) || "..".toList.isPrefixOf path

/-- The links `filepath.EvalSymlinks` follows before it gives up. -/
def evalLinkLimit : Nat := 255

/-- The links the operating system follows before it gives up. -/
def systemLinkLimit : Nat := 40

variable (tree : FileTree)

def evalSymlinks (path : Place) : Option Place :=
  walk tree false evalLinkLimit [] path

/-- The loop of `resolvePathSymlinks`: the parts still in the partial path, last
first, and the parts already left out. -/
def resolveParts (tree : FileTree) : List Name → List Name → Place
  | [], remaining => (evalSymlinks tree []).getD [] ++ remaining
  | last :: parts, remaining =>
    match evalSymlinks tree (last :: parts).reverse with
    | some resolved => resolved ++ remaining
    | none => resolveParts tree parts (last :: remaining)

def resolvePathSymlinks (path : Place) : Place :=
  resolveParts tree path.reverse []

structure PathValidatorConfig where
  allowedRoots : List (List Char)
  allowSymlinks : Bool
  requireAbsolute : Bool
  requireExists : Bool
  requireFile : Bool

variable (workingDir : Place)

def resolvedRoot (root : List Char) : Place :=
  resolvePathSymlinks tree (abs workingDir (clean root))

/-- A place inside one of the roots; the path of a root is a prefix, name by name. -/
def Inside (roots : List (List Char)) (place : Place) : Prop :=
  ∃ root ∈ roots, resolvedRoot tree workingDir root <+: place

instance (tree : FileTree) (workingDir : Place) (roots : List (List Char)) (place : Place) :
    Decidable (Inside tree workingDir roots place) :=
  inferInstanceAs (Decidable (∃ root ∈ roots, _))

def isWithinAllowedRoots (roots : List (List Char)) (path : Place) : Bool :=
  Inside tree workingDir roots (resolvePathSymlinks tree path)

structure PathValidationError where
  path : List Char
  message : String
  deriving DecidableEq

variable (path : Place)

/-- `os.Stat`: what the path leads to. -/
def stat : Option Kind :=
  (walk tree false systemLinkLimit [] path).bind tree.kind

/-- `os.Lstat`: like `os.Stat`, but a link in the last place is not followed. -/
def lstat : Option Kind :=
  match path.getLast? with
  | none => tree.kind []
  | some name =>
    match walk tree false systemLinkLimit [] path.dropLast with
    | some parent => if tree.kind parent = some .dir then tree.kind (parent ++ [name]) else none
    | none => none

variable (config : PathValidatorConfig)

def checkExisting (path : List Char) (absPath : Place) : Except PathValidationError Place :=
  match lstat tree absPath with
  | none => .error ⟨path, "path does not exist"⟩
  | some (.link _) =>
    if !config.allowSymlinks then .error ⟨path, "symlinks are not allowed"⟩
    else
      match evalSymlinks tree absPath with
      | none => .error ⟨path, "failed to resolve symlink"⟩
      | some realPath =>
        if config.allowedRoots ≠ [] ∧
            ¬ isWithinAllowedRoots tree workingDir config.allowedRoots realPath then
          .error ⟨path, "symlink target is outside allowed root"⟩
        else
          match stat tree realPath with
          | none => .error ⟨path, "failed to stat symlink target"⟩
          | some kind =>
            if config.requireFile ∧ kind = .dir then
              .error ⟨path, "path is a directory, not a file"⟩
            else .ok realPath
  | some kind =>
    if config.requireFile ∧ kind = .dir then .error ⟨path, "path is a directory, not a file"⟩
    else .ok absPath

def validate (path : List Char) : Except PathValidationError Place :=
  if path = [] then .error ⟨path, "path is empty"⟩
  else if Char.ofNat 0 ∈ path then .error ⟨path, "path contains null byte"⟩
  else if isDenied path then .error ⟨path, "access to sensitive file is prohibited by policy"⟩
  else if config.requireAbsolute ∧ ¬ (clean path).rooted then .error ⟨path, "path must be absolute"⟩
  else if containsTraversal path then .error ⟨path, "path traversal detected"⟩
  else if config.allowedRoots ≠ [] ∧ ¬ isWithinAllowedRoots tree workingDir config.allowedRoots
      (abs workingDir (clean path)) then
    .error ⟨path, "path is outside allowed root"⟩
  else if config.requireExists then
    checkExisting tree workingDir config path (abs workingDir (clean path))
  else .ok (abs workingDir (clean path))

def validatePathForWrite (path : List Char)
    (allowedRoots : List (List Char)) : Except PathValidationError Place :=
  validate tree workingDir
    { allowedRoots := allowedRoots
      allowSymlinks := false
      requireAbsolute := false
      requireExists := false
      requireFile := false } path

def validatePathForRead (path : List Char)
    (allowedRoots : List (List Char)) : Except PathValidationError Place :=
  validate tree workingDir
    { allowedRoots := allowedRoots
      allowSymlinks := true
      requireAbsolute := false
      requireExists := true
      requireFile := true } path

/-- `os.Mkdir`. -/
def mkdir (parent : List Name) (name : Name) : Option FileTree :=
  match walk tree false systemLinkLimit [] parent with
  | none => none
  | some place =>
    if isDir : tree.kind place = some .dir then
      if tree.kind (place ++ [name]) = none then some (tree.addDir place name isDir) else none
    else none

/-- `os.MkdirAll` of a path given last part first. -/
def mkdirAll (tree : FileTree) : List Name → Option FileTree
  | [] => some tree
  | name :: parts =>
    match stat tree (name :: parts).reverse with
    | some .dir => some tree
    | some _ => none
    | none =>
      match mkdirAll tree parts with
      | none => none
      | some next =>
        match mkdir next parts.reverse name with
        | some made => some made
        | none => if lstat next (name :: parts).reverse = some .dir then some next else none

def prepareParent (createDirectories : Bool) : Option FileTree :=
  if createDirectories then mkdirAll tree path.dropLast.reverse
  else if stat tree path.dropLast = some .dir then some tree
  else none

/-- The place at which `os.OpenFile` with `O_CREATE` opens a file for writing. -/
def openForWrite : Option Place :=
  match walk tree true systemLinkLimit [] path with
  | none => none
  | some place => if tree.kind place = some .dir then none else some place

def handleWriteFile (workspaceRoots : List (List Char))
    (path : List Char) (createDirectories : Bool) : Option Place :=
  if workspaceRoots = [] then none
  else
    match validatePathForWrite tree workingDir path workspaceRoots with
    | .error _ => none
    | .ok validPath =>
      (prepareParent tree validPath createDirectories).bind fun next =>
        openForWrite next validPath

end OpenExec.PathValidation
