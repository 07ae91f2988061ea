import OpenExec.KeyedRows

/-!
# Generations of the repository graph

Every build of the graph of a worktree is a row of its own, which holds what it was
built from: the hash of the scanned inputs, the digest of the configuration and the
version of the extractor.
-/

namespace OpenExec.Knowledge

open KeyedRows Table

/-- `incomplete` is the status `partial`: the build left some source out. -/
inductive GraphStatus
  | building
  | current
  | stale
  | incomplete
  | inconsistent
  | failed
  | incompatible
  | superseded
  deriving DecidableEq

structure Generation where
  id : String
  repositoryID : String
  checkoutID : String
  worktreeID : String
  worktreeStateHash : String
  configurationDigest : String
  extractorVersion : String
  manifestHash : String
  status : GraphStatus
  createdAt : Nat
  promotedAt : Option Nat

variable {applies : Generation → Bool} {status : GraphStatus} {id : String} {now : Nat}

structure RepositoryIdentity where
  repositoryID : String
  checkoutID : String
  worktreeID : String
  rootPath : String

/-- What a scan reads of a worktree, by its hashes. -/
structure ScanManifest where
  manifestHash : String
  configurationDigest : String

def ScanManifest.worktreeStateHash (manifest : ScanManifest) : String :=
  manifest.manifestHash

abbrev Generations := Table Generation.id

namespace Generations

variable (generations : Generations)

/-- `UPDATE graph_generations SET status = ? WHERE ...`. -/
def setStatus (applies : Generation → Bool) (status : GraphStatus) : Generations :=
  generations.map
    (fun generation => if applies generation then { generation with status } else generation)
    fun generation => by split <;> rfl

def abandonBuilds (worktreeID : String) : Generations :=
  generations.setStatus
    (fun generation => generation.worktreeID = worktreeID ∧ generation.status = .building) .failed

def beginGeneration (identity : RepositoryIdentity) (manifest : ScanManifest)
    (id extractorVersion : String) (now : Nat) : Option Generations :=
  generations.insert?
    { id := id
      repositoryID := identity.repositoryID
      checkoutID := identity.checkoutID
      worktreeID := identity.worktreeID
      worktreeStateHash := manifest.worktreeStateHash
      configurationDigest := manifest.configurationDigest
      extractorVersion := extractorVersion
      manifestHash := manifest.manifestHash
      status := .building
      createdAt := now
      promotedAt := none }

def endBuild (id : String) (status : GraphStatus) : Generations :=
  generations.setStatus (fun generation => generation.id = id ∧
    generation.status = .building) status

def failGeneration (id : String) : Generations :=
  generations.endBuild id .failed

def failInconsistent (id : String) : Generations :=
  generations.endBuild id .inconsistent

def markStale (id : String) : Generations :=
  generations.setStatus (fun generation => generation.id = id ∧ generation.status = .current) .stale

def isBuilding (id : String) : Bool :=
  (generations.get? id).any fun generation => generation.status = .building

def completePartialGeneration (id : String) : Option Generations :=
  if generations.isBuilding id then some (generations.endBuild id .incomplete) else none

def promoteGeneration (id : String) (now : Nat) : Option Generations :=
  match generations.get? id with
  | none => none
  | some built =>
    if built.status ≠ .building then none
    else
      let superseded := generations.setStatus
        (fun generation => generation.worktreeID = built.worktreeID ∧ generation.status = .current)
        .superseded
      some (superseded.put { built with status := .current, promotedAt := some now })

variable {generations}

theorem get?_setStatus :
    (generations.setStatus applies status).get? id = (generations.get? id).map fun generation =>
      if applies generation then { generation with status } else generation :=
  get?_map _

/-- Every row stays, and only its status and its time of promotion may change. -/
def Keeps (generations later : Generations) : Prop :=
  ∀ id generation, generations.get? id = some generation →
    ∃ status promotedAt, later.get? id = some { generation with status, promotedAt }

namespace Keeps

variable {later last : Generations}

theorem refl : generations.Keeps generations :=
  fun _ generation found => ⟨generation.status, generation.promotedAt, found⟩

theorem trans (first : generations.Keeps later) (second : later.Keeps last) :
    generations.Keeps last := by
  intro id generation found
  obtain ⟨_, _, isLater⟩ := first id generation found
  obtain ⟨status, promotedAt, isLast⟩ := second id _ isLater
  exact ⟨status, promotedAt, isLast⟩

theorem setStatus : generations.Keeps (generations.setStatus applies status) := by
  intro id generation found
  rw [get?_setStatus, found, Option.map_some]
  split
  · exact ⟨status, generation.promotedAt, rfl⟩
  · exact ⟨generation.status, generation.promotedAt, rfl⟩

theorem beginGeneration {identity : RepositoryIdentity} {manifest : ScanManifest}
    {extractorVersion : String}
    (begun : generations.beginGeneration identity manifest id extractorVersion now = some later) :
    generations.Keeps later :=
  fun _ generation found =>
    ⟨generation.status, generation.promotedAt, get?_of_insert? begun found⟩

theorem completePartialGeneration
    (completed : generations.completePartialGeneration id = some later) :
    generations.Keeps later := by
  unfold Generations.completePartialGeneration at completed
  split at completed
  · exact Option.some.inj completed ▸ setStatus
  · cases completed

theorem promoteGeneration (promoted : generations.promoteGeneration id now = some later) :
    generations.Keeps later := by
  unfold Generations.promoteGeneration at promoted
  split at promoted
  · cases promoted
  next built isBuilt =>
  split at promoted
  · cases promoted
  cases promoted
  intro other generation found
  rw [get?_put]
  by_cases isOther : built.id = other
  · have isGeneration : built = generation := by
      rw [← get?_key isBuilt, isOther, found] at isBuilt
      exact (Option.some.inj isBuilt).symm
    rw [if_pos isOther, isGeneration]
    exact ⟨_, _, rfl⟩
  · rw [if_neg isOther]
    exact setStatus other generation found

end Keeps

end Generations

end OpenExec.Knowledge
