import OpenExec.GuardedRuns
import OpenExec.ToolServer
import OpenExec.WriteContainment

/-!
# What the permission tiers bound

Outside the dangerous mode files are touched by git and by the bookkeeping of the
orchestrator.
-/

namespace OpenExec.ToolServer

open LinkedTrees GuardedRuns List Server Option
open PathValidation (Grown lstat openForWrite stat systemLinkLimit walk_of_openForWrite)

variable {server : Server} {home : Place} {tree next : FileTree}

variable {file : List Name} {before : Effect} {name : Name} {state : State} {call : Call}

def recordsHome (home : Place) : Place := home ++ [Server.orchestratorDir]

/-- The workspace root leads to its directory, and there are no links in the
orchestrator's directory. -/
structure Calm (server : Server) (home : Place) (tree : FileTree) : Prop where
  leads : walk tree false systemLinkLimit [] server.rootNames = some home
  isDir : tree.kind home = some .dir
  unlinked : ∀ place target, recordsHome home <+: place → tree.kind place ≠ some (.link target)

theorem Calm.added (calm : Calm server home tree) (added : Added tree next) :
    Calm server home next where
  leads := walk_of_extends added.extends_ (Nat.le_refl _) calm.leads
  isDir := added.extends_ _ _ calm.isDir
  unlinked := fun place target isBelow found =>
    calm.unlinked place target isBelow (added.noLink found)

theorem Calm.place_of_record (calm : Calm server home tree) {create : Bool} {place : Place}
    (entries : ∀ name ∈ file, IsEntry name)
    (reached : walk tree create systemLinkLimit [] (server.recordPath file) = some place) :
    place = recordsHome home ++ file := by
  obtain ⟨left, _, goesOn⟩ := walk_append calm.leads calm.isDir
  rw [recordPath, goesOn] at reached
  have isEntry : ∀ name ∈ orchestratorDir :: file, IsEntry name := by
    intro name isName
    rcases mem_cons.mp isName with rfl | inFile
    · exact ⟨by decide, by decide⟩
    · exact entries name inFile
  have unlinked : ∀ front, front <+: orchestratorDir :: file →
      ∀ target, tree.kind (home ++ front) ≠ some (.link target) := by
    intro front isFront target
    cases front with
    | nil => simp [calm.isDir]
    | cons first rest =>
      obtain ⟨rfl, _⟩ := cons_prefix_cons.mp isFront
      apply calm.unlinked
      exact ⟨rest, by simp [recordsHome]⟩
  rw [walk_unlinked isEntry unlinked reached]
  simp [recordsHome]

structure RecordsOnly (home : Place) (before after : Effect) : Prop where
  added : Added before.tree after.tree
  touched : ∀ place ∈ after.touched, place ∈ before.touched ∨ recordsHome home <+: place

theorem RecordsOnly.of_same {after : Effect} (sameTree : after.tree = before.tree)
    (sameTouched : after.touched = before.touched) : RecordsOnly home before after :=
  ⟨sameTree ▸ .refl before.tree, fun _ isTouched => .inl (sameTouched ▸ isTouched)⟩

theorem RecordsOnly.trans {middle after : Effect} (first : RecordsOnly home before middle)
    (second : RecordsOnly home middle after) : RecordsOnly home before after := by
  refine ⟨first.added.trans second.added, ?_⟩
  intro place isTouched
  rcases second.touched place isTouched with earlier | isRecord
  · exact first.touched place earlier
  · exact .inr isRecord

theorem RecordsOnly.after {before made : Effect}
    (records : RecordsOnly home ⟨before.tree, [], true⟩ made) :
    RecordsOnly home before (made.after before) := by
  refine ⟨records.added, ?_⟩
  intro place isTouched
  rcases mem_append.mp isTouched with earlier | isMade
  · exact .inl earlier
  · exact .inr ((records.touched place isMade).resolve_left (by simp))

theorem added_withFile (tree : FileTree) (place : Place) : Added tree (withFile tree place) := by
  unfold withFile
  split
  · exact .refl tree
  split
  · next isDir =>
    split
    · next missing => exact added_addFile isDir missing
    · exact .refl tree
  · exact .refl tree

theorem createFile_records (calm : Calm server home before.tree)
    (entries : ∀ name ∈ file, IsEntry name) :
    RecordsOnly home before (createFile before (server.recordPath file)) := by
  unfold createFile
  split
  · exact .of_same rfl rfl
  next place opened =>
  obtain ⟨reached, _⟩ := walk_of_openForWrite opened
  refine ⟨added_withFile before.tree place, ?_⟩
  intro other isTouched
  rcases mem_append.mp isTouched with earlier | isNew
  · exact .inl earlier
  · rw [mem_singleton.mp isNew, calm.place_of_record entries reached]
    exact .inr (prefix_append _ file)

theorem makeDir_records {parent : List Name}
    (below : ∀ place, walk before.tree false systemLinkLimit [] parent = some place →
      recordsHome home <+: place ++ [name]) :
    RecordsOnly home before (makeDir before parent name) := by
  unfold makeDir
  split
  · exact .of_same rfl rfl
  next place reached =>
  split
  · next isDir =>
    split
    · next missing =>
      refine ⟨@added_addDir _ _ _ isDir missing, ?_⟩
      intro other isTouched
      rcases mem_append.mp isTouched with earlier | isNew
      · exact .inl earlier
      · exact .inr (mem_singleton.mp isNew ▸ below place reached)
    · exact .of_same rfl rfl
  · exact .of_same rfl rfl

theorem makeDirs_cons_records {parts : List Name}
    (parents : RecordsOnly home ⟨tree, [], true⟩ (makeDirs tree parts))
    (below : ∀ place, walk (makeDirs tree parts).tree false systemLinkLimit [] parts.reverse =
      some place → recordsHome home <+: place ++ [name]) :
    RecordsOnly home ⟨tree, [], true⟩ (makeDirs tree (name :: parts)) := by
  unfold makeDirs
  split
  · exact .of_same rfl rfl
  · exact .of_same rfl rfl
  · simp only
    split
    · exact parents.trans (makeDir_records below)
    · exact parents

theorem makeDirs_root (calm : Calm server home tree) :
    makeDirs tree server.rootNames.reverse = ⟨tree, [], true⟩ := by
  have found : stat tree server.rootNames = some .dir :=
    bind_eq_some_iff.mpr ⟨home, calm.leads, calm.isDir⟩
  cases isParts : server.rootNames.reverse with
  | nil => rfl
  | cons name parts =>
    unfold makeDirs
    rw [← isParts, reverse_reverse, found]

theorem makeDirs_records (calm : Calm server home tree) (entries : ∀ name ∈ file, IsEntry name) :
    RecordsOnly home ⟨tree, [], true⟩ (makeDirs tree (server.recordPath file).reverse) := by
  induction file using reverseRecOn with
  | nil =>
    rw [recordPath, reverse_append, reverse_singleton, singleton_append]
    apply makeDirs_cons_records
    · rw [makeDirs_root calm]
      exact .of_same rfl rfl
    · intro place reached
      rw [makeDirs_root calm, reverse_reverse, calm.leads] at reached
      rw [← Option.some.inj reached]
      exact prefix_rfl
  | append_singleton file name ih =>
    have isFile : (server.recordPath (file ++ [name])).reverse =
        name :: (server.recordPath file).reverse := by simp [recordPath]
    have front : ∀ name ∈ file, IsEntry name := fun other isName =>
      entries other (mem_append_left [name] isName)
    rw [isFile]
    have made := ih front
    apply makeDirs_cons_records made
    intro place reached
    rw [reverse_reverse] at reached
    rw [(calm.added made.added).place_of_record front reached, append_assoc]
    exact prefix_append _ _

theorem writeRecords_records {before : Effect} (calm : Calm server home before.tree)
    (records : Records) : RecordsOnly home before (server.writeRecords before records) := by
  obtain ⟨files, entries⟩ := records
  induction files generalizing before with
  | nil => exact .of_same rfl rfl
  | cons file files ih =>
    have first := createFile_records calm (entries file mem_cons_self)
    exact first.trans (ih (calm.added first.added) fun other isFile =>
      entries other (mem_cons_of_mem _ isFile))

theorem askApproval_records (calm : Calm server home tree) (call : Call) :
    RecordsOnly home ⟨tree, [], true⟩ (server.askApproval tree call) := by
  unfold askApproval
  split
  · have asked := @writeRecords_records server home ⟨tree, [], true⟩ calm call.world.approvalRecords
    exact { asked with }
  · exact .of_same rfl rfl

theorem isEntry_of_skillName (isName : Server.isSkillName name) : IsEntry name := by
  cases name with
  | nil => simp [isSkillName] at isName
  | cons first rest =>
    have notPoint : first ≠ '.' := by
      rintro rfl
      simp [isSkillName] at isName
    exact ⟨by simp [isDot, notPoint], by simp [isDotDot, notPoint]⟩

theorem handleSkillPropose_records (calm : Calm server home tree) (call : Call) :
    RecordsOnly home ⟨tree, [], true⟩ (server.handleSkillPropose tree call) := by
  unfold handleSkillPropose
  split
  · exact .of_same rfl rfl
  next name _ =>
  split
  · next accepted =>
    have inDir : ∀ part ∈ skillDir name, IsEntry part := by
      intro part isPart
      simp only [skillDir, mem_cons, not_mem_nil, or_false] at isPart
      rcases isPart with rfl | rfl | rfl
      · exact ⟨by decide, by decide⟩
      · exact ⟨by decide, by decide⟩
      · exact isEntry_of_skillName accepted.1
    have inFile : ∀ part ∈ Server.skillDir name ++ ["SKILL.md".toList], IsEntry part := by
      intro part isPart
      rcases mem_append.mp isPart with isDir | isFile
      · exact inDir part isDir
      · exact mem_singleton.mp isFile ▸ ⟨by decide, by decide⟩
    have made := makeDirs_records calm inDir
    simp only
    split
    · exact made.trans (createFile_records (calm.added made.added) inFile)
    · exact made
  · exact .of_same rfl rfl

theorem writeArtifact_records {before : Effect} (calm : Calm server home before.tree)
    (patch : List Char) : RecordsOnly home before (server.writeArtifact before patch) := by
  have inDir : ∀ part ∈ ["artifacts".toList, "patches".toList], IsEntry part := by
    intro part isPart
    simp only [mem_cons, not_mem_nil, or_false] at isPart
    rcases isPart with rfl | rfl <;> exact ⟨by decide, by decide⟩
  have inFile : ∀ part ∈ ["artifacts".toList, "patches".toList, server.artifactName patch],
      IsEntry part := by
    intro part isPart
    simp only [mem_cons, not_mem_nil, or_false] at isPart
    rcases isPart with rfl | rfl | rfl
    · exact ⟨by decide, by decide⟩
    · exact ⟨by decide, by decide⟩
    · exact server.isArtifact patch
  have made := makeDirs_records calm inDir
  have kept := made.after
  have wrote := kept.trans (createFile_records (calm.added kept.added) inFile)
  exact { wrote with }

theorem acceptedPatch_check {arguments : Arguments} {request : GitApplyPatchRequest}
    {options : GitOptions}
    (accepted : server.acceptedPatch tree arguments = some (request, options)) :
    decodeBool "check_only" arguments = some options.check := by
  unfold acceptedPatch at accepted
  split at accepted
  · cases accepted
  next decoded isDecoded =>
  split at accepted
  · exact absurd accepted (by simp)
  next patch valid isValid =>
  split at accepted
  · obtain ⟨rfl, rfl⟩ := Prod.mk.inj (Option.some.inj accepted)
    have isCheck : valid.check = decoded.checkOnly := by
      unfold validateGitApplyPatchRequest at isValid
      iterate 3
        split at isValid
        · cases isValid
      · obtain ⟨_, rfl⟩ := Prod.mk.inj (Option.some.inj isValid)
        rfl
    unfold decodeGitApplyPatch at isDecoded
    simp only [bind_eq_bind, bind_eq_some_iff] at isDecoded
    obtain ⟨_, _, _, _, check, checkDecoded, _, _, _, _, _, _, _, _, built⟩ := isDecoded
    rw [checkDecoded, isCheck, ← Option.some.inj built]
  · cases accepted

def Server.tier (server : Server) (home : Place) : Place :=
  if server.broker.mode = .suggest then recordsHome home else home

def Server.handlerTree (server : Server) (state : State) (call : Call) : FileTree :=
  (server.askApproval state.tree call).tree

/-- The condition on a call, in the state before it: the orchestrator's directory is
calm; where a patch is handed to git, git works below the workspace and leaves the
orchestrator's directory calm; and so does what a tool uses besides its records. -/
structure Confined (server : Server) (home : Place) (state : State) (call : Call) : Prop where
  calm : Calm server home state.tree
  worksInside : call.name = "git_apply_patch" → ∀ request options dir,
    server.acceptedPatch (server.handlerTree state call) call.arguments = some (request, options) →
    server.leadsTo (server.handlerTree state call) (server.workDir request) = some dir →
      options.check = false → home <+: dir
  mergesInside : call.name = "git_apply_patch" → ∀ request options dir,
    server.acceptedPatch (server.handlerTree state call) call.arguments = some (request, options) →
    server.leadsTo (server.handlerTree state call) (server.workDir request) = some dir →
      options.threeWay = true → server.broker.mode ≠ .suggest ∧
        home <+: call.world.git.repository (server.handlerTree state call) dir
  staysCalm : call.name = "git_apply_patch" → ∀ request options dir,
    server.acceptedPatch (server.handlerTree state call) call.arguments = some (request, options) →
    server.leadsTo (server.handlerTree state call) (server.workDir request) = some dir →
      Calm server home
        (call.world.git.run (server.handlerTree state call) dir options request.patch).tree
  scratchInside : recordTools.contains call.name → ∀ effect, call.world.scratch = some effect →
    Calm server home effect.tree ∧ ∀ place ∈ effect.touched, server.tier home <+: place

theorem tier_prefix_records (server : Server) (home : Place) :
    server.tier home <+: recordsHome home := by
  unfold tier
  split
  · exact prefix_rfl
  · exact prefix_append _ _

theorem RecordsOnly.within {after : Effect} (records : RecordsOnly home before after)
    (within : ∀ place ∈ before.touched, server.tier home <+: place) :
    ∀ place ∈ after.touched, server.tier home <+: place := by
  intro place isTouched
  rcases records.touched place isTouched with earlier | isRecord
  · exact within place earlier
  · exact (tier_prefix_records server home).trans isRecord

theorem handleGitApplyPatch_within (isPatch : call.name = "git_apply_patch")
    (confined : Confined server home state call)
    (calm : Calm server home (server.handlerTree state call))
    (checks : server.broker.mode = .suggest → decodeBool "check_only" call.arguments = some true) :
    ∀ place ∈ (server.handleGitApplyPatch (server.handlerTree state call) call).touched,
      server.tier home <+: place := by
  unfold handleGitApplyPatch
  split
  · nofun
  next request options accepted =>
  have isCheck := acceptedPatch_check accepted
  unfold runGit
  split
  · exact RecordsOnly.within (@writeArtifact_records server home ⟨_, [], false⟩ calm request.patch)
      fun _ isTouched => absurd isTouched not_mem_nil
  next dir leads =>
  have calmAfter := confined.staysCalm isPatch request options dir accepted leads
  apply (writeArtifact_records calmAfter request.patch).within
  intro place isTouched
  rcases call.world.git.contained isTouched with ⟨applies, below⟩ | ⟨merges, below⟩
  · have inside := confined.worksInside isPatch request options dir accepted leads applies
    have edits : server.broker.mode ≠ .suggest := by
      intro isSuggest
      have checked := isCheck.symm.trans (checks isSuggest)
      exact absurd (Option.some.inj checked) (by simp [applies])
    rw [tier, if_neg edits]
    exact inside.trans below
  · obtain ⟨edits, inside⟩ := confined.mergesInside isPatch request options dir accepted
      leads merges
    rw [tier, if_neg edits]
    exact inside.trans below

theorem usedScratch_within (isRecordTool : recordTools.contains call.name)
    (confined : Confined server home state call)
    (calm : Calm server home (server.handlerTree state call)) :
    Calm server home (usedScratch (server.handlerTree state call) call).tree ∧
      ∀ place ∈ (usedScratch (server.handlerTree state call) call).touched,
        server.tier home <+: place := by
  unfold usedScratch
  split
  · exact ⟨calm, fun _ isTouched => absurd isTouched not_mem_nil⟩
  · next effect isScratch => exact confined.scratchInside isRecordTool effect isScratch

theorem dispatch_within (confined : Confined server home state call)
    (restricted : server.broker.mode ≠ .fullAuto)
    (allowed : server.broker.authorize call.name call.arguments = .ok ())
    (builtIn : server.isProvider call.name = false)
    (calm : Calm server home (server.handlerTree state call)) : ∀ place ∈
    (server.dispatch (server.handlerTree state call) call).touched, server.tier home <+: place := by
  unfold dispatch
  rw [if_neg (by simp [builtIn])]
  rcases server.broker.authorize_restricted restricted allowed with isOpen | ⟨isPatch, checks⟩
  · have notEdit : ∀ other ∈ openTools, other ≠ "write_file" ∧ other ≠ "git_apply_patch" ∧
        other ≠ "run_shell_command" ∧ isInfraTool other = false := by decide +kernel
    obtain ⟨notWrite, notPatch, notShell, notInfra⟩ := notEdit call.name isOpen
    rw [if_neg notWrite, if_neg notPatch]
    split
    · exact (handleSkillPropose_records calm call).within
        fun _ isTouched => absurd isTouched not_mem_nil
    split
    · next isRecordTool =>
      obtain ⟨calmAfter, within⟩ := usedScratch_within isRecordTool confined calm
      exact (writeRecords_records calmAfter call.world.records).within within
    rw [if_neg (by simp [notShell, notInfra])]
    exact fun _ isTouched => absurd isTouched not_mem_nil
  · rw [if_neg (by simp [isPatch]), if_pos isPatch]
    exact handleGitApplyPatch_within isPatch confined calm checks

/-- The entries of the history that the server's own tools made are within the tier. -/
def KeepsTier (server : Server) (home : Place) (state : State) : Prop :=
  ∀ entry ∈ state.log, entry.byProvider = false →
    ∀ place ∈ entry.touched, server.tier home <+: place

theorem handleToolsCall_keepsTier (restricted : server.broker.mode ≠ .fullAuto)
    (kept : KeepsTier server home state) (confined : Confined server home state call) :
    KeepsTier server home (server.handleToolsCall state call) := by
  have asked := askApproval_records confined.calm call
  have askedWithin : ∀ place ∈ (server.askApproval state.tree call).touched,
      server.tier home <+: place :=
    asked.within fun _ isTouched => absurd isTouched not_mem_nil
  have calm : Calm server home (server.handlerTree state call) := confined.calm.added asked.added
  unfold handleToolsCall
  split
  · intro entry isEntry builtIn place isTouched
    rcases mem_cons.mp isEntry with rfl | earlier
    · exact absurd isTouched not_mem_nil
    · exact kept entry earlier builtIn place isTouched
  next allowed =>
  simp only
  iterate 2
    split
    · intro entry isEntry builtIn place isTouched
      rcases mem_cons.mp isEntry with rfl | earlier
      · exact askedWithin place isTouched
      · exact kept entry earlier builtIn place isTouched
  · intro entry isEntry builtIn place isTouched
    rcases mem_cons.mp isEntry with rfl | earlier
    · rcases mem_append.mp isTouched with isAsked | isRun
      · exact askedWithin place isAsked
      · exact dispatch_within confined restricted allowed builtIn calm place isRun
    · exact kept entry earlier builtIn place isTouched

def patchingGit : Git where
  run := fun tree dir options patch =>
    { tree := tree
      touched :=
        match options.check, PatchParser.parsePatch patch with
        | false, .ok parsed => parsed.files.map fun file => dir ++ file.newName.splitOn '/'
        | _, _ => []
      succeeded := true }
  repository := fun _ dir => dir ++ [".git".toList]
  contained := by
    intro tree dir options patch place isTouched
    simp only at isTouched
    split at isTouched
    · next parsed applies _ =>
      obtain ⟨file, _, rfl⟩ := List.mem_map.mp isTouched
      exact .inl ⟨applies, List.prefix_append _ _⟩
    · exact absurd isTouched List.not_mem_nil

/-- A workspace and a repository next to it. -/
def neighbouringTree : FileTree :=
  .ofEntries
    [([], .dir), (["w".toList], .dir), (["w".toList, ".git".toList], .dir),
      (["w".toList, "f".toList], .file), (["other".toList], .dir),
      (["other".toList, ".git".toList], .dir), (["other".toList, "f".toList], .file)]
    (by decide) (by decide)

def editServer : Server where
  broker := ⟨.autoEdit, false, none⟩
  workspaceRoot := "/w".toList
  isRoot := by decide
  processDir := ["w".toList]
  readOnly := false
  requiresApproval := fun _ => false
  resumeMode := false
  hasChecker := false
  idempotencyKey := fun name _ => 'k' :: name.toList
  isKey := fun _ _ => List.cons_ne_nil _ _
  isProvider := fun _ => false
  notReserved := fun _ isProvider => absurd isProvider Bool.false_ne_true
  artifactName := fun _ => "hash.patch".toList
  isArtifact := fun _ => ⟨by decide, by decide⟩

def noRecords : Records where
  files := []
  entries := fun _ isFile => absurd isFile List.not_mem_nil

def patchWorld : World where
  approved := true
  approvalRecords := noRecords
  lookupFails := false
  marks := true
  decodes := true
  parses := true
  written := true
  proposed := true
  git := patchingGit
  scratch := none
  records := noRecords
  reported := true
  process := ⟨neighbouringTree, [], true⟩

def filePatch : List Char := "--- a/f\n+++ b/f\n@@ -1,1 +1,1 @@\n-x\n+y".toList

def patchCall (workingDirectory : String) : Call where
  name := "git_apply_patch"
  arguments := .object [("patch".toList, .text filePatch),
    ("working_directory".toList, .text workingDirectory.toList)]
  world := patchWorld

def patchStart : State := ⟨neighbouringTree, [], []⟩

theorem neighbouringTree_unlinked (place : Place) (target : List Char) :
    neighbouringTree.kind place ≠ some (.link target) := by
  intro found
  obtain ⟨before, after, isEntry, _⟩ := lookup_eq_some_iff.mp found
  have listed : (place, Kind.link target) ∈ before ++ (place, Kind.link target) :: after := by simp
  rw [← isEntry] at listed
  simp at listed

theorem neighbouringTree_calm : Calm editServer ["w".toList] neighbouringTree where
  leads := by decide +kernel
  isDir := by decide +kernel
  unlinked := fun place target _ => neighbouringTree_unlinked place target

end OpenExec.ToolServer
