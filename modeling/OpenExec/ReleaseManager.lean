import OpenExec.BacklogStore

/-!
# The release manager

`release.Manager` keeps a cache of the backlog beside the SQLite ledger.
-/

namespace OpenExec.ReleaseManager

open Release KeyedRows TaskQueue PartialWrites

structure Config where
  gitEnabled : Bool := false
  baseBranch : String := "main"
  approvalEnabled : Bool := false
  autoMergeStories : Bool := false
deriving DecidableEq

structure Manager where
  config : Config := {}
  release : Option ReleaseRecord := none
  goals : Table Release.Goal.id := Table.empty
  stories : Table Story.id := Table.empty
  tasks : Table Task.id := Table.empty

namespace Manager

variable (manager : Manager) (id : String)

def story? : Option Story := manager.stories.get? id

def task? : Option Task := manager.tasks.get? id

def putStory (story : Story) : Manager :=
  { manager with stories := manager.stories.put story }

def putTask (task : Task) : Manager :=
  { manager with tasks := manager.tasks.put task }

def editStory (edit : Story → Story) : Manager :=
  match manager.story? id with
  | none => manager
  | some story => manager.putStory (edit story)

end Manager

/-- `refreshCacheUnlocked`. -/
def refreshCache (manager : Manager) (backlog : Backlog) : Manager where
  config := manager.config
  release := backlog.release
  goals := backlog.goals
  stories := backlog.storyTable.map scanStory fun _ => rfl
  tasks := backlog.taskTable.map scanTask fun _ => rfl

/-- `saveUnlocked`: the release, then the goals, the stories and the tasks of the
cache, in the order the maps happen to be walked. -/
def saveUnlocked (manager : Manager) (backlog : Backlog) : Backlog × Bool :=
  let released := { backlog with release := manager.release.or backlog.release }
  let goals := writeAll writeGoal manager.goals.rows released
  if goals.2 = false then goals
  else
    let stories := writeAll writeStory manager.stories.rows goals.1
    if stories.2 = false then stories else writeAll writeTask manager.tasks.rows stories.1

/-- What an operation leaves before it saves: it refuses, it returns without
saving, or it saves the changed cache. -/
inductive Staged
  | refuses (manager : Manager) (backlog : Backlog)
  | returns (manager : Manager) (backlog : Backlog)
  | saves (manager : Manager)

/-- How a merge of a story's branch ends. -/
inductive MergeAnswer
  | merged (target commit : String) (mergedAt : Nat)
  | conflict
  | failed
deriving DecidableEq

section

variable (manager : Manager) (backlog : Backlog)

def newApproval : Option ApprovalInfo :=
  if manager.config.approvalEnabled then some { status := .pending } else none

def createRelease (record : ReleaseRecord) : Staged :=
  .saves { manager with release := some { record with approval := newApproval manager } }

def createGoal (goal : Release.Goal) : Staged :=
  .saves { manager with goals := manager.goals.put goal }

/-- `branch` is the branch the git tracker creates, if it can. -/
def createStory (story : Story) (branch : Option String) (now : Nat) : Staged :=
  let story :=
    { story with
      createdAt := if story.createdAt = 0 then now else story.createdAt
      status := if story.status = .blank then .pending else story.status }
  let placed : Option Story :=
    match manager.release with
    | none => some story
    | some release =>
      if manager.config.gitEnabled then
        branch.map fun branch =>
          { story with
            git :=
              some
                { branch
                  baseBranch :=
                    if release.branch ≠ "" then release.branch else manager.config.baseBranch } }
      else some story
  match placed with
  | none => .refuses manager backlog
  | some story =>
    let story :=
      if manager.config.approvalEnabled then { story with approval := newApproval manager }
      else story
    .saves
      { manager.putStory story with
        release :=
          manager.release.map fun release =>
            { release with stories := release.stories ++ [story.id] } }

def updateStory (story : Story) : Staged :=
  match manager.story? story.id with
  | none => .refuses manager backlog
  | some _ => .saves (manager.putStory story)

def createTask (task : Task) (now : Nat) : Staged :=
  let task :=
    { task with
      createdAt := if task.createdAt = 0 then now else task.createdAt
      status := if task.status = .blank then .pending else task.status
      maxAttempts := if task.maxAttempts = 0 then 3 else task.maxAttempts
      git :=
        if manager.config.gitEnabled then
          some { branch := (((manager.story? task.storyID).bind Story.git).getD {}).branch }
        else task.git
      approval := if manager.config.approvalEnabled then newApproval manager else task.approval }
  .saves ((manager.putTask task).editStory task.storyID fun story =>
    { story with tasks := story.tasks ++ [task.id] })

/-- `UpdateTask`; a task that stays in its story is written alone. -/
def updateTask (updated : Task) (accepted : Bool) : Staged :=
  match backlog.task? updated.id with
  | none => .refuses manager backlog
  | some existing =>
    if updated.status = .done ∧ existing.status ≠ .done ∧ accepted = false then
      .refuses manager backlog
    else if existing.storyID = updated.storyID then
      .returns (manager.putTask updated) (backlog.putTask (updated.columns (some existing)))
    else
      .saves (((manager.putTask updated).editStory existing.storyID fun story =>
          { story with tasks := story.tasks.filter fun id => id ≠ updated.id }).editStory
        updated.storyID fun story =>
          if updated.id ∈ story.tasks then story
          else { story with tasks := story.tasks ++ [updated.id] })

def reassignTask (taskID newStoryID : String) (accepted : Bool) : Staged :=
  match manager.task? taskID with
  | none => .refuses manager backlog
  | some task => updateTask manager backlog { task with storyID := newStoryID } accepted

variable (taskID : String)

def setTaskStatus (status : TaskStatus) (accepted : Bool) : Staged :=
  match backlog.task? taskID with
  | none => .refuses manager backlog
  | some row => updateTask manager backlog { scanTask row with status } accepted

def setStoryStatus (storyID : String) (status : StoryStatus) : Staged :=
  match manager.story? storyID with
  | none => .refuses manager backlog
  | some story => .saves (manager.putStory { story with status })

def deleteTask : Staged :=
  match manager.task? taskID with
  | none => .returns manager backlog
  | some task =>
    let edited := manager.editStory task.storyID fun story =>
      { story with tasks := story.tasks.filter fun id => id ≠ taskID }
    .saves { edited with tasks := edited.tasks.erase taskID }

def deleteStory (storyID : String) : Staged :=
  match manager.story? storyID with
  | none => .returns manager backlog
  | some story =>
    .saves
      { manager with
        tasks := story.tasks.foldl (fun tasks id => tasks.erase id) manager.tasks
        stories := manager.stories.erase storyID }

/-- `linked` is the git tracker's answer. -/
def linkCommitToTask (taskID commitHash : String) (linked : Bool) : Staged :=
  match manager.task? taskID with
  | none => .refuses manager backlog
  | some task =>
    let git := task.git.getD {}
    if commitHash ∈ git.commits then .returns manager backlog
    else
      let edited := manager.putTask
        { task with git := some { git with commits := git.commits ++ [commitHash] } }
      if manager.config.gitEnabled ∧ linked = false then .refuses edited backlog
      else .saves edited

def setTaskPR (prNumber : Int) (prURL : String) : Staged :=
  match manager.task? taskID with
  | none => .refuses manager backlog
  | some task =>
    let git := task.git.getD {}
    .saves (manager.putTask
      { task with
        git :=
          some
            { git with
              prNumber := if 0 < prNumber then some prNumber else git.prNumber
              prURL := if prURL ≠ "" then prURL else git.prURL } })

def approveTask (taskID approverID comments : String) (now : Nat) : Staged :=
  if manager.config.approvalEnabled = false then .returns manager backlog
  else
    match manager.task? taskID with
    | none => .refuses manager backlog
    | some task =>
      .saves (manager.putTask
        { task with
          status := .approved
          approval :=
            some
              { task.approval.getD {} with
                status := .approved, approvedBy := approverID, approvedAt := some now
                comments } })

def rejectTask (taskID approverID reason : String) (now : Nat) : Staged :=
  if manager.config.approvalEnabled = false then .returns manager backlog
  else
    match manager.task? taskID with
    | none => .refuses manager backlog
    | some task =>
      .saves (manager.putTask
        { task with
          status := .needsReview
          approval :=
            some
              { task.approval.getD {} with
                status := .rejected, approvedBy := approverID, approvedAt := some now
                rejectionReason := reason } })

def approveStory (storyID approverID comments : String) (now : Nat) : Staged :=
  if manager.config.approvalEnabled = false then .returns manager backlog
  else
    match manager.story? storyID with
    | none => .refuses manager backlog
    | some story =>
      .saves (manager.putStory
        { story with
          status := .approved
          approval :=
            some
              { story.approval.getD {} with
                status := .approved, approvedBy := approverID, approvedAt := some now
                comments } })

def approveRelease (approverID comments : String) (now : Nat) : Staged :=
  if manager.config.approvalEnabled = false then .returns manager backlog
  else
    match manager.release with
    | none => .refuses manager backlog
    | some release =>
      .saves
        { manager with
          release :=
            some
              { release with
                approval :=
                  some
                    { release.approval.getD {} with
                      status := .approved, approvedBy := approverID, approvedAt := some now
                      comments } } }

def tagRelease (tagged : Bool) : Staged :=
  match manager.release with
  | none => .refuses manager backlog
  | some release =>
    if manager.config.gitEnabled then
      if tagged then
        .saves
          { manager with
            release :=
              some
                (if release.branch ≠ "" then { release with tag := "v" ++ release.version }
                else release) }
      else .refuses manager backlog
    else .saves manager

def isApproved (approval : Option ApprovalInfo) : Bool :=
  approval.any fun info => info.status = .approved

def cachedDelivered (task : Task) : Bool :=
  delivered (fun id => (manager.task? id).map fun task => task.columns none) (task.columns none)

variable (storyID : String)

def isStoryComplete : Bool :=
  (manager.story? storyID).any fun story =>
    story.tasks ≠ [] && story.tasks.all fun id => (manager.task? id).any (cachedDelivered manager)

def mergedStory (story : Story) (merge : MergeAnswer) (now : Nat) : Option Story :=
  let done := { story with status := .done, completedAt := some now }
  if manager.config.gitEnabled then
    match merge with
    | .merged target commit mergedAt =>
      some
        { done with
          git :=
            story.git.map fun git =>
              { git with mergedTo := target, mergeCommit := commit, mergedAt := some mergedAt } }
    | _ => none
  else some done

def mergeStoryToRelease (merge : MergeAnswer) (now : Nat) : Staged :=
  match manager.story? storyID with
  | none => .refuses manager backlog
  | some story =>
    if manager.release = none then .refuses manager backlog
    else if manager.config.approvalEnabled ∧ isApproved story.approval = false then
      .refuses manager backlog
    else
      match mergedStory manager story merge now with
      | none => .refuses manager backlog
      | some story => .saves (manager.putStory story)

/-- `mergeStoryUnlocked`: the cache after it, with a conflict recorded on the
story. -/
def mergeStory (merge : MergeAnswer) (now : Nat) : Manager :=
  match manager.story? storyID with
  | none => manager
  | some story =>
    let acceptable := manager.config.approvalEnabled = false || story.tasks.all fun id =>
      (manager.task? id).any fun task =>
        cachedDelivered manager task && (task.needsReview = false || isApproved task.approval)
    if manager.release = none ∨ acceptable = false then manager
    else if story.git = none then
      manager.putStory { story with status := .done, completedAt := some now }
    else
      match mergedStory manager story merge now with
      | some story => manager.putStory story
      | none =>
        if merge = .conflict then manager.putStory { story with status := .conflict }
        else manager

/-- `CompleteTask`; `accepted` is the answer of `CanCompleteTask`. -/
def completeTask (accepted : Bool) (merge : MergeAnswer) (now : Nat) : Staged :=
  match manager.task? taskID with
  | none => .refuses manager backlog
  | some task =>
    if accepted = false then .refuses manager backlog
    else
      let done := manager.putTask { task with status := .done, completedAt := some now }
      if done.config.autoMergeStories && isStoryComplete done task.storyID &&
          (done.config.approvalEnabled = false ||
            (done.story? task.storyID).any fun story => isApproved story.approval) then
        .saves (mergeStory done task.storyID merge now)
      else .saves done

/-- `ProcessApprovedStories`. -/
def processApprovedStories (merges : String → MergeAnswer) (now : Nat) : Staged :=
  .saves (manager.stories.rows.foldl
    (fun current story =>
      if (current.story? story.id).any fun story =>
          story.status ≠ .done && isStoryComplete current story.id &&
            (current.config.approvalEnabled = false || isApproved story.approval) then
        mergeStory current story.id (merges story.id) now
      else current)
    manager)

def resetStatuses : Staged :=
  .saves
    { manager with
      stories := manager.stories.map (fun story => { story with status := .pending }) fun _ => rfl
      tasks := manager.tasks.map (fun task => { task with status := .pending }) fun _ => rfl }

/-- `AutoLinkCommits` with the links of the git tracker. -/
def autoLinkCommits (links : List (String × List String)) : Staged :=
  if manager.config.gitEnabled = false then .refuses manager backlog
  else
    .saves (links.foldl
      (fun current link =>
        match current.task? link.1 with
        | none => current
        | some task =>
          let git := task.git.getD {}
          current.putTask
            { task with
              git :=
                some
                  { git with
                    commits :=
                      link.2.foldl
                        (fun commits hash =>
                          if hash ∈ commits then commits else commits ++ [hash])
                        git.commits } })
      manager)

/-- `CreateFailureRepair`: the ledger's repair, then the rows it touched read
back into the cache. -/
def repairFailure (naming : RepairNaming) (taskID evidenceID diagnosis : String) (now : Nat) :
    Staged :=
  match createFailureRepair backlog.toTaskLedger now naming taskID evidenceID diagnosis with
  | .error _ => .refuses manager backlog
  | .ok ledger =>
    let written := { backlog with toTaskLedger := ledger }
    let repairID := naming.repairID (GoStrings.trimSpace taskID) (GoStrings.trimSpace evidenceID)
    match written.task? repairID, written.task? taskID with
    | some repair, some original =>
      match written.story? repair.storyID with
      | some story =>
        .returns
          (((manager.putTask (scanTask original)).putTask (scanTask repair)).putStory
            (scanStory story)) written
      | none => .refuses manager written
    | _, _ => .refuses manager written

/-- The transaction of `ImportReviewedPlan`: rows that are absent are inserted,
rows that are there must be identical in what the plan says of them. -/
def importRows (goals : List Release.Goal) (stories : List Story) (tasks : List Task) :
    Option Backlog :=
  let insertGoal (backlog : Backlog) (goal : Release.Goal) : Option Backlog :=
    match backlog.goal? goal.id with
    | none => some { backlog with goals := backlog.goals.put goal }
    | some old => if old = goal then some backlog else none
  let insertStory (backlog : Backlog) (story : Story) : Option Backlog :=
    match backlog.story? story.id with
    | none =>
      if story.goalID ≠ "" ∧ backlog.goal? story.goalID = none then none
      else
        some (backlog.putStory
          { id := story.id, goalID := story.goalID, dependsOn := story.dependsOn
            tasks := story.tasks })
    | some old =>
      if old.goalID = story.goalID ∧ old.dependsOn = story.dependsOn ∧
          old.tasks = story.tasks then some backlog
      else none
  let insertTask (backlog : Backlog) (task : Task) : Option Backlog :=
    match backlog.task? task.id with
    | none =>
      if backlog.story? task.storyID = none then none
      else
        some (backlog.putTask
          { id := task.id, storyID := task.storyID, title := task.title
            description := task.description, verificationScript := task.verificationScript
            dependsOn := task.dependsOn, priority := task.priority
            maxAttempts := task.maxAttempts, metadata := task.metadata })
    | some old =>
      if old.storyID = task.storyID ∧ old.title = task.title ∧
          old.description = task.description ∧
          old.verificationScript = task.verificationScript ∧ old.dependsOn = task.dependsOn ∧
          old.priority = task.priority ∧ old.maxAttempts = task.maxAttempts ∧
          old.metadata.mode = task.metadata.mode then some backlog
      else none
  (goals.foldlM insertGoal backlog).bind fun backlog =>
    (stories.foldlM insertStory backlog).bind fun backlog => tasks.foldlM insertTask backlog

def importReviewedPlan (goals : List Release.Goal) (stories : List Story) (tasks : List Task) :
    Staged :=
  match importRows backlog goals stories tasks with
  | none => .refuses manager backlog
  | some written => .returns (refreshCache manager written) written

end

inductive Operation
  | createRelease (record : ReleaseRecord)
  | createGoal (goal : Release.Goal)
  | createStory (story : Story) (branch : Option String) (now : Nat)
  | updateStory (story : Story)
  | createTask (task : Task) (now : Nat)
  | updateTask (task : Task) (accepted : Bool)
  | reassignTask (taskID newStoryID : String) (accepted : Bool)
  | setTaskStatus (taskID : String) (status : TaskStatus) (accepted : Bool)
  | setStoryStatus (storyID : String) (status : StoryStatus)
  | deleteTask (taskID : String)
  | deleteStory (storyID : String)
  | linkCommitToTask (taskID commitHash : String) (linked : Bool)
  | setTaskPR (taskID : String) (prNumber : Int) (prURL : String)
  | approveTask (taskID approverID comments : String) (now : Nat)
  | rejectTask (taskID approverID reason : String) (now : Nat)
  | approveStory (storyID approverID comments : String) (now : Nat)
  | approveRelease (approverID comments : String) (now : Nat)
  | tagRelease (tagged : Bool)
  | mergeStoryToRelease (storyID : String) (merge : MergeAnswer) (now : Nat)
  | completeTask (taskID : String) (accepted : Bool) (merge : MergeAnswer) (now : Nat)
  | processApprovedStories (merges : String → MergeAnswer) (now : Nat)
  | resetStatuses
  | autoLinkCommits (links : List (String × List String))
  | repairFailure (naming : RepairNaming) (taskID evidenceID diagnosis : String) (now : Nat)
  | importReviewedPlan (goals : List Release.Goal) (stories : List Story) (tasks : List Task)
  | save
  | load

def stage (manager : Manager) (backlog : Backlog) : Operation → Staged
  | .createRelease record => createRelease manager record
  | .createGoal goal => createGoal manager goal
  | .createStory story branch now => createStory manager backlog story branch now
  | .updateStory story => updateStory manager backlog story
  | .createTask task now => createTask manager task now
  | .updateTask task accepted => updateTask manager backlog task accepted
  | .reassignTask taskID newStoryID accepted =>
    reassignTask manager backlog taskID newStoryID accepted
  | .setTaskStatus taskID status accepted => setTaskStatus manager backlog taskID status accepted
  | .setStoryStatus storyID status => setStoryStatus manager backlog storyID status
  | .deleteTask taskID => deleteTask manager backlog taskID
  | .deleteStory storyID => deleteStory manager backlog storyID
  | .linkCommitToTask taskID commitHash linked =>
    linkCommitToTask manager backlog taskID commitHash linked
  | .setTaskPR taskID prNumber prURL => setTaskPR manager backlog taskID prNumber prURL
  | .approveTask taskID approverID comments now =>
    approveTask manager backlog taskID approverID comments now
  | .rejectTask taskID approverID reason now =>
    rejectTask manager backlog taskID approverID reason now
  | .approveStory storyID approverID comments now =>
    approveStory manager backlog storyID approverID comments now
  | .approveRelease approverID comments now =>
    approveRelease manager backlog approverID comments now
  | .tagRelease tagged => tagRelease manager backlog tagged
  | .mergeStoryToRelease storyID merge now =>
    mergeStoryToRelease manager backlog storyID merge now
  | .completeTask taskID accepted merge now =>
    completeTask manager backlog taskID accepted merge now
  | .processApprovedStories merges now => processApprovedStories manager merges now
  | .resetStatuses => resetStatuses manager
  | .autoLinkCommits links => autoLinkCommits manager backlog links
  | .repairFailure naming taskID evidenceID diagnosis now =>
    repairFailure manager backlog naming taskID evidenceID diagnosis now
  | .importReviewedPlan goals stories tasks =>
      importReviewedPlan manager backlog goals stories tasks
  | .save => .saves manager
  | .load => .returns (refreshCache manager backlog) backlog

structure Performed where
  manager : Manager
  backlog : Backlog
  succeeded : Bool

def perform (manager : Manager) (backlog : Backlog) (operation : Operation) : Performed :=
  match stage manager backlog operation with
  | .refuses manager backlog => ⟨manager, backlog, false⟩
  | .returns manager backlog => ⟨manager, backlog, true⟩
  | .saves manager =>
    let saved := saveUnlocked manager backlog
    ⟨manager, saved.1, saved.2⟩

end OpenExec.ReleaseManager
