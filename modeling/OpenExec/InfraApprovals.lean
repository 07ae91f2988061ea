import OpenExec.ApprovalCopies
import OpenExec.InfraCommands

/-!
# Infrastructure changes need a person

Servers share a database of approval requests with the operators' processes.  A command
that needs an approval is run after its own request was found approved.
-/

namespace OpenExec.Infra

open Approvals GuardedRuns Option List Function

variable {request server call : Nat} {store : Store} {progress : Progress} {invocation : Invocation}
  {turn : Turn} {tool : String} {operator now : Nat} {before : RequestStatus} {after : Store}
  {fails : Bool}

structure Gate where
  projectPath : String
  riskOf : String → RiskLevel
  waitTimeout : Nat

structure Server where
  registry : Registry
  gate : Option Gate

structure Database where
  rows : Nat → Option Store
  size : Nat
  fresh : ∀ request, size ≤ request → rows request = none

namespace Database

def create (database : Database) (store : Store) : Database where
  rows := Function.update database.rows database.size (some store)
  size := database.size + 1
  fresh := by
    intro request beyond
    rw [update_of_ne (by omega)]
    exact database.fresh request (by omega)

def write (database : Database) (request : Nat) (store : Store) : Database where
  rows := Function.update database.rows request ((database.rows request).map fun _ => store)
  size := database.size
  fresh := by
    intro other beyond
    by_cases same : other = request
    · rw [same, update_self, database.fresh request (same ▸ beyond)]
      rfl
    · rw [update_of_ne same]
      exact database.fresh other beyond

theorem lt_size {database : Database} (isRow : database.rows request = some store) :
    request < database.size := by
  by_contra beyond
  rw [database.fresh request (by omega)] at isRow
  cases isRow

end Database

inductive Phase
  | idle
  | requesting (call : Nat) (invocation : Invocation)
  | holding (call request : Nat) (progress : Progress) (invocation : Invocation)

structure Ran where
  server : Nat
  call : Nat
  invocation : Invocation

structure Requested where
  server : Nat
  call : Nat
  request : Nat

structure System where
  database : Database
  servers : Nat → Phase
  operators : Nat → Option (Nat × Progress)
  -- The rest is only a record: how many calls each server has had, the requests of the
  -- calls, the requests that an operator's call has approved, and the commands run.
  calls : Nat → Nat
  requested : List Requested
  approved : List Nat
  ran : List Ran

structure Circumstances where
  policies : List ApprovalPolicy
  hasTrust : Bool
  createdAt : Nat
  extendedAt : Nat
  projectFails : Bool
  defaultFails : Bool
  createFails : Bool
  recordFails : Bool

variable {gate : Gate} {circumstances : Circumstances}

def Gate.policy (gate : Gate) (circumstances : Circumstances) : Option ApprovalPolicy :=
  getApplicablePolicy circumstances.policies gate.projectPath circumstances.projectFails

def Gate.policyFails (gate : Gate) (circumstances : Circumstances) : Bool :=
  circumstances.defaultFails &&
    (gate.projectPath == "" || circumstances.projectFails ||
      (getPolicyForProject circumstances.policies gate.projectPath).isNone)

def Gate.autoApproves (gate : Gate) (circumstances : Circumstances) (toolName : String) : Bool :=
  (gate.policy circumstances).any fun policy =>
    policy.shouldAutoApprove circumstances.hasTrust toolName (gate.riskOf toolName)

def newRequest (status : RequestStatus) (policy : Option ApprovalPolicy) (now : Nat) :
    ApprovalRequest where
  status := status
  policyID := policy.map (·.id)
  expiresAt := policy.map fun policy => now + policy.timeoutSeconds
  updatedAt := now

def autoApproval (riskLevel : RiskLevel) (policy : ApprovalPolicy) : ApprovalDecision where
  decision := .autoApproved
  decidedBy := "policy"
  reason := "Auto-approved by policy '" ++ policy.name ++ "' (mode: " ++ policy.mode.toString ++
    ", risk: " ++ riskLevel.toString ++ " <= " ++ policy.autoApproveRiskLevel.toString ++ ")"
  final := rfl

inductive Action
  | call (server : Nat) (toolCall : ToolCall) (inspection : Inspection)
  | request (server : Nat) (circumstances : Circumstances)
  | poll (server now : Nat) (fails : Bool)
  | timeOut (server : Nat)
  | operate (operator request : Nat) (operation : Operation)
  | advance (operator now : Nat) (fails : Bool)
  | giveUp (operator : Nat)
  | createOther (store : Store)

namespace System

def initial (database : Database) : System where
  database := database
  servers := fun _ => .idle
  operators := fun _ => none
  calls := fun _ => 0
  requested := []
  approved := []
  ran := []

variable (system : System)

def create (store : Store) : System :=
  { system with database := system.database.create store }

def write (request : Nat) (store : Store) : System :=
  { system with database := system.database.write request store }

def enter (server : Nat) (phase : Phase) : System :=
  { system with servers := Function.update system.servers server phase }

def runCommand (server call : Nat) (invocation : Invocation) : System :=
  { system.enter server .idle with ran := ⟨server, call, invocation⟩ :: system.ran }

def setOperator (operator : Nat) (work : Option (Nat × Progress)) : System :=
  { system with operators := Function.update system.operators operator work }

/-- A tool call up to the point where it runs its command or asks for an approval; without
a gate a command that needs one is refused. -/
def startCall (config : Server) (server : Nat) (toolCall : ToolCall)
    (inspection : Inspection) : System :=
  let call := system.calls server + 1
  let system := { system with calls := Function.update system.calls server call }
  match config.registry.prepare inspection toolCall with
  | .error _ => system
  | .ok invocation =>
    if invocation.needsApproval = false then system.runCommand server call invocation
    else if config.gate = none then system
    else system.enter server (.requesting call invocation)

def ask (store : Store) (server call : Nat) : System :=
  { system.create store with
    requested := ⟨server, call, system.database.size⟩ :: system.requested }

def await (gate : Gate) (server call : Nat) (invocation : Invocation)
    (circumstances : Circumstances) : System :=
  let request := newRequest .pending (gate.policy circumstances) circumstances.createdAt
  (system.ask ⟨request, none⟩ server call).enter server
    (.holding call system.database.size
      (.extending (circumstances.extendedAt + gate.waitTimeout)) invocation)

/-- The manager creates the request of a call, and a policy may approve it at once.  An
approval that cannot be recorded leaves the approved request behind, but nothing is run. -/
def createRequest (gate : Gate) (server call : Nat) (invocation : Invocation)
    (circumstances : Circumstances) : System :=
  let policy := gate.policy circumstances
  let request := newRequest .autoApproved policy circumstances.createdAt
  let decision := policy.map (autoApproval (gate.riskOf invocation.toolName))
  if gate.policyFails circumstances || circumstances.createFails then
    system.enter server .idle
  else if gate.autoApproves circumstances invocation.toolName = false then
    system.await gate server call invocation circumstances
  else if circumstances.recordFails = true then
    (system.create ⟨request, none⟩).enter server .idle
  else (system.create ⟨request, decision⟩).runCommand server call invocation

/-- What the gate does with the answer of a call on its request.  A request that can no
longer be extended is looked at all the same. -/
def afterAnswer (server call request : Nat) (invocation : Invocation) : Answer → System
  | .extended => system.enter server (.holding call request .waiting invocation)
  | .failed .approvalConflict => system.enter server (.holding call request .waiting invocation)
  | .result outcome =>
    if outcome.approved = true then system.runCommand server call invocation
    else system.enter server .idle
  | _ => system.enter server .idle

def afterTurn (server call request : Nat) (invocation : Invocation) : Turn → System
  | .goOn progress => system.enter server (.holding call request progress invocation)
  | .return answer => system.afterAnswer server call request invocation answer

def noteApproval (request : Nat) : System :=
  { system with approved := request :: system.approved }

def record (request : Nat) (progress : Progress) (before after : RequestStatus) : System :=
  match progress with
  | .settling (.approve _ _) _ =>
    if before = .pending ∧ after = .approved then system.noteApproval request else system
  | _ => system

def workAfter (request : Nat) : Turn → Option (Nat × Progress)
  | .goOn progress => some (request, progress)
  | .return _ => none

def step (servers : Nat → Server) (system : System) : Action → Option System
  | .call server toolCall inspection =>
    match system.servers server with
    | .idle => some (system.startCall (servers server) server toolCall inspection)
    | _ => none
  | .request server circumstances =>
    match system.servers server, (servers server).gate with
    | .requesting call invocation, some gate =>
      some (system.createRequest gate server call invocation circumstances)
    | _, _ => none
  | .poll server now fails =>
    match system.servers server with
    | .holding call request progress invocation => do
        let store ← system.database.rows request
        let (after, turn) ← Approvals.advance store now fails progress
        some ((system.write request after).afterTurn server call request invocation turn)
    | _ => none
  | .timeOut server =>
    match system.servers server with
    | .holding _ _ .waiting _ => some (system.enter server .idle)
    | _ => none
  | .operate operator request operation =>
    match system.operators operator, system.database.rows request with
    | none, some _ => some (system.setOperator operator (some (request, operation.begin)))
    | _, _ => none
  | .advance operator now fails => do
      let (request, progress) ← system.operators operator
      let store ← system.database.rows request
      let (after, turn) ← Approvals.advance store now fails progress
      let recorded := system.record request progress store.request.status after.request.status
      some ((recorded.write request after).setOperator operator (workAfter request turn))
  | .giveUp operator => some (system.setOperator operator none)
  | .createOther store => some (system.create store)

end System

def Gate.Pinned (gate : Gate) : Prop :=
  ∀ tool ∈ applyTools, gate.riskOf tool = .high

def Cautious (tool : String) (policy : ApprovalPolicy) : Prop :=
  (policy.mode = .alwaysAsk ∨
    policy.mode = .riskBased ∧ policy.autoApproveRiskLevel.priority < RiskLevel.high.priority) ∧
  tool ∉ policy.autoApproveTrustedTools

/-- Whenever the server asks for an approval, the policy selected for its project is
cautious. -/
def CautiousStep (servers : Nat → Server) (watched : Nat) (system : System) : Action → Prop
  | .request server circumstances =>
    server = watched → ∀ gate, (servers server).gate = some gate →
      ∀ call invocation, system.servers server = .requesting call invocation →
        ∀ policy, gate.policy circumstances = some policy → Cautious invocation.toolName policy
  | _ => True

theorem not_shouldAutoApprove {policy : ApprovalPolicy} (cautious : Cautious tool policy)
    (hasTrust : Bool) : policy.shouldAutoApprove hasTrust tool .high = false := by
  obtain ⟨mode, untrusted⟩ := cautious
  unfold ApprovalPolicy.shouldAutoApprove
  by_cases required : tool ∈ policy.alwaysRequireApprovalTools
  · rw [if_pos required]
  rw [if_neg required, if_neg untrusted]
  rcases mode with asks | ⟨byRisk, below⟩
  · rw [asks]
  · rw [byRisk]
    exact decide_eq_false (by omega)

theorem not_autoApproves (pinned : gate.Pinned) (applies : tool ∈ applyTools)
    (cautious : ∀ policy, gate.policy circumstances = some policy → Cautious tool policy) :
    gate.autoApproves circumstances tool = false := by
  unfold Gate.autoApproves
  rw [pinned tool applies]
  cases selected : gate.policy circumstances with
  | none => rfl
  | some policy => exact not_shouldAutoApprove (cautious policy selected) _

namespace System

/-- The statuses that the request of a tool call may have had so far. -/
def Possible (system : System) (request : Nat) (status : RequestStatus) : Prop :=
  ∀ entry ∈ system.requested, entry.request = request →
    status ≠ .autoApproved ∧ (status = .approved → request ∈ system.approved)

def Approves (system : System) (server call : Nat) : Prop :=
  ∃ request ∈ system.approved, ⟨server, call, request⟩ ∈ system.requested ∧
    ∀ entry ∈ system.requested, entry.request = request → entry = ⟨server, call, request⟩

def Justified (servers : Nat → Server) (system : System) (server : Nat) : Phase → Prop
  | .idle => True
  | .requesting _ invocation =>
    (servers server).gate ≠ none ∧ invocation.toolName ∈ applyTools
  | .holding call request progress _ =>
    (servers server).gate ≠ none ∧ ⟨server, call, request⟩ ∈ system.requested ∧
      progress.Polls ∧ progress.Honest (system.Possible request)

structure Sound (servers : Nat → Server) (watched : Nat) (system : System) : Prop where
  fresh : ∀ entry ∈ system.requested, entry.request < system.database.size
  unique : ∀ entry ∈ system.requested, ∀ other ∈ system.requested,
    entry.request = other.request → entry = other
  rows : ∀ request store, system.database.rows request = some store →
    system.Possible request store.request.status
  working : ∀ operator request progress, system.operators operator = some (request, progress) →
    request < system.database.size ∧ progress.Honest (system.Possible request)
  justified : ∀ server, system.Justified servers server (system.servers server)
  approved : ∀ entry ∈ system.ran, entry.server = watched → entry.invocation.needsApproval = true →
      (servers watched).gate ≠ none ∧ system.Approves watched entry.call

structure Extends (system next : System) : Prop where
  requested : ∀ entry ∈ system.requested, entry ∈ next.requested
  approved : ∀ request ∈ system.approved, request ∈ next.approved
  fresh : ∀ entry ∈ next.requested, entry ∉ system.requested → system.database.size ≤ entry.request

theorem Extends.refl_of {system next : System} (requested : next.requested = system.requested)
    (approved : next.approved = system.approved) : system.Extends next where
  requested := by
    intro entry isEntry
    rwa [requested]
  approved := by
    intro request isApproved
    rwa [approved]
  fresh := by
    intro entry isEntry isNew
    exact absurd (requested ▸ isEntry) isNew

section

variable {system next : System} (grown : system.Extends next)

include grown

theorem Extends.possible {status : RequestStatus} (isOld : request < system.database.size)
    (possible : system.Possible request status) : next.Possible request status := by
  intro entry isEntry isRequest
  have wasEntry : entry ∈ system.requested := by
    by_contra isNew
    have := grown.fresh entry isEntry isNew
    omega
  obtain ⟨notAuto, approved⟩ := possible entry wasEntry isRequest
  exact ⟨notAuto, fun isApproved => grown.approved request (approved isApproved)⟩

theorem Extends.honest (isOld : request < system.database.size)
    (honest : progress.Honest (system.Possible request)) :
    progress.Honest (next.Possible request) := by
  cases progress with
  | lookingUp copy | reporting copy => exact grown.possible isOld honest
  | _ => exact honest

variable (isOld : ∀ entry ∈ system.requested, entry.request < system.database.size)
include isOld

theorem Extends.justified {servers : Nat → Server} {phase : Phase}
    (justified : system.Justified servers server phase) : next.Justified servers server phase := by
  cases phase with
  | idle => trivial
  | requesting call invocation => exact justified
  | holding call request progress invocation =>
    obtain ⟨gated, isRequested, polls, honest⟩ := justified
    exact ⟨gated, grown.requested _ isRequested, polls, grown.honest (isOld _ isRequested) honest⟩

theorem Extends.approves {server call : Nat} (approves : system.Approves server call) :
    next.Approves server call := by
  obtain ⟨request, isApproved, isRequested, only⟩ := approves
  refine ⟨request, grown.approved _ isApproved, grown.requested _ isRequested, ?_⟩
  intro entry isEntry isRequest
  by_cases wasEntry : entry ∈ system.requested
  · exact only entry wasEntry isRequest
  · have isNew := grown.fresh entry isEntry wasEntry
    have wasOld : request < system.database.size := isOld _ isRequested
    omega

end

section

variable {servers : Nat → Server} {watched : Nat} {system : System}

section

variable (sound : system.Sound servers watched)
include sound

theorem Sound.enter {server : Nat} {phase : Phase}
    (justified : system.Justified servers server phase) :
    (system.enter server phase).Sound servers watched where
  __ := sound
  justified := by
    intro other
    by_cases same : other = server
    · subst same
      simp only [System.enter, update_self]
      exact (Extends.refl_of rfl rfl).justified sound.fresh justified
    · simp only [System.enter, update_of_ne same]
      exact (Extends.refl_of rfl rfl).justified sound.fresh (sound.justified other)

theorem Sound.runCommand (approved : server = watched → invocation.needsApproval →
      (servers watched).gate ≠ none ∧ system.Approves watched call) :
    (system.runCommand server call invocation).Sound servers watched where
  __ := @Sound.enter _ _ _ sound server .idle trivial
  approved := by
    intro entry isRan isWatched needs
    rcases mem_cons.mp isRan with rfl | wasRan
    · exact approved isWatched needs
    · exact sound.approved entry wasRan isWatched needs

theorem Sound.setOperator {work : Option (Nat × Progress)}
    (working : ∀ request progress, work = some (request, progress) →
      request < system.database.size ∧ progress.Honest (system.Possible request)) :
    (system.setOperator operator work).Sound servers watched where
  __ := sound
  working := by
    intro other request progress works
    by_cases same : other = operator
    · subst same
      simp only [System.setOperator, update_self] at works
      exact working request progress works
    · simp only [System.setOperator, update_of_ne same] at works
      exact sound.working other request progress works

theorem Sound.create (store : Store) :
    (system.create store).Sound servers watched where
  __ := sound
  fresh := by
    intro entry isEntry
    exact Nat.lt_succ_of_lt (sound.fresh entry isEntry)
  rows := by
    intro request row isRow
    by_cases same : request = system.database.size
    · intro entry isEntry isRequest
      have := sound.fresh entry isEntry
      omega
    · simp only [System.create, Database.create, update_of_ne same] at isRow
      exact sound.rows request row isRow
  working := by
    intro operator request progress works
    obtain ⟨isOld, honest⟩ := sound.working operator request progress works
    exact ⟨Nat.lt_succ_of_lt isOld, honest⟩

end

theorem Extends.ask (system : System) (store : Store) (server call : Nat) :
    system.Extends (system.ask store server call) where
  requested := fun _ => mem_cons_of_mem _
  approved := fun _ => id
  fresh := by
    intro entry isEntry isNew
    rcases mem_cons.mp isEntry with rfl | wasEntry
    · exact le_rfl
    · exact absurd wasEntry isNew

theorem Sound.ask (sound : system.Sound servers watched) {store : Store} (server call : Nat)
    (pending : store.request.status = .pending) :
    (system.ask store server call).Sound servers watched where
  fresh := by
    intro entry isEntry
    rcases mem_cons.mp isEntry with rfl | wasEntry
    · exact Nat.lt_succ_self _
    · exact Nat.lt_succ_of_lt (sound.fresh entry wasEntry)
  unique := by
    intro entry isEntry other isOther same
    rcases mem_cons.mp isEntry with rfl | wasEntry
    · rcases mem_cons.mp isOther with rfl | wasOther
      · rfl
      · exact absurd (sound.fresh other wasOther) (by simp [← same])
    · rcases mem_cons.mp isOther with rfl | wasOther
      · exact absurd (sound.fresh entry wasEntry) (by simp [same])
      · exact sound.unique entry wasEntry other wasOther same
  rows := by
    intro request row isRow
    by_cases same : request = system.database.size
    · subst same
      simp only [System.ask, System.create, Database.create, update_self,
        Option.some.injEq] at isRow
      intro entry _ _
      rw [← isRow, pending]
      exact ⟨by simp, by simp⟩
    · simp only [System.ask, System.create, Database.create, update_of_ne same] at isRow
      exact (Extends.ask system store server call).possible (Database.lt_size isRow)
        (sound.rows request row isRow)
  working := by
    intro operator request progress works
    obtain ⟨isOld, honest⟩ := sound.working operator request progress works
    exact ⟨Nat.lt_succ_of_lt isOld, (Extends.ask system store server call).honest isOld honest⟩
  justified := by
    intro other
    exact (Extends.ask system store server call).justified sound.fresh (sound.justified other)
  approved := by
    intro entry isRan isWatched needs
    obtain ⟨gated, approves⟩ := sound.approved entry isRan isWatched needs
    exact ⟨gated, (Extends.ask system store server call).approves sound.fresh approves⟩

theorem Sound.write (sound : system.Sound servers watched) {request : Nat} {store : Store}
    (possible : system.Possible request store.request.status) :
    (system.write request store).Sound servers watched where
  __ := sound
  rows := by
    intro other row isRow
    by_cases same : other = request
    · subst same
      simp only [System.write, Database.write, update_self, map_eq_some_iff]
        at isRow
      obtain ⟨_, _, rfl⟩ := isRow
      exact possible
    · simp only [System.write, Database.write, update_of_ne same] at isRow
      exact sound.rows other row isRow

theorem Extends.noteApproval (system : System) (request : Nat) :
    system.Extends (system.noteApproval request) where
  requested := fun _ => id
  approved := fun _ => mem_cons_of_mem _
  fresh := fun _ isEntry isNew => absurd isEntry isNew

theorem Sound.noteApproval (sound : system.Sound servers watched) (request : Nat) :
    (system.noteApproval request).Sound servers watched where
  __ := sound
  rows := by
    intro other row isRow
    exact (Extends.noteApproval system request).possible (Database.lt_size isRow)
      (sound.rows other row isRow)
  working := by
    intro operator other progress works
    obtain ⟨isOld, honest⟩ := sound.working operator other progress works
    exact ⟨isOld, (Extends.noteApproval system request).honest isOld honest⟩
  justified := by
    intro server
    exact (Extends.noteApproval system request).justified sound.fresh (sound.justified server)
  approved := by
    intro entry isRan isWatched needs
    obtain ⟨gated, approves⟩ := sound.approved entry isRan isWatched needs
    exact ⟨gated, (Extends.noteApproval system request).approves sound.fresh approves⟩

theorem Sound.record (sound : system.Sound servers watched) (request : Nat) (progress : Progress)
    (before after : RequestStatus) :
    (system.record request progress before after).Sound servers watched := by
  unfold System.record
  split
  · split
    · exact sound.noteApproval request
    · exact sound
  · exact sound

theorem Extends.record (system : System) (request : Nat) (progress : Progress)
    (before after : RequestStatus) :
    system.Extends (system.record request progress before after) := by
  unfold System.record
  split
  · split
    · exact Extends.noteApproval system request
    · exact Extends.refl_of rfl rfl
  · exact Extends.refl_of rfl rfl

theorem record_database (system : System) (request : Nat) (progress : Progress)
    (before after : RequestStatus) :
    (system.record request progress before after).database = system.database := by
  unfold System.record
  split
  · split <;> rfl
  · rfl

theorem possible_expired (system : System) (request : Nat) : system.Possible request .expired := by
  intro entry _ _
  exact ⟨by simp, by simp⟩

theorem possible_rejected (system : System) (request : Nat) :
    system.Possible request .rejected := by
  intro entry _ _
  exact ⟨by simp, by simp⟩

theorem possible_cancelled (system : System) (request : Nat) :
    system.Possible request .cancelled := by
  intro entry _ _
  exact ⟨by simp, by simp⟩

theorem record_possible {after : RequestStatus}
    (possible : (system.record request progress before after).Possible request before)
    (written : Written progress before after) :
    (system.record request progress before after).Possible request after := by
  cases written with
  | kept same =>
    subst same
    exact possible
  | expired isExpired =>
    rw [isExpired]
    exact possible_expired _ request
  | settled verdict copy settles wasPending status =>
    subst settles
    cases verdict with
    | reject decidedBy reason =>
      rw [status]
      exact possible_rejected _ request
    | cancel reason =>
      rw [status]
      exact possible_cancelled _ request
    | approve decidedBy reason =>
      have isApproved : after = .approved := status
      intro entry _ _
      refine ⟨by simp [isApproved], fun _ => ?_⟩
      simp [System.record, System.noteApproval, wasPending, isApproved]

theorem polls_possible {after : RequestStatus} (polls : progress.Polls)
    (possible : system.Possible request before) (written : Written progress before after) :
    system.Possible request after := by
  cases written with
  | kept same => rwa [same]
  | expired isExpired =>
    rw [isExpired]
    exact possible_expired _ request
  | settled verdict copy settles _ _ =>
    subst settles
    exact polls.elim

section

variable (sound : system.Sound servers watched)
include sound

theorem Sound.startCall (server : Nat) (toolCall : ToolCall) (inspection : Inspection) :
    (system.startCall (servers server) server toolCall inspection).Sound servers watched := by
  have counted : System.Sound servers watched
      { system with calls := Function.update system.calls server (system.calls server + 1) } :=
    { sound with }
  unfold System.startCall
  split
  · exact counted
  next invocation prepares =>
  split
  · next harmless =>
    refine counted.runCommand fun _ needs => ?_
    rw [harmless] at needs
    cases needs
  · next risky =>
    split
    · exact counted
    next gated =>
    have applies : invocation.command.applyClass := by
      simp only [Invocation.needsApproval, Bool.not_eq_false, Bool.and_eq_true] at risky
      exact risky.1
    exact counted.enter ⟨gated, applyTool_of_prepare prepares applies⟩

section

variable (gated : (servers server).gate ≠ none)
include gated

theorem Sound.createRequest
    (asks : server = watched → gate.autoApproves circumstances invocation.toolName = false) :
    (system.createRequest gate server call invocation circumstances).Sound servers watched := by
  unfold System.createRequest
  split
  · exact sound.enter trivial
  split
  · have asked := @Sound.ask _ _ _ sound
      ⟨newRequest .pending (gate.policy circumstances) circumstances.createdAt, none⟩
        server call rfl
    exact asked.enter ⟨gated, mem_cons_self, trivial, trivial⟩
  · next autoApproves =>
    split
    · exact (sound.create _).enter trivial
    · exact (sound.create _).runCommand fun isWatched _ => absurd (asks isWatched) autoApproves

theorem Sound.afterAnswer {answer : Answer}
    (isRequested : ⟨server, call, request⟩ ∈ system.requested)
    (honest : answer.Honest (system.Possible request)) :
    (system.afterAnswer server call request invocation answer).Sound servers watched := by
  unfold System.afterAnswer
  split
  · exact sound.enter ⟨gated, isRequested, trivial, trivial⟩
  · exact sound.enter ⟨gated, isRequested, trivial, trivial⟩
  · next outcome =>
    split
    · next approved =>
      refine sound.runCommand ?_
      rintro rfl _
      refine ⟨gated, request, ?_, isRequested, ?_⟩
      · rcases honest approved with possible | possible
        · exact (possible _ isRequested rfl).2 rfl
        · exact absurd rfl (possible _ isRequested rfl).1
      · intro entry isEntry isRequest
        exact sound.unique entry isEntry _ isRequested isRequest
    · exact sound.enter trivial
  · exact sound.enter trivial

theorem Sound.afterTurn (isRequested : ⟨server, call, request⟩ ∈ system.requested)
    (polls : turn.Polls) (honest : turn.Honest (system.Possible request)) :
    (system.afterTurn server call request invocation turn).Sound servers watched := by
  cases turn with
  | goOn progress => exact sound.enter ⟨gated, isRequested, polls, honest⟩
  | «return» answer => exact sound.afterAnswer gated isRequested honest

end

theorem Sound.poll (holds : system.servers server = .holding call request progress invocation)
    (isRow : system.database.rows request = some store)
    (advances : Approvals.advance store now fails progress = some (after, turn)) :
    ((system.write request after).afterTurn server call request invocation turn).Sound
      servers watched := by
  have justified := sound.justified server
  rw [holds] at justified
  obtain ⟨gated, isRequested, polls, honest⟩ := justified
  obtain ⟨written, honestTurn⟩ :=
    advance_honest (possible_expired system request) (sound.rows request store isRow)
      honest advances
  have possible := polls_possible polls (sound.rows request store isRow) written
  exact (sound.write possible).afterTurn gated isRequested (advance_polls polls advances) honestTurn

theorem Sound.advance (works : system.operators operator = some (request, progress))
    (isRow : system.database.rows request = some store)
    (advances : Approvals.advance store now fails progress = some (after, turn)) :
    (((system.record request progress store.request.status after.request.status).write request
      after).setOperator operator (workAfter request turn)).Sound servers watched := by
  obtain ⟨isOld, honest⟩ := sound.working operator request progress works
  have grown := Extends.record system request progress store.request.status after.request.status
  have recorded := sound.record request progress store.request.status after.request.status
  have sameRows :=
    record_database system request progress store.request.status after.request.status
  obtain ⟨written, honestTurn⟩ :=
    advance_honest (possible_expired _ request)
      (grown.possible isOld (sound.rows request store isRow)) (grown.honest isOld honest) advances
  have possible := record_possible (grown.possible isOld (sound.rows request store isRow)) written
  refine (recorded.write possible).setOperator ?_
  intro other nextProgress isWork
  cases turn with
  | goOn next =>
    cases isWork
    refine ⟨?_, honestTurn⟩
    rw [System.write, sameRows]
    exact isOld
  | «return» answer => simp [workAfter] at isWork

end

theorem begin_honest (possible : RequestStatus → Prop) (operation : Operation) :
    operation.begin.Honest possible := by
  cases operation <;> trivial

theorem Sound.step (pinned : ∀ gate, (servers watched).gate = some gate → gate.Pinned)
    (sound : system.Sound servers watched) {action : Action} {next : System}
    (cautious : CautiousStep servers watched system action)
    (taken : system.step servers action = some next) : next.Sound servers watched := by
  cases action with
  | call server toolCall inspection =>
    simp only [System.step] at taken
    split at taken
    · cases taken
      exact sound.startCall server toolCall inspection
    · cases taken
  | request server circumstances =>
    simp only [System.step] at taken
    split at taken
    · next call invocation gate requests isGate =>
      cases taken
      have justified := sound.justified server
      rw [requests] at justified
      refine sound.createRequest justified.1 ?_
      rintro rfl
      exact not_autoApproves (pinned gate isGate) justified.2
        (cautious rfl gate isGate call invocation requests)
    · cases taken
  | poll server now fails =>
    simp only [System.step] at taken
    split at taken
    · next call request progress invocation holds =>
      obtain ⟨store, isRow, taken⟩ := bind_eq_some_iff.mp taken
      obtain ⟨⟨after, turn⟩, advances, taken⟩ := bind_eq_some_iff.mp taken
      cases taken
      exact sound.poll holds isRow advances
    · cases taken
  | timeOut server =>
    simp only [System.step] at taken
    split at taken
    · cases taken
      exact sound.enter trivial
    · cases taken
  | operate operator request operation =>
    simp only [System.step] at taken
    split at taken
    · next store _ isRow =>
      cases taken
      refine sound.setOperator ?_
      intro other progress isWork
      cases isWork
      exact ⟨Database.lt_size isRow, begin_honest _ operation⟩
    · cases taken
  | advance operator now fails =>
    obtain ⟨⟨request, progress⟩, works, taken⟩ := bind_eq_some_iff.mp taken
    obtain ⟨store, isRow, taken⟩ := bind_eq_some_iff.mp taken
    obtain ⟨⟨after, turn⟩, advances, taken⟩ := bind_eq_some_iff.mp taken
    cases taken
    exact sound.advance works isRow advances
  | giveUp operator =>
    cases taken
    refine sound.setOperator ?_
    intro request progress isWork
    cases isWork
  | createOther store =>
    cases taken
    exact sound.create store

end

theorem sound_initial (servers : Nat → Server) (watched : Nat) (database : Database) :
    (System.initial database).Sound servers watched where
  fresh := by simp [System.initial]
  unique := by simp [System.initial]
  rows := by
    intro request store _ entry isEntry
    simp [System.initial] at isEntry
  working := by simp [System.initial]
  justified := fun _ => trivial
  approved := by simp [System.initial]

end System

/-- A command that needs an approval is run by a server whose tools are pinned and whose
policies are cautious only if the server has a gate and an operator has approved the
request of that very call.  The other servers may do as they like. -/
theorem apply_needs_operator (servers : Nat → Server) (watched : Nat) (database : Database)
    (system : System) (entry : Ran)
    (pinned : ∀ gate, (servers watched).gate = some gate → gate.Pinned)
    (reached : Reachable (System.step servers) (CautiousStep servers watched)
      (System.initial database) system)
    (isRan : entry ∈ system.ran) (isWatched : entry.server = watched)
    (applies : entry.invocation.command.applyClass = true)
    (risky : entry.invocation.command.riskProfile ≠ .low ∨ entry.invocation.destructive ≠ []) :
    (servers watched).gate ≠ none ∧
      ∃ request ∈ system.approved, ⟨watched, entry.call, request⟩ ∈ system.requested ∧
        ∀ other ∈ system.requested, other.request = request →
          other = ⟨watched, entry.call, request⟩ := by
  have sound : system.Sound servers watched := by
    refine reached.invariant (System.sound_initial servers watched database) ?_
    intro before action after sound cautious taken
    exact sound.step pinned cautious taken
  have needs : entry.invocation.needsApproval = true := by
    simp only [Invocation.needsApproval, applies, Bool.true_and, Bool.or_eq_true, bne_iff_ne]
    rcases risky with profile | destroys
    · exact .inl profile
    · exact .inr (by simpa using destroys)
  exact sound.approved entry isRan isWatched needs

def saltRegistry : Registry where
  environments := [("live", { riskProfile := .high, salt := some ⟨["web"], ["nginx"]⟩ })]

def saltServer : Server where
  registry := saltRegistry
  gate := some ⟨"/srv/app", fun tool => if tool ∈ applyTools then .high else .medium, 300⟩

def saltInvocation : Invocation where
  toolName := "salt_apply_state"
  command := ⟨"salt", ["web", "state.apply", "nginx"], true, "live", .high⟩
  destructive := []

def seededCircumstances : Circumstances where
  policies := [seededPolicy]
  hasTrust := false
  createdAt := 10
  extendedAt := 11
  projectFails := false
  defaultFails := false
  createFails := false
  recordFails := false

def emptyDatabase : Database where
  rows := fun _ => none
  size := 0
  fresh := fun _ _ => rfl

theorem saltServer_policy (isGate : saltServer.gate = some gate) :
    gate.policy seededCircumstances = some seededPolicy := by
  cases isGate
  decide +kernel

theorem saltServer_pinned (isGate : saltServer.gate = some gate) : gate.Pinned := by
  cases isGate
  intro tool applies
  exact if_pos applies

/-- Salt changes a live environment after the operator approved the first request. -/
theorem apply_needs_operator_salt : ∃ system : System, ⟨0, 1, saltInvocation⟩ ∈ system.ran ∧
      ∃ request ∈ system.approved, ⟨0, 1, request⟩ ∈ system.requested := by
  have started := reachable_start (System.step fun _ => saltServer)
    (CautiousStep (fun _ => saltServer) 0) (System.initial emptyDatabase)
  have called := started.next (.call 0 (.saltApplyState "live" "nginx" "web" false) none)
    trivial rfl
  have cautious : Cautious "salt_apply_state" seededPolicy := by
    refine ⟨.inr ⟨rfl, by decide⟩, by simp [seededPolicy]⟩
  have asked := called.next (.request 0 seededCircumstances)
    (by
      intro _ gate isGate call invocation requests policy isPolicy
      rw [saltServer_policy isGate] at isPolicy
      obtain ⟨rfl, rfl⟩ := Phase.requesting.inj requests
      exact Option.some.inj isPolicy ▸ cautious) rfl
  have extended := asked.next (.poll 0 12 false) trivial rfl
  have opened :=
    extended.next (.operate 0 0 (.decide (.approve "admin" "maintenance"))) trivial rfl
  have read := opened.next (.advance 0 20 false) trivial rfl
  have settled := read.next (.advance 0 21 false) trivial rfl
  have looked := settled.next (.poll 0 22 false) trivial rfl
  have ran := looked.next (.poll 0 23 false) trivial rfl
  obtain ⟨_, request, isApproved, isRequested, _⟩ :=
    apply_needs_operator _ 0 emptyDatabase _ ⟨0, 1, saltInvocation⟩
      (fun _ => saltServer_pinned) ran mem_cons_self rfl rfl (.inl (by decide))
  exact ⟨_, mem_cons_self, request, isApproved, isRequested⟩

end OpenExec.Infra
