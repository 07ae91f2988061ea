import OpenExec.PermissionTiers

/-!
# Calls that a resumed run skips

A call is skipped if its key is in the store of applied calls.  The key is recorded
after the handler has run, whatever the handler reported.
-/

namespace OpenExec.ToolServer

open LinkedTrees GuardedRuns Server List

variable {server : Server} {start state : State} {call : Call}

def Took (log : List Entry) (key : List Char) : Prop :=
  ∃ entry ∈ log, entry.key = key ∧ entry.answer = .executed true

/-- The keys in the store belong to calls that took effect, before the restart or
since. -/
def KeysTook (start state : State) : Prop :=
  ∀ key ∈ state.applied, key ∈ start.applied ∨ Took state.log key

/-- Every skipped call of a history repeats one that took effect. -/
def SkipsJustified (start : State) (log : List Entry) : Prop :=
  ∀ later entry earlier, log = later ++ entry :: earlier → entry.answer = .skipped →
    entry.key ∈ start.applied ∨ Took earlier entry.key

structure Reaches (server : Server) (state : State) (call : Call) : Prop where
  allowed : server.broker.authorize call.name call.arguments = .ok ()
  approved : (server.askApproval state.tree call).succeeded = true
  fresh : server.wasApplied state call = false

def Server.handled (server : Server) (state : State) (call : Call) : Effect :=
  server.dispatch (server.askApproval state.tree call).tree call

/-- The condition on a call: it does not fail in its handler and get recorded. -/
def Completes (server : Server) (state : State) (call : Call) : Prop :=
  Reaches server state call → Server.recorded call.name = true → server.callKey call ≠ [] →
    call.world.marks = true → (server.handled state call).succeeded = true

theorem handleToolsCall_of_reaches (reaches : Reaches server state call) :
    server.handleToolsCall state call =
      { tree := (server.handled state call).tree
        applied := server.markToolApplied state call
        log := server.entry call (.executed (server.handled state call).succeeded)
          ((server.askApproval state.tree call).touched ++ (server.handled state call).touched) ::
            state.log } := by
  unfold handleToolsCall
  rw [reaches.allowed]
  simp only [reaches.approved, reaches.fresh, Bool.true_eq_false, Bool.false_eq_true, if_false]
  rfl

theorem log_of_applied (allowed : server.broker.authorize call.name call.arguments = .ok ())
    (approved : (server.askApproval state.tree call).succeeded)
    (applied : server.wasApplied state call) : (server.handleToolsCall state call).log =
    server.entry call .skipped (server.askApproval state.tree call).touched :: state.log := by
  unfold handleToolsCall
  rw [allowed]
  simp only [approved, applied, Bool.true_eq_false, if_false, if_true]

theorem handleToolsCall_of_not_reaches (stopped : ¬ Reaches server state call) :
    (server.handleToolsCall state call).applied = state.applied ∧ ∃ entry,
    (server.handleToolsCall state call).log = entry :: state.log ∧
    (entry.answer = .skipped → entry.key ∈ state.applied) := by
  unfold handleToolsCall
  split
  · exact ⟨rfl, _, rfl, fun skipped => absurd skipped (by simp [entry])⟩
  next allowed =>
  simp only
  split
  · exact ⟨rfl, _, rfl, fun skipped => absurd skipped (by simp [entry])⟩
  next approved =>
  split
  · next applied =>
    refine ⟨rfl, _, rfl, fun _ => ?_⟩
    simp only [wasApplied, Bool.and_eq_true, contains_iff_mem] at applied
    exact applied.2
  · next fresh =>
    exact absurd ⟨allowed, by simpa using approved, by simpa using fresh⟩ stopped

theorem Took.cons {log : List Entry} {key : List Char} (took : Took log key) (entry : Entry) :
    Took (entry :: log) key := by
  obtain ⟨earlier, isEntry, isTaken⟩ := took
  exact ⟨earlier, mem_cons_of_mem _ isEntry, isTaken⟩

theorem SkipsJustified.cons {log : List Entry} {entry : Entry}
    (justified : SkipsJustified start log)
    (last : entry.answer = .skipped → entry.key ∈ start.applied ∨ Took log entry.key) :
    SkipsJustified start (entry :: log) := by
  intro later other earlier isLog skipped
  cases later with
  | nil =>
    obtain ⟨rfl, rfl⟩ := List.cons.inj isLog
    exact last skipped
  | cons first later =>
    obtain ⟨_, isRest⟩ := List.cons.inj isLog
    exact justified later other earlier isRest skipped

theorem keysTook_handleToolsCall (keys : KeysTook start state)
    (completes : Completes server state call) :
    KeysTook start (server.handleToolsCall state call) := by
  by_cases reaches : Reaches server state call
  · rw [handleToolsCall_of_reaches reaches]
    intro key isApplied
    have isApplied' : key ∈ server.markToolApplied state call := isApplied
    unfold markToolApplied at isApplied'
    split at isApplied'
    · next marked =>
      rcases mem_cons.mp isApplied' with rfl | earlier
      · have succeeded := completes reaches marked.1 marked.2.1 marked.2.2
        refine .inr ⟨_, mem_cons_self, rfl, ?_⟩
        exact congrArg Answer.executed succeeded
      · exact (keys key earlier).imp_right fun took => took.cons _
    · exact (keys key isApplied').imp_right fun took => took.cons _
  · obtain ⟨sameKeys, entry, isLog, _⟩ := handleToolsCall_of_not_reaches reaches
    intro key isApplied
    rw [isLog]
    rw [sameKeys] at isApplied
    exact (keys key isApplied).imp_right fun took => took.cons entry

theorem skipsJustified_handleToolsCall (keys : KeysTook start state)
    (justified : SkipsJustified start state.log) :
    SkipsJustified start (server.handleToolsCall state call).log := by
  by_cases reaches : Reaches server state call
  · rw [handleToolsCall_of_reaches reaches]
    exact justified.cons fun skipped => absurd skipped (by simp [entry])
  · obtain ⟨_, entry, isLog, inStore⟩ := handleToolsCall_of_not_reaches reaches
    rw [isLog]
    exact justified.cons fun skipped => keys entry.key (inStore skipped)

theorem skipped_of_not_completes (fails : ¬ Completes server state call) {repeated : Call}
    (sameName : repeated.name = call.name) (sameArguments : repeated.arguments = call.arguments)
    (looksUp : repeated.world.lookupFails = false)
    (approved : (server.askApproval (server.handleToolsCall state call).tree repeated).succeeded =
      true) :
    ∃ entry failed, (server.handleToolsCall (server.handleToolsCall state call) repeated).log =
        entry :: failed :: state.log ∧ entry.key = server.callKey call ∧
      entry.answer = .skipped ∧ failed.answer = .executed false := by
  simp only [Completes, Classical.not_imp] at fails
  obtain ⟨reaches, isRecorded, hasKey, marks, failed⟩ := fails
  have failed' : (server.handled state call).succeeded = false := by simpa using failed
  have sameKey : server.callKey repeated = server.callKey call := by
    simp [callKey, eligible, sameName, sameArguments]
  have after := handleToolsCall_of_reaches reaches
  have inStore : server.wasApplied (server.handleToolsCall state call) repeated := by
    rw [after]
    simp [wasApplied, sameKey, hasKey, looksUp, markToolApplied, isRecorded, marks]
  have allowed : server.broker.authorize repeated.name repeated.arguments = .ok () := by
    rw [sameName, sameArguments]
    exact reaches.allowed
  have answered := log_of_applied allowed approved inStore
  refine ⟨_, _, answered.trans (congrArg _ (congrArg State.log after)), sameKey, rfl, ?_⟩
  exact congrArg Answer.executed failed'

/-- Along every run whose recorded calls all succeed, a call is skipped only if one
with its key took effect before.  A recorded call that fails is skipped when it is
repeated. -/
theorem resume_skips_only_done (server : Server) (start : State) (fresh : start.log = []) :
    (∀ state, Reachable server.step (Completes server) start state →
      ∀ later entry earlier, state.log = later ++ entry :: earlier → entry.answer = .skipped →
        entry.key ∈ start.applied ∨ Took earlier entry.key) ∧
    ∀ state call repeated, ¬ Completes server state call → repeated.name = call.name →
      repeated.arguments = call.arguments → repeated.world.lookupFails = false →
      (server.askApproval (server.handleToolsCall state call).tree repeated).succeeded = true →
        ∃ entry failed, (server.handleToolsCall (server.handleToolsCall state call) repeated).log =
            entry :: failed :: state.log ∧ entry.key = server.callKey call ∧
          entry.answer = .skipped ∧ failed.answer = .executed false := by
  constructor
  · intro state reachable
    have holds : KeysTook start state ∧ SkipsJustified start state.log := by
      apply reachable.invariant
      · refine ⟨fun key isApplied => .inl isApplied, ?_⟩
        intro later entry earlier isLog
        rw [fresh] at isLog
        exact absurd isLog (by simp)
      · intro before call after kept completes taken
        cases taken
        exact ⟨keysTook_handleToolsCall kept.1 completes,
          skipsJustified_handleToolsCall kept.1 kept.2⟩
    exact holds.2
  · intro state call repeated fails sameName sameArguments looksUp approved
    exact skipped_of_not_completes fails sameName sameArguments looksUp approved

def resumedServer : Server :=
  { editServer with
    broker := ⟨.fullAuto, false, none⟩
    resumeMode := true
    hasChecker := true }

def writeCall (path : String) : Call where
  name := "write_file"
  arguments := .object [("path".toList, .text path.toList), ("content".toList, .text [])]
  world := patchWorld

theorem resume_skips_only_done_write :
    ((resumedServer.handleToolsCall (resumedServer.handleToolsCall patchStart (writeCall "/w/x"))
        (writeCall "/w/x")).log.map (·.answer)) = [.skipped, .executed true] ∧
      Took (resumedServer.handleToolsCall patchStart (writeCall "/w/x")).log
        (resumedServer.callKey (writeCall "/w/x")) := by
  have wrote : (resumedServer.handled patchStart (writeCall "/w/x")).succeeded = true := by
    decide +kernel
  have applied : resumedServer.wasApplied
      (resumedServer.handleToolsCall patchStart (writeCall "/w/x")) (writeCall "/w/x") = true := by
    decide +kernel
  have once : Reachable resumedServer.step (Completes resumedServer) patchStart
      (resumedServer.handleToolsCall patchStart (writeCall "/w/x")) :=
    .after .initial (fun _ _ _ _ => wrote) rfl
  have twice := Reachable.after once
    (fun reaches _ _ _ => absurd (reaches.fresh.symm.trans applied) Bool.false_ne_true)
    (rfl : resumedServer.step _ (writeCall "/w/x") = some _)
  have answered : (resumedServer.handleToolsCall
      (resumedServer.handleToolsCall patchStart (writeCall "/w/x")) (writeCall "/w/x")).log = _ :=
    log_of_applied rfl rfl applied
  refine ⟨by decide +kernel, ?_⟩
  rcases (resume_skips_only_done resumedServer patchStart rfl).1 _ twice [] _ _ answered rfl with
    before | took
  · exact absurd before not_mem_nil
  · exact took

def preparedTree : FileTree :=
  neighbouringTree.addDir ["w".toList] "a".toList (by decide +kernel)

def mkdirCall : Call where
  name := "run_shell_command"
  arguments := .object [("command".toList, .text "mkdir /w/a".toList)]
  world := { patchWorld with process := ⟨preparedTree, [["w".toList, "a".toList]], true⟩ }

/-- A write that failed for want of its directory is skipped once the directory is
there. -/
theorem failed_write_is_skipped :
    ((resumedServer.handleToolsCall
        (resumedServer.handleToolsCall
          (resumedServer.handleToolsCall patchStart (writeCall "/w/a/x")) mkdirCall)
        (writeCall "/w/a/x")).log.map fun entry => (entry.name, entry.answer)) =
      [("write_file", .skipped), ("run_shell_command", .executed true),
        ("write_file", .executed false)] ∧
    patchStart.applied = [] ∧
    (resumedServer.handled ⟨preparedTree, [], []⟩ (writeCall "/w/a/x")).succeeded = true :=
  ⟨by decide +kernel, rfl, by decide +kernel⟩

end OpenExec.ToolServer
