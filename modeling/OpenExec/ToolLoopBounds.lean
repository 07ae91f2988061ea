import OpenExec.ToolLoopSteps

/-!
# The tool loop is bounded

Every iteration ends the run, restarts the chain or makes a round of tool calls.
-/

namespace OpenExec.Execution

open Agent GuardedRuns List Provider

variable {provider : Provider} {request : RunRequest} {world : World}
  {state middle next : LoopState}
variable {requests : Nat}

structure SameRounds (state next : LoopState) : Prop where
  rounds : next.rounds = state.rounds
  localOnly : next.localOnly = state.localOnly
  toolRounds : next.toolRounds = state.toolRounds

/-- What a step does to the counters, and the number of requests it sends. -/
inductive Moved (provider : Provider) (requests : Nat) (state next : LoopState) : Prop
  | ended (finished : next.result ≠ none) (same : SameRounds state next)
      (sent : next.dispatched.length ≤ state.dispatched.length + requests)
  | restarted (running : next.result = none) (inLoop : state.rounds < provider.maxSteps)
      (same : SameRounds state next) (room : state.chains < provider.policy.maxChains)
      (chains : next.chains = state.chains + 1)
      (sent : next.dispatched.length ≤ state.dispatched.length + requests)
  | round (external : Bool) (running : next.result = none)
      (inLoop : state.rounds < provider.maxSteps)
      (counted : SameRounds (state.countRound external) next) (chains : next.chains = state.chains)
      (sent : next.dispatched.length ≤ state.dispatched.length + requests)

theorem Steady.sameRounds (steady : Steady requests state next) : SameRounds state next :=
  { steady with }

theorem moved_finish {event : Event} {result : Result} (same : SameRounds state next)
    (sent : next.dispatched.length ≤ state.dispatched.length + requests) :
    Moved provider requests state (next.finish event result) :=
  .ended (by simp [LoopState.finish]) { same with } sent

section

variable (steady : Steady requests state middle)
include steady

theorem moved_restartOrEnd {why ending : String} (running : state.result = none)
    (inLoop : state.rounds < provider.maxSteps) (tracked : middle.run.isSome) :
    Moved provider requests state (provider.restartOrEnd world middle why ending) := by
  have sameChains := steady.run.chains
  rcases restartOrEnd_cases why ending tracked with
    ⟨_, room, run, event, chains, _, isNext⟩ | ⟨_, isEnd⟩
  · rw [isNext]
    exact .restarted (steady.result.trans running) inLoop
      { steady with } (sameChains ▸ room)
      (sameChains ▸ chains) steady.dispatched
  · rw [isEnd]
    exact moved_finish { steady with } steady.dispatched

theorem moved_failRound {tokens : Int} {fault : Fault}
    (running : state.result = none) (inLoop : state.rounds < provider.maxSteps) :
    Moved provider requests state (provider.failRound world middle tokens fault) := by
  unfold failRound
  split
  · next size =>
    simp only [Bool.and_eq_true] at size
    exact moved_restartOrEnd steady running inLoop size.1.1
  · exact moved_finish { steady with } steady.dispatched

theorem moved_takeResponse {response : Response}
    (running : state.result = none) (inLoop : state.rounds < provider.maxSteps) :
    Moved provider requests state (provider.takeResponse world middle response) := by
  have same : SameRounds state (middle.shown response) :=
    { steady with }
  rcases takeResponse_cases provider world middle response with
    ⟨fault, isEnd⟩ | isEnd | ⟨external, _, ⟨run, _, _, sameChains, _, rfl⟩, isRound⟩
  · rw [isEnd]
    exact moved_finish same steady.dispatched
  · rw [isEnd]
    exact moved_finish { same with } steady.dispatched
  · rw [isRound]
    refine .round external (steady.result.trans running) inLoop ⟨?_, ?_, ?_⟩ ?_ steady.dispatched
    · simp only [LoopState.countRound, same.rounds, same.localOnly]
    · simp only [LoopState.countRound, same.localOnly]
    · simp only [LoopState.countRound, same.localOnly, same.toolRounds]
    · rw [← steady.run.chains]
      exact SameChains.chains sameChains

end

theorem moved_conclude {answer : Except Fault Response} (same : SameRounds state middle)
    (sent : middle.dispatched.length ≤ state.dispatched.length + requests) :
    Moved provider requests state (provider.conclude world (middle, answer)) := by
  rcases conclude_cases provider world middle answer with
    ⟨fault, isEnd⟩ | ⟨message, isEnd⟩ | ⟨response, message, isEnd⟩
  all_goals
    rw [isEnd]
    exact moved_finish { same with } sent

theorem steady_rebuild (world : World) (state : LoopState) :
    SameRounds state (Provider.rebuild world state) ∧
      (Provider.rebuild world state).dispatched = state.dispatched := by
  unfold rebuild LoopState.freshMessages
  split <;> exact ⟨⟨rfl, rfl, rfl⟩, rfl⟩

theorem AdmittedSynthesis.sameRounds {admitted : LoopState} {tools : List ToolDefinition}
    (admits : AdmittedSynthesis provider request world state admitted tools) :
    SameRounds state admitted ∧ admitted.dispatched = state.dispatched := by
  cases admits with
  | unchecked _ | asIs _ _ => exact ⟨⟨rfl, rfl, rfl⟩, rfl⟩
  | rebuilt _ => exact steady_rebuild world state

theorem SameRounds.trans (first : SameRounds state middle) (second : SameRounds middle next) :
    SameRounds state next :=
  ⟨second.rounds.trans first.rounds, second.localOnly.trans first.localOnly,
    second.toolRounds.trans first.toolRounds⟩

theorem moved_of_stepped (stepped : Stepped provider request world state next)
    (running : state.result = none) :
    Moved provider (if state.rounds < provider.maxSteps then 2 else 4) state next := by
  cases stepped with
  | cancelled => exact moved_finish ⟨rfl, rfl, rfl⟩ (Nat.le_add_right _ _)
  | oversized inLoop tracked _ =>
    rw [if_pos inLoop]
    have steady : Steady 2 state state :=
      ⟨rfl, rfl, rfl, rfl, rfl, rfl, rfl, Nat.le_add_right _ _⟩
    exact moved_restartOrEnd steady running inLoop tracked
  | failed inLoop admits _ sends _ =>
    rw [if_pos inLoop]
    exact moved_failRound (admits.steady.trans sends.steady) running inLoop
  | answered inLoop admits sends =>
    rw [if_pos inLoop]
    exact moved_takeResponse (admits.steady.trans sends.steady) running inLoop
  | synthesized usedUp admits sends =>
    rw [if_neg usedUp]
    obtain ⟨same, isSent⟩ := admits.sameRounds
    have bound := sends.steady.dispatched
    refine moved_conclude (same.trans sends.steady.sameRounds) ?_
    rw [isSent] at bound
    simp only [length_cons, length_nil] at bound
    omega
  | @resynthesized sent _ _ usedUp _ _ sends sendsAgain =>
    rw [if_neg usedUp]
    obtain ⟨same, isSent⟩ := steady_rebuild world sent
    have first := sends.steady.dispatched
    have second := sendsAgain.steady.dispatched
    refine moved_conclude
      ((sends.steady.sameRounds.trans same).trans sendsAgain.steady.sameRounds) ?_
    rw [isSent] at second
    simp only [length_cons, length_nil] at first second
    omega

/-- The iterations that the loop can still make. -/
def Provider.allowance (provider : Provider) (state : LoopState) : Nat :=
  9 * (provider.maxSteps - state.rounds) - state.localOnly +
    (provider.policy.maxChains - state.chains)

def Provider.mayStillSend (provider : Provider) (state : LoopState) : Nat :=
  if state.result.isSome then 0 else 2 * provider.allowance state + 4

/-- The rounds of tool calls and what they cost. -/
structure RoundsSound (provider : Provider) (state : LoopState) : Prop where
  few : state.localOnly ≤ 8
  limit : state.rounds ≤ provider.maxSteps
  charged : (state.toolRounds.filter fun round => round.charged).length = state.rounds
  external : ∀ round ∈ state.toolRounds, round.external = true → round.charged = true
  lastFree : ∀ free, free <:+ state.toolRounds → (∀ round ∈ free, round.charged = false) →
    free.length ≤ state.localOnly
  allFree : ∀ free, free <:+: state.toolRounds → (∀ round ∈ free, round.charged = false) →
    free.length ≤ 8

theorem countRound_cases (state : LoopState) (external : Bool) :
    ((state.countRound external).rounds = state.rounds + 1 ∧
        (state.countRound external).localOnly = 0 ∧
        (state.countRound external).toolRounds = state.toolRounds ++ [⟨external, true⟩]) ∨
      external = false ∧ state.localOnly + 1 ≤ 8 ∧
        (state.countRound external).rounds = state.rounds ∧
        (state.countRound external).localOnly = state.localOnly + 1 ∧
        (state.countRound external).toolRounds = state.toolRounds ++ [⟨false, false⟩] := by
  unfold LoopState.countRound
  cases external with
  | true => exact .inl ⟨rfl, rfl, rfl⟩
  | false =>
    simp only [Bool.false_or, decide_eq_true_eq]
    by_cases charge : state.localOnly + 1 > 8
    · rw [if_pos charge, if_pos charge, decide_eq_true charge]
      exact .inl ⟨rfl, rfl, rfl⟩
    · rw [if_neg charge, if_neg charge, decide_eq_false charge]
      exact .inr ⟨trivial, by omega, rfl, rfl, rfl⟩

section

variable (sound : RoundsSound provider state)
include sound

theorem RoundsSound.of_same (same : SameRounds state next) : RoundsSound provider next := by
  obtain ⟨rounds, localOnly, toolRounds⟩ := same
  constructor
  · exact localOnly ▸ sound.few
  · exact rounds ▸ sound.limit
  · rw [toolRounds, rounds]
    exact sound.charged
  · rw [toolRounds]
    exact sound.external
  · rw [toolRounds, localOnly]
    exact sound.lastFree
  · rw [toolRounds]
    exact sound.allFree

/-- One more round keeps the bounds when it keeps those of the free rounds at the end. -/
theorem RoundsSound.concat {round : ToolRound}
    (toolRounds : next.toolRounds = state.toolRounds ++ [round])
    (rounds : next.rounds = state.rounds + if round.charged then 1 else 0)
    (few : next.localOnly ≤ 8) (limit : next.rounds ≤ provider.maxSteps)
    (external : round.external = true → round.charged = true)
    (last : ∀ free, free <:+ state.toolRounds ++ [round] →
      (∀ round ∈ free, round.charged = false) → free.length ≤ next.localOnly) :
    RoundsSound provider next := by
  refine ⟨few, limit, ?_, ?_, toolRounds ▸ last, ?_⟩
  · rw [toolRounds, rounds, filter_append, length_append, sound.charged]
    cases charged : round.charged <;> simp [charged]
  · rw [toolRounds]
    intro other isOther isExternal
    rcases mem_append.mp isOther with earlier | isLast
    · exact sound.external other earlier isExternal
    · exact mem_singleton.mp isLast ▸ external (mem_singleton.mp isLast ▸ isExternal)
  · rw [toolRounds]
    intro free isInfix uncharged
    rcases infix_concat_iff.mp isInfix with isSuffix | earlier
    · exact Nat.le_trans (last free isSuffix uncharged) few
    · exact sound.allFree free earlier uncharged

theorem RoundsSound.countRound (external : Bool) (inLoop : state.rounds < provider.maxSteps) :
    RoundsSound provider (state.countRound external) := by
  rcases countRound_cases state external with
    ⟨rounds, localOnly, toolRounds⟩ | ⟨isLocal, few, rounds, localOnly, toolRounds⟩
  · refine sound.concat toolRounds rounds (by omega) (by omega) (fun _ => rfl) ?_
    intro free isSuffix uncharged
    rcases suffix_concat_iff.mp isSuffix with rfl | ⟨before, rfl, _⟩
    · exact Nat.zero_le _
    · exact absurd (uncharged ⟨external, true⟩ (by simp)) (by simp)
  · refine sound.concat toolRounds rounds (by omega) (rounds ▸ sound.limit) nofun ?_
    intro free isSuffix uncharged
    rcases suffix_concat_iff.mp isSuffix with rfl | ⟨before, rfl, isEarlier⟩
    · exact Nat.zero_le _
    · have bound := sound.lastFree before isEarlier fun round isRound =>
        uncharged round (mem_append_left _ isRound)
      rw [length_append, localOnly]
      exact Nat.succ_le_succ bound

theorem roundsSound_moved
    (moved : Moved provider requests state next) : RoundsSound provider next := by
  cases moved with
  | ended _ same _ | restarted _ _ same _ _ _ => exact sound.of_same same
  | round external _ inLoop counted _ _ => exact (sound.countRound external inLoop).of_same counted

theorem allowance_moved (moved : Moved provider requests state next)
    (running : next.result = none) : provider.allowance next < provider.allowance state := by
  have few := sound.few
  cases moved with
  | ended finished _ _ => exact absurd running finished
  | restarted _ _ same room chains _ =>
    simp only [allowance, same.rounds, same.localOnly, chains]
    omega
  | round external _ inLoop counted chains _ =>
    simp only [allowance, counted.rounds, counted.localOnly, chains]
    rcases countRound_cases state external with
      ⟨rounds, localOnly, _⟩ | ⟨_, free, rounds, localOnly, _⟩
    all_goals
      rw [rounds, localOnly]
      omega

theorem sent_moved (running : state.result = none)
    (moved : Moved provider (if state.rounds < provider.maxSteps then 2 else 4) state next) :
    next.dispatched.length + provider.mayStillSend next ≤
      state.dispatched.length + provider.mayStillSend state := by
  have few := sound.few
  have before : provider.mayStillSend state = 2 * provider.allowance state + 4 := by
    simp [mayStillSend, running]
  by_cases finished : next.result.isSome = true
  · have after : provider.mayStillSend next = 0 := by simp [mayStillSend, finished]
    have sent : next.dispatched.length ≤
        state.dispatched.length + if state.rounds < provider.maxSteps then 2 else 4 := by
      cases moved <;> assumption
    by_cases inLoop : state.rounds < provider.maxSteps
    · rw [if_pos inLoop] at sent
      omega
    · rw [if_neg inLoop] at sent
      omega
  · have running : next.result = none := by simpa using finished
    have after : provider.mayStillSend next = 2 * provider.allowance next + 4 := by
      simp [mayStillSend, running]
    have lower := allowance_moved sound moved running
    cases moved with
    | ended finished _ _ => exact absurd running finished
    | restarted _ inLoop same room chains sent | round external _ inLoop counted chains sent =>
      rw [if_pos inLoop] at sent
      omega

end

theorem start_counters (provider : Provider) (request : RunRequest) (world : World)
    (stored : Option HandoverData) : (provider.start request world stored).result = none ∧
    (provider.start request world stored).rounds = 0 ∧
    (provider.start request world stored).localOnly = 0 ∧
    (provider.start request world stored).toolRounds = [] ∧
    (provider.start request world stored).dispatched = [] := by
  rcases start_cases provider request world stored with
    ⟨_, isStart⟩ | ⟨_, _, isStart⟩ | ⟨_, _, _, _, _, _, _, isStart⟩ <;>
  · rw [isStart]
    exact ⟨rfl, rfl, rfl, rfl, rfl⟩

theorem roundsSound_start (provider : Provider) (request : RunRequest) (world : World)
    (stored : Option HandoverData) :
    RoundsSound provider (provider.start request world stored) := by
  obtain ⟨_, rounds, localOnly, toolRounds, _⟩ := start_counters provider request world stored
  constructor
  · rw [localOnly]
    exact Nat.zero_le 8
  · rw [rounds]
    exact Nat.zero_le _
  · rw [toolRounds, rounds]
    rfl
  · rw [toolRounds]
    exact fun _ isRound => absurd isRound not_mem_nil
  · rw [toolRounds]
    intro free isSuffix _
    rw [suffix_nil.mp isSuffix]
    exact Nat.zero_le _
  · rw [toolRounds]
    intro free isInfix _
    rw [infix_nil.mp isInfix]
    exact Nat.zero_le 8

variable {stored : Option HandoverData} {opening : World}

theorem bounds_reachable (reachable : Reachable (provider.step request) anyStep
      (provider.start request opening stored) state) :
    RoundsSound provider state ∧ state.dispatched.length + provider.mayStillSend state ≤
      2 * (9 * provider.maxSteps + provider.policy.maxChains) + 4 := by
  apply reachable.invariant
  · obtain ⟨result, rounds, localOnly, _, dispatched⟩ :=
      start_counters provider request opening stored
    refine ⟨roundsSound_start provider request opening stored, ?_⟩
    simp only [mayStillSend, allowance, result, rounds, localOnly, dispatched,
      Option.isSome_none, Bool.false_eq_true, if_false, length_nil]
    omega
  · intro state world next known _ taken
    obtain ⟨running, stepped⟩ := stepped_of_step taken
    have moved := moved_of_stepped stepped running
    exact ⟨roundsSound_moved known.1 moved, Nat.le_trans (sent_moved known.1 running moved) known.2⟩

/-- A bound on the steps that the loop can still take. -/
def Provider.stepsLeft (provider : Provider) (state : LoopState) : Nat :=
  if state.result.isSome then 0 else provider.allowance state + 1

theorem stepsLeft_lowers
    {state next : LoopState} {world : World} (reachable : Reachable (provider.step request) anyStep
      (provider.start request opening stored) state)
    (_ : anyStep state world) (taken : provider.step request state world = some next) :
    provider.stepsLeft next < provider.stepsLeft state := by
  obtain ⟨running, stepped⟩ := stepped_of_step taken
  have moved := moved_of_stepped stepped running
  simp only [stepsLeft, running, Option.isSome_none, Bool.false_eq_true, if_false]
  split
  · exact Nat.succ_pos _
  · next unfinished =>
    have lower := allowance_moved (bounds_reachable reachable).1 moved (by simpa using unfinished)
    omega

theorem result_of_stop {state : LoopState} {world : World}
    (stops : provider.step request state world = none) : state.result.isSome := by
  unfold step at stops
  split at stops
  · next isResult => simp [isResult]
  · cases stops

/-- The loop makes a bounded number of completions and returns, whatever the endpoint
and the tools do; a round with a call to another tool than the handover's is charged,
and of the others at most eight in a row are not. -/
theorem tool_loop_bounded (provider : Provider) (request : RunRequest) (opening : World)
    (stored : Option HandoverData) :
    (∀ state, Reachable (provider.step request) anyStep (provider.start request opening stored)
        state →
      state.dispatched.length ≤ 2 * (9 * provider.maxSteps + provider.policy.maxChains) + 4 ∧
      (state.toolRounds.filter fun round => round.charged).length ≤ provider.maxSteps ∧
      (∀ round ∈ state.toolRounds, round.external = true → round.charged = true) ∧
      ∀ free, free <:+: state.toolRounds → (∀ round ∈ free, round.charged = false) →
        free.length ≤ 8) ∧
    ∀ worlds : Nat → World, ∃ steps final,
      run (provider.step request) anyStep (provider.start request opening stored)
        ((List.range steps).map worlds) = some final ∧ final.result.isSome = true := by
  constructor
  · intro state reachable
    obtain ⟨sound, bound⟩ := bounds_reachable reachable
    exact ⟨by omega, sound.charged ▸ sound.limit, sound.external, sound.allFree⟩
  · intro worlds
    obtain ⟨steps, final, runs, stops⟩ :=
      exists_stop_of_stream provider.stepsLeft stepsLeft_lowers worlds fun _ _ => trivial
    exact ⟨steps, final, runs, result_of_stop stops⟩

end OpenExec.Execution
