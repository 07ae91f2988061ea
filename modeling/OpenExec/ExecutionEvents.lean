import OpenExec.Executions

/-!
# The events of an execution

An execution that has started sends one last event that says how it ended, and only its
usage after that.
-/

namespace OpenExec.Execution

open Agent GuardedRuns List String

variable {events first second : List Event} {outcome : Outcome} {event : Event} {spoken : Spoken}

def EventType.isTerminal : EventType → Bool
  | .failed | .cancelled | .completed | .inconclusive => true
  | _ => false

def Outcome.eventType : Outcome → EventType
  | .succeeded => .completed
  | .failed => .failed
  | .cancelled => .cancelled
  | .inconclusive => .inconclusive

def textOf (type : EventType) (events : List Event) : String :=
  String.join ((events.filter fun event => event.type = type).map (·.text))

/-- Every proposal of a call is followed by its start and its completion. -/
def CallsPaired (events : List Event) : Prop :=
  ∀ before proposed after, events = before ++ proposed :: after → proposed.type = .toolProposed →
    ∃ started completed rest, after = started :: completed :: rest ∧
      started.type = .toolStarted ∧ started.callID = proposed.callID ∧
      completed.type = .toolCompleted ∧ completed.callID = proposed.callID

def EndsWith (outcome : Outcome) (events : List Event) : Prop :=
  ∃ before last after, events = before ++ last :: after ∧ last.type = outcome.eventType ∧
    (∀ event ∈ before, event.type.isTerminal = false) ∧ ∀ event ∈ after, event.type = .usage

structure Protocol (events : List Event) (outcome : Outcome) (finalText : String) : Prop where
  ends : EndsWith outcome events
  calls : CallsPaired events
  text : finalText = textOf .assistantDelta events ++ textOf .inconclusive events

theorem textOf_append (type : EventType) (first second : List Event) :
    textOf type (first ++ second) = textOf type first ++ textOf type second := by
  simp [textOf, join_append]

theorem textOf_none {type : EventType} (none : ∀ event ∈ events, event.type ≠ type) :
    textOf type events = "" := by
  have empty : events.filter (fun event => event.type = type) = [] := by
    simpa [filter_eq_nil_iff] using none
  simp [textOf, empty, String.join]

theorem callsPaired_append (before : CallsPaired first) (after : CallsPaired second) :
    CallsPaired (first ++ second) := by
  intro earlier proposed later split isProposed
  rcases append_eq_append_iff.mp split with
    ⟨middle, isEarlier, isSecond⟩ | ⟨middle, isFirst, isLater⟩
  · exact after middle proposed later isSecond isProposed
  · cases middle with
    | nil => exact after [] proposed later isLater.symm isProposed
    | cons head middle =>
      obtain ⟨rfl, rfl⟩ := cons.inj isLater
      obtain ⟨started, completed, rest, rfl, same⟩ :=
        before earlier proposed middle isFirst isProposed
      exact ⟨started, completed, rest ++ second, rfl, same⟩

theorem callsPaired_of_none (none : ∀ event ∈ events, event.type ≠ .toolProposed) :
    CallsPaired events := by
  rintro before proposed after rfl isProposed
  exact absurd isProposed (none proposed (by simp))

theorem callsPaired_call {proposed started completed : Event}
    (isStarted : started.type = .toolStarted) (isCompleted : completed.type = .toolCompleted)
    (sameStarted : started.callID = proposed.callID)
    (sameCompleted : completed.callID = proposed.callID) :
    CallsPaired [proposed, started, completed] := by
  intro before event after split isProposed
  rcases cons_eq_append_iff.mp split with ⟨rfl, isHead⟩ | ⟨before, rfl, isTail⟩
  · obtain ⟨rfl, rfl⟩ := cons.inj isHead
    exact ⟨started, completed, [], rfl, isStarted, sameStarted, isCompleted, sameCompleted⟩
  · have member : event ∈ [started, completed] := by
      rw [isTail]
      simp
    simp only [mem_cons, not_mem_nil, or_false] at member
    rcases member with rfl | rfl
    · simp [isStarted] at isProposed
    · simp [isCompleted] at isProposed

theorem callsPaired_of_calls (calls : CallEvents events) : CallsPaired events := by
  induction calls with
  | nil => exact callsPaired_of_none fun _ isEvent => absurd isEvent not_mem_nil
  | cons _ isStarted isCompleted sameStarted sameCompleted _ ih =>
    exact callsPaired_append
      (callsPaired_call isStarted isCompleted sameStarted sameCompleted) ih

theorem CallEvents.types (calls : CallEvents events) : ∀ event ∈ events, event.type =
    .toolProposed ∨ event.type = .toolStarted ∨ event.type = .toolCompleted := by
  induction calls with
  | nil => exact fun _ isEvent => absurd isEvent not_mem_nil
  | cons isProposed isStarted isCompleted _ _ _ ih =>
    intro event isEvent
    simp only [mem_cons] at isEvent
    rcases isEvent with rfl | rfl | rfl | later
    · exact .inl isProposed
    · exact .inr (.inl isStarted)
    · exact .inr (.inr isCompleted)
    · exact ih event later

structure Goes (events : List Event) (text : String) : Prop where
  quiet : ∀ event ∈ events, event.type.isTerminal = false
  calls : CallsPaired events
  text : text = textOf .assistantDelta events

theorem Goes.append {early late : String} (before : Goes first early) (after : Goes second late) :
    Goes (first ++ second) (early ++ late) where
  quiet := by
    intro event isEvent
    exact (mem_append.mp isEvent).elim (before.quiet event) (after.quiet event)
  calls := callsPaired_append before.calls after.calls
  text := by rw [textOf_append, before.text, after.text]

theorem goes_of_silent {events : List Event}
    (silent : ∀ event ∈ events,
      event.type = .usage ∨ event.type = .started ∨ event.type = .checkpoint) :
    Goes events "" where
  quiet := by
    intro event isEvent
    rcases silent event isEvent with type | type | type <;> rw [type] <;> rfl
  calls := callsPaired_of_none fun event isEvent => by
    rcases silent event isEvent with type | type | type <;> simp [type]
  text := by
    refine (textOf_none fun event isEvent => ?_).symm
    rcases silent event isEvent with type | type | type <;> simp [type]

theorem goes_of_calls (calls : CallEvents events) : Goes events "" where
  quiet := by
    intro event isEvent
    rcases calls.types event isEvent with type | type | type <;> rw [type] <;> rfl
  calls := callsPaired_of_calls calls
  text := by
    refine (textOf_none fun event isEvent => ?_).symm
    rcases calls.types event isEvent with type | type | type <;> simp [type]

theorem goes_of_deltas (texts : List String) :
    Goes (texts.map fun text => { type := .assistantDelta, text := text }) (String.join texts) where
  quiet := by
    intro event isEvent
    obtain ⟨text, _, rfl⟩ := mem_map.mp isEvent
    rfl
  calls := callsPaired_of_none fun event isEvent => by
    obtain ⟨text, _, rfl⟩ := mem_map.mp isEvent
    simp
  text := by
    simp [textOf, filter_map, Function.comp_def]

theorem Goes.closed {events : List Event} {text : String} {last : Event} {outcome : Outcome}
    (goes : Goes events text) (isLast : last.type = outcome.eventType) :
    Protocol (events ++ [last]) outcome
      (text ++ if outcome = .inconclusive then last.text else "") where
  ends := ⟨events, last, [], rfl, isLast, goes.quiet, fun _ isEvent => absurd isEvent
    List.not_mem_nil⟩
  calls := by
    refine callsPaired_append goes.calls (callsPaired_of_none fun event isEvent => ?_)
    rw [mem_singleton.mp isEvent, isLast]
    cases outcome <;> simp [Outcome.eventType]
  text := by
    have noReason : textOf .inconclusive events = "" := by
      refine textOf_none fun event isEvent isReason => ?_
      have quiet := goes.quiet event isEvent
      rw [isReason] at quiet
      exact absurd quiet (by decide)
    rw [textOf_append, textOf_append, noReason, ← goes.text]
    cases outcome <;> simp [textOf, isLast, Outcome.eventType, String.join]

theorem Protocol.usage {usage : List Event} {text : String}
    (protocol : Protocol events outcome text) (isUsage : ∀ event ∈ usage, event.type = .usage) :
    Protocol (events ++ usage) outcome text where
  ends := by
    obtain ⟨before, last, after, rfl, isLast, quiet, later⟩ := protocol.ends
    refine ⟨before, last, after ++ usage, by simp, isLast, quiet, fun event isEvent => ?_⟩
    exact (mem_append.mp isEvent).elim (later event) (isUsage event)
  calls := by
    refine callsPaired_append protocol.calls (callsPaired_of_none fun event isEvent => ?_)
    simp [isUsage event isEvent]
  text := by
    have shown : textOf .assistantDelta usage = "" :=
      textOf_none fun event isEvent => by simp [isUsage event isEvent]
    have why : textOf .inconclusive usage = "" :=
      textOf_none fun event isEvent => by simp [isUsage event isEvent]
    rw [textOf_append, textOf_append, shown, why, protocol.text]
    simp

variable {provider : Provider} {request : RunRequest} {world : World} {state next : LoopState}

def LoopState.Goes (state : LoopState) : Prop := Execution.Goes state.events state.finalText

def LoopState.Ends (state : LoopState) : Prop :=
  ∃ result, state.result = some result ∧ Protocol state.events result.outcome state.finalText

section

variable (goes : state.Goes)
include goes

theorem LoopState.Goes.emit (isCheckpoint : event.type = .checkpoint) :
    (state.emit event).Goes := by
  have more := Execution.Goes.append goes (@goes_of_silent [event] fun other isOther => by
    rw [mem_singleton.mp isOther]
    exact .inr (.inr isCheckpoint))
  rw [append_empty] at more
  exact more

theorem LoopState.Goes.sent {allowed : List Request}
    (sends : Sent allowed state next) : next.Goes := by
  obtain ⟨requests, usage, _, isUsage, rfl⟩ := sends
  have more := Execution.Goes.append goes
    (@goes_of_silent usage fun event isEvent => .inl (isUsage event isEvent))
  rw [append_empty] at more
  exact more

theorem LoopState.Goes.called (called : Called state next) : next.Goes := by
  obtain ⟨run, messages, events, _, calls, rfl⟩ := called
  have more := Execution.Goes.append goes (goes_of_calls calls)
  rw [append_empty] at more
  exact more

theorem LoopState.Goes.showTexts (response : Response) : (state.showTexts response).Goes :=
  Execution.Goes.append goes (goes_of_deltas (deltas response))

theorem LoopState.Goes.closeOut (world : World) : (state.closeOut world).Goes :=
  goes

theorem LoopState.Goes.rebuild (world : World) : (Provider.rebuild world state).Goes := by
  have fresh : (state.freshMessages world true).Goes := by
    unfold LoopState.freshMessages
    split
    · exact goes
    · exact goes
  exact fresh.emit rfl

theorem LoopState.Goes.admitted {admitted : LoopState}
    (admits : AdmittedRound provider request world state admitted) : admitted.Goes := by
  cases admits with
  | unchecked _ | asIs _ _ => exact goes
  | asked _ _ => exact LoopState.Goes.emit goes rfl

theorem LoopState.Goes.admittedSynthesis {admitted : LoopState} {tools : List ToolDefinition}
    (admits : AdmittedSynthesis provider request world state admitted tools) : admitted.Goes := by
  cases admits with
  | unchecked _ | asIs _ _ => exact goes
  | rebuilt _ => exact goes.rebuild world

theorem LoopState.Goes.fail (fault : Fault) : (state.fail fault).Ends := by
  have closed := @Execution.Goes.closed _ _ { type := .failed, text := fault.text } .failed goes rfl
  rw [if_neg (by simp), append_empty] at closed
  exact ⟨_, rfl, closed⟩

theorem LoopState.Goes.cancel (reason : String) : (state.cancel reason).Ends := by
  have closed := @Execution.Goes.closed _ _ { type := .cancelled } .cancelled goes rfl
  rw [if_neg (by simp), append_empty] at closed
  exact ⟨_, rfl, closed⟩

theorem LoopState.Goes.complete :
    (state.finish { type := .completed } { outcome := .succeeded }).Ends := by
  have closed := @Execution.Goes.closed _ _ { type := .completed } .succeeded goes rfl
  rw [if_neg (by simp), append_empty] at closed
  exact ⟨_, rfl, closed⟩

theorem LoopState.Goes.inconclusive (message : String) :
    (Provider.inconclusive state message).Ends := by
  have closed := @Execution.Goes.closed _ _
    { type := .inconclusive, text := message, reason := some .maxTurns } .inconclusive goes rfl
  exact ⟨_, rfl, closed⟩

theorem LoopState.Goes.endCheckpoint (world : World) (why : String) :
    (Provider.endCheckpoint world state why).Ends := by
  have closed := @Execution.Goes.closed _ _
    { type := .inconclusive
      text := "Context checkpoint (" ++ why ++ "). The handover is saved at " ++ world.path ++
        "; the next pass continues from it."
      reason := some .contextCheckpoint } .inconclusive goes rfl
  exact ⟨_, rfl, closed⟩

end

/-- Along a run: the loop goes on, or it has ended by the protocol. -/
structure Follows (state : LoopState) : Prop where
  goes : state.result = none → state.Goes
  ends : state.result ≠ none → state.Ends

theorem LoopState.Ends.follows (ends : state.Ends) : Follows state := by
  refine ⟨fun running => ?_, fun _ => ends⟩
  obtain ⟨result, isResult, _⟩ := ends
  rw [running] at isResult
  cases isResult

section

variable (goes : state.Goes)
include goes

theorem LoopState.Goes.follows (running : state.result = none) : Follows state :=
  ⟨fun _ => goes, fun ended => absurd running ended⟩

theorem follows_restartOrEnd (running : state.result = none) (tracked : state.run.isSome)
    (why ending : String) : Follows (provider.restartOrEnd world state why ending) := by
  rcases @restartOrEnd_cases provider world state why ending tracked with
    ⟨_, _, run, event, _, isCheckpoint, isNext⟩ | ⟨_, isEnd⟩
  · rw [isNext]
    have more := goes.emit isCheckpoint
    exact LoopState.Goes.follows more running
  · rw [isEnd]
    exact (goes.endCheckpoint world ending).follows

theorem follows_takeResponse (running : state.result = none)
    (response : Response) : Follows (provider.takeResponse world state response) := by
  have shown : (state.shown response).Goes := LoopState.Goes.showTexts goes response
  rcases takeResponse_cases provider world state response with
    ⟨fault, isEnd⟩ | isEnd | ⟨external, called, isCalled, isRound⟩
  · rw [isEnd]
    exact (shown.fail fault).follows
  · rw [isEnd]
    exact (shown.closeOut world).complete.follows
  · rw [isRound]
    have more := shown.called isCalled
    obtain ⟨_, _, _, _, _, rfl⟩ := isCalled
    exact LoopState.Goes.follows more running

theorem ends_conclude (answer : Except Fault Response) :
    (provider.conclude world (state, answer)).Ends := by
  rcases conclude_cases provider world state answer with
    ⟨fault, isEnd⟩ | ⟨message, isEnd⟩ | ⟨response, message, isEnd⟩
  · rw [isEnd]
    exact goes.fail fault
  · rw [isEnd]
    exact (goes.closeOut world).inconclusive message
  · rw [isEnd]
    exact ((goes.showTexts response).closeOut world).inconclusive message

theorem follows_stepped (running : state.result = none)
    (stepped : Stepped provider request world state next) : Follows next := by
  cases stepped with
  | @cancelled reason => exact (goes.cancel reason).follows
  | oversized _ tracked _ => exact follows_restartOrEnd goes running tracked _ _
  | @failed admitted sent tokens fault _ admits _ sends =>
    have sentGoes := (goes.admitted admits).sent sends
    have steady := admits.steady.trans sends.steady
    unfold Provider.failRound
    split
    · next size =>
      simp only [Bool.and_eq_true] at size
      exact follows_restartOrEnd sentGoes (steady.result.trans running) size.1.1 _ _
    · exact (sentGoes.fail fault).follows
  | answered _ admits sends =>
    have steady := admits.steady.trans sends.steady
    exact follows_takeResponse ((goes.admitted admits).sent sends)
      (steady.result.trans running) _
  | synthesized _ admits sends =>
    exact (ends_conclude ((goes.admittedSynthesis admits).sent sends) _).follows
  | resynthesized _ _ _ sends sendsAgain =>
    exact (ends_conclude (((goes.sent sends).rebuild world).sent sendsAgain) _).follows

end

theorem goes_start (provider : Provider) (request : RunRequest) (world : World)
    (stored : Option HandoverData) : (provider.start request world stored).Goes := by
  have started : Goes [{ type := .started }] "" :=
    goes_of_silent fun event isEvent => by
      rw [mem_singleton.mp isEvent]
      exact .inr (.inl rfl)
  rcases start_cases provider request world stored with
    ⟨_, isStart⟩ | ⟨_, _, isStart⟩ | ⟨_, _, event, _, _, _, isCheckpoint, isStart⟩
  · rw [isStart]
    exact started
  · rw [isStart]
    exact started
  · rw [isStart]
    refine goes_of_silent fun other isOther => ?_
    simp only [mem_cons, not_mem_nil, or_false] at isOther
    rcases isOther with rfl | rfl
    · exact .inr (.inl rfl)
    · exact .inr (.inr isCheckpoint)

theorem follows_reachable {opening : World} {stored : Option HandoverData}
    (reachable : Reachable (provider.step request) anyStep
      (provider.start request opening stored) state) : Follows state := by
  apply reachable.invariant
  · exact (goes_start provider request opening stored).follows
      (start_counters provider request opening stored).1
  · intro state world next known _ taken
    obtain ⟨running, stepped⟩ := stepped_of_step taken
    exact follows_stepped (known.goes running) running stepped

def Ran.Follows (ran : Ran) : Prop :=
  ∃ outcome, ran.outcome = some outcome ∧ Protocol ran.events outcome ran.finalText

theorem follows_runToolLoop (provider : Provider) (request : RunRequest) (around : Surroundings) :
    (provider.runToolLoop request around).Follows := by
  obtain ⟨state, result, reachable, isResult, isRan⟩ :=
    runToolLoop_ends provider request around
  obtain ⟨ended, isEnded, protocol⟩ := (follows_reachable reachable).ends (by simp [isResult])
  rw [isRan]
  refine ⟨ended.outcome, ?_, protocol⟩
  simp [LoopState.ran, isEnded]

namespace Spoken

variable (goes : Execution.Goes spoken.events spoken.finalText)
include goes

theorem goes_read (events : List StreamEvent) :
    Execution.Goes (spoken.read events).1.events (spoken.read events).1.finalText := by
  induction events generalizing spoken with
  | nil => exact goes
  | cons event rest ih =>
    unfold read
    split
    · exact goes
    split
    · exact ih goes
    next text _ =>
    split
    · exact ih goes
    · have said := goes.append (goes_of_deltas [text])
      exact ih said

theorem follows_close (error : Option Fault) (isLast : event.type = outcome.eventType)
    (conclusive : outcome ≠ .inconclusive) : (spoken.close event outcome error).Follows := by
  have closed := goes.closed isLast
  rw [if_neg conclusive, append_empty] at closed
  exact ⟨outcome, rfl, closed⟩

theorem follows_finish (cancelled : Option String) : (spoken.finish cancelled).Follows := by
  unfold finish
  split
  · exact follows_close goes _ rfl (by simp)
  split <;> exact follows_close goes _ rfl (by simp)

end Spoken

theorem goes_openStream (isMetered : Bool) (around : Surroundings) :
    Goes (openStream isMetered around).1.events (openStream isMetered around).1.finalText := by
  unfold openStream
  simp only
  split
  · refine goes_of_silent fun event isEvent => ?_
    rcases mem_cons.mp isEvent with rfl | isUsage
    · exact .inr (.inl rfl)
    · split at isUsage
      · exact absurd isUsage not_mem_nil
      · rw [mem_singleton.mp isUsage]
        exact .inl rfl
  · refine goes_of_silent fun event isEvent => ?_
    rw [mem_singleton.mp isEvent]
    exact .inr (.inl rfl)

theorem follows_executeStream (isMetered : Bool) (around : Surroundings) :
    (executeStream isMetered around).Follows := by
  have opened := goes_openStream isMetered around
  unfold executeStream
  split
  · next spoken fault isOpened =>
    rw [isOpened] at opened
    exact Spoken.follows_close opened _ rfl (by simp)
  · next spoken events isOpened =>
    rw [isOpened] at opened
    have read := Spoken.goes_read opened events
    split
    · next isRead =>
      rw [isRead] at read
      exact Spoken.follows_close read _ rfl (by simp)
    · next isRead =>
      rw [isRead] at read
      exact Spoken.follows_finish read _

theorem follows_executeRun (provider : APIProvider) (request : ExecuteRequest)
    (around : Surroundings) (ceiling : Option Int) :
    (provider.executeRun request around ceiling).events = [] ∨
      (provider.executeRun request around ceiling).Follows := by
  unfold APIProvider.executeRun
  split
  · exact .inl rfl
  split
  · exact .inr (follows_executeStream _ _)
  · exact .inr (follows_runToolLoop _ _ _)

theorem Ran.Follows.settle {ran : Ran} (follows : ran.Follows) (around : Surroundings) :
    (APIProvider.settle around ran).Follows := by
  obtain ⟨outcome, isOutcome, protocol⟩ := follows
  refine ⟨outcome, isOutcome, protocol.usage fun event isEvent => ?_⟩
  rw [mem_singleton.mp isEvent]

/-- An execution that has started sends one last event that says how it ended, and only
usage after it; each of its tool calls is started and completed before the next is
proposed; and its final text is what it has shown and the reason of an inconclusive
end. -/
theorem execution_follows_protocol (provider : APIProvider) (request : ExecuteRequest)
    (around : Surroundings)
    (started : ∃ event ∈ (provider.execute request around).events, event.type = .started) :
    ∃ outcome, (provider.execute request around).outcome = some outcome ∧
      Protocol (provider.execute request around).events outcome
        (provider.execute request around).finalText := by
  unfold APIProvider.execute at started ⊢
  split at started
  · obtain ⟨event, isEvent, _⟩ := started
    exact absurd isEvent not_mem_nil
  split at started
  · next granted =>
    rw [if_pos granted]
    rcases follows_executeRun provider request around
      (some (APIProvider.contextCeiling request.contextTokenLimit)) with refused | follows
    · obtain ⟨event, isEvent, isStarted⟩ := started
      simp only [APIProvider.settle, refused, nil_append] at isEvent
      rw [mem_singleton.mp isEvent] at isStarted
      cases isStarted
    · exact follows.settle around
  · next ungranted =>
    rw [if_neg ungranted]
    rcases follows_executeRun provider request around none with refused | follows
    · obtain ⟨event, isEvent, _⟩ := started
      rw [refused] at isEvent
      exact absurd isEvent not_mem_nil
    · exact follows

def plainProvider : APIProvider where
  tools := []
  maxSteps := 160
  hasExecutor := false
  gateway := false
  supportsHardTokens := true
  supportsNativeNonThinking := false
  contextPolicy := fun _ => ⟨true, 0, 0, 0, 0, 0, 0⟩

def grantedRequest : ExecuteRequest where
  tokenBudget := 9000
  id := "1"
  workingDir := "/w"
  prompt := "Look."
  model := "m"
  sandboxMode := "read-only"

def unused : World where
  first := ⟨.ok none, none⟩
  second := ⟨.ok none, none⟩
  third := ⟨.ok none, none⟩
  fourth := ⟨.ok none, none⟩
  tool := fun _ => { output := "" }
  rendered := ""
  path := ""
  writable := false

def answered : Surroundings where
  stream := .ok []
  metered := .ok { content := [{ type := .text, text := "Seen." }], usage := ⟨5, 2⟩ }
  meteredUsage := some (5, 2)
  opening := unused
  worlds := fun _ => unused
  input := 5
  output := 2

theorem execution_follows_protocol_granted :
    (plainProvider.execute grantedRequest answered).events.map (·.type) =
        [.started, .usage, .assistantDelta, .completed, .usage] ∧
      ∃ outcome, (plainProvider.execute grantedRequest answered).outcome = some outcome ∧
        Protocol (plainProvider.execute grantedRequest answered).events outcome
          (plainProvider.execute grantedRequest answered).finalText := by
  have events : (plainProvider.execute grantedRequest answered).events.map (·.type) =
      [.started, .usage, .assistantDelta, .completed, .usage] := by
    decide +kernel
  refine ⟨events, execution_follows_protocol plainProvider grantedRequest answered ?_⟩
  have member : EventType.started ∈
      (plainProvider.execute grantedRequest answered).events.map (·.type) := by
    exact mem_cons_self
  exact mem_map.mp member

end OpenExec.Execution
