import OpenExec.BlueprintAccounting
import OpenExec.GoStrings

/-!
# The authority to repair

A failed run may create repair work only on a receipt of the checks that failed.
-/

namespace OpenExec.RepairAuthority

open BlueprintEngine GuardedRuns Option

structure CheckFailure where
  gate : String
  exitCode : Int
  command : String := ""
  output : String := ""
  deriving DecidableEq

/-- What an artifact's text can be: the JSON of failed checks, the SHA-256 of a
text, or anything else. -/
inductive Text
  | checks (failures : List CheckFailure)
  | digest (payload : Text)
  | other (text : String)
  deriving DecidableEq

abbrev Artifacts := String → Option Text

def noArtifacts : Artifacts := fun _ => none

def verificationFailureReceiptKey := "verification_failure_receipt"

def verificationFailureDigestKey := "verification_failure_digest"

def CheckFailure.accepted (check : CheckFailure) : Bool :=
  GoStrings.trimSpace check.gate ≠ "" && 0 < check.exitCode && check.exitCode < 126

def validateVerificationFailureArtifacts (artifacts : Artifacts) : Bool :=
  match artifacts verificationFailureReceiptKey with
  | some (.checks failures) =>
    artifacts verificationFailureDigestKey = some (.digest (.checks failures)) &&
      !failures.isEmpty && failures.all CheckFailure.accepted
  | _ => false

/-- The failed checks found in the error of a trusted check, all of them with a
normal exit, and the references to their private evidence. -/
structure Classification where
  checks : List CheckFailure
  references : Artifacts
  nonempty : checks ≠ []
  exits : ∀ check ∈ checks, 0 < check.exitCode ∧ check.exitCode < 126

def Classification.Named (classification : Classification) : Prop :=
  ∀ check ∈ classification.checks, GoStrings.trimSpace check.gate ≠ ""

def verificationFailureArtifacts : Option Classification → Artifacts
  | none => noArtifacts
  | some classification => fun key =>
    if key = verificationFailureDigestKey then some (.digest (.checks classification.checks))
    else if key = verificationFailureReceiptKey then some (.checks classification.checks)
    else classification.references key

/-- One execution of a stage: the worker's artifacts, and the classification of
the trusted check that ended it, if one did. -/
structure StageRun where
  answer : Answer
  artifacts : Artifacts := noArtifacts
  trusted : Option Classification := none

/-- The engine with the artifacts of the last result, the receipt of the gate
action and the last execution. -/
structure Pipeline where
  account : Account
  artifacts : Artifacts
  receipt : Artifacts
  last : Option (ExecutedStage × StageRun)

def start (blueprint : Blueprint) (runID : String) : Pipeline where
  account := opened blueprint runID
  artifacts := noArtifacts
  receipt := noArtifacts
  last := none

/-- A round of the engine.  `OnStageStart` looks the stage up under its name, and
the process ends there if no stage has it. -/
def step (blueprint : Blueprint) (pipeline : Pipeline) (ran : StageRun) : Option Pipeline :=
  (round blueprint defaultEngineConfig pipeline.account ran.answer).bind fun account =>
    if account.executed.length = pipeline.account.executed.length then
      some { pipeline with account := account }
    else
      account.executed.getLast?.bind fun executed =>
        (blueprint.getStage executed.stage.name).map fun _ =>
          { account := account
            artifacts := ran.artifacts
            receipt := verificationFailureArtifacts ran.trusted
            last := some (executed, ran) }

variable (blueprint : Blueprint) (deterministic : String → Bool) (live recaptured : Bool)
  (pipeline : Pipeline)

/-- The receipt, if the stage stored under the name of the last result is
deterministic and that result failed. -/
def terminalEvidence : Artifacts :=
  match pipeline.account.execution.run.results.getLast? with
  | none => noArtifacts
  | some last =>
    if validateVerificationFailureArtifacts pipeline.receipt ∧
        (blueprint.getStage last.stageName).isSome ∧ deterministic last.stageName ∧
        last.status = .failed then
      pipeline.receipt
    else noArtifacts

def failureArtifacts : Artifacts := fun key =>
  if recaptured ∧ key = "recapture_definition" then some (.other "current-check-definition")
  else
    match (if live then terminalEvidence blueprint deterministic pipeline else noArtifacts) key with
    | some text => some text
    | none =>
      if key = verificationFailureReceiptKey ∨ key = verificationFailureDigestKey then none
      else pipeline.artifacts key

def blueprintFailed : Option Artifacts :=
  match pipeline.account.execution.returned with
  | none | some .ok => none
  | _ => some (failureArtifacts blueprint deterministic live recaptured pipeline)

/-- The stage executed last failed, and a trusted check was classified then. -/
def Pipeline.FailedCheck (executed : ExecutedStage) (classification : Classification) : Prop :=
  ∃ ran, pipeline.last = some (executed, ran) ∧ executed.result.status = .failed ∧
    ran.trusted = some classification ∧ classification.Named

/-- The stage stored under the name that a result carries is deterministic. -/
def Marked (executed : ExecutedStage) : Prop :=
  (blueprint.getStage executed.result.stageName).isSome = true ∧
    deterministic executed.result.stageName = true

/-- Artifacts are accepted exactly for a check failure of a deterministic stage
that was executed last, and then are that failure's. -/
structure Authentic (event : Artifacts) : Prop where
  accepted : validateVerificationFailureArtifacts event = true ↔ live = true ∧
    ∃ executed classification, pipeline.FailedCheck executed classification ∧
      deterministic executed.key = true
  exact : validateVerificationFailureArtifacts event = true →
    ∃ executed classification, pipeline.FailedCheck executed classification ∧
      event verificationFailureReceiptKey = some (.checks classification.checks)

variable {blueprint deterministic live recaptured pipeline} {next : Pipeline} {ran : StageRun}
  {runID : String} {event first second : Artifacts} {classification : Classification}

theorem validate_congr
    (receipt : first verificationFailureReceiptKey = second verificationFailureReceiptKey)
    (digest : first verificationFailureDigestKey = second verificationFailureDigestKey) :
    validateVerificationFailureArtifacts first = validateVerificationFailureArtifacts second := by
  unfold validateVerificationFailureArtifacts
  rw [receipt, digest]

theorem validate_classified :
    validateVerificationFailureArtifacts (verificationFailureArtifacts (some classification)) =
      true ↔ classification.Named := by
  have different : verificationFailureReceiptKey ≠ verificationFailureDigestKey := by decide
  simp only [validateVerificationFailureArtifacts, verificationFailureArtifacts, different,
    if_true, if_false, decide_true, Bool.true_and, Bool.and_eq_true, Bool.not_eq_true',
    List.isEmpty_eq_false_iff, List.all_eq_true, Classification.Named]
  constructor
  · rintro ⟨_, accepted⟩ check member
    have := accepted check member
    simp only [CheckFailure.accepted, Bool.and_eq_true, decide_eq_true_eq] at this
    exact this.1.1
  · intro named
    refine ⟨classification.nonempty, fun check member => ?_⟩
    simp [CheckFailure.accepted, named check member, classification.exits check member]

theorem Pipeline.FailedCheck.executed_eq {executed other : ExecutedStage}
    {second : Classification} (failed : pipeline.FailedCheck executed classification)
    (otherFailed : pipeline.FailedCheck other second) : executed = other := by
  obtain ⟨_, isLast, _⟩ := failed
  obtain ⟨_, otherLast, _⟩ := otherFailed
  cases isLast.symm.trans otherLast
  rfl

structure Captured (blueprint : Blueprint) (pipeline : Pipeline) : Prop where
  accounted : Accounted blueprint defaultEngineConfig pipeline.account
  last : pipeline.last.map Prod.fst = pipeline.account.executed.getLast?
  receipt : pipeline.receipt =
    verificationFailureArtifacts (pipeline.last.bind fun last => last.2.trusted)

theorem executed_of_round {config : EngineConfig} {account after : Account} {answer : Answer}
    (taken : Round blueprint config account answer after)
    (same : after.executed.length = account.executed.length) :
    after.executed = account.executed := by
  cases taken <;> simp_all

theorem Captured.step (captured : Captured blueprint pipeline)
    (taken : step blueprint pipeline ran = some next) : Captured blueprint next := by
  obtain ⟨account, round, taken⟩ := bind_eq_some_iff.mp taken
  have accounted := captured.accounted.round (round_spec round)
  split at taken
  · next same =>
    cases taken
    refine ⟨accounted, ?_, captured.receipt⟩
    rw [executed_of_round (round_spec round) same]
    exact captured.last
  · obtain ⟨executed, isLast, taken⟩ := bind_eq_some_iff.mp taken
    obtain ⟨_, _, rfl⟩ := map_eq_some_iff.mp taken
    exact ⟨accounted, isLast.symm, rfl⟩

theorem captured_of_reachable
    (reached : Reachable (step blueprint) anyStep (start blueprint runID) pipeline) :
    Captured blueprint pipeline :=
  reached.invariant ⟨accounted_opened, rfl, rfl⟩ fun captured _ taken => captured.step taken

theorem terminalEvidence_cases (captured : Captured blueprint pipeline) :
    (∃ executed classification, pipeline.FailedCheck executed classification ∧
        Marked blueprint deterministic executed ∧
        terminalEvidence blueprint deterministic pipeline =
          verificationFailureArtifacts (some classification)) ∨
      terminalEvidence blueprint deterministic pipeline = noArtifacts ∧
        ∀ executed classification, pipeline.FailedCheck executed classification →
          ¬ Marked blueprint deterministic executed := by
  have results : pipeline.account.execution.run.results.getLast? =
      pipeline.last.map fun last => last.1.result := by
    rw [captured.accounted.results, List.getLast?_map, ← captured.last, map_map]
    rfl
  have receipt := captured.receipt
  unfold terminalEvidence
  rw [results]
  cases isLast : pipeline.last with
  | none => exact .inr ⟨rfl, fun executed _ ⟨_, found, _⟩ => by simp [isLast] at found⟩
  | some last =>
    obtain ⟨executed, ran⟩ := last
    rw [isLast] at receipt
    simp only [map_some]
    split
    · next holds =>
      obtain ⟨valid, found, isDeterministic, failed⟩ := holds
      cases trusted : ran.trusted with
      | none =>
        rw [receipt, bind_some, trusted] at valid
        cases valid
      | some classification =>
        rw [bind_some, trusted] at receipt
        rw [receipt] at valid
        exact .inl ⟨executed, classification, ⟨ran, isLast, failed, trusted,
          validate_classified.mp valid⟩, ⟨found, isDeterministic⟩, receipt⟩
    · next refused =>
      refine .inr ⟨rfl, ?_⟩
      rintro _ classification ⟨_, isLast', failed, trusted, named⟩ ⟨found, isDeterministic⟩
      cases isLast.symm.trans isLast'
      rw [bind_some, trusted] at receipt
      exact refused ⟨receipt ▸ validate_classified.mpr named, found, isDeterministic, failed⟩

theorem failureArtifacts_apply {key : String}
    (isKey : key = verificationFailureReceiptKey ∨ key = verificationFailureDigestKey) :
    failureArtifacts blueprint deterministic live recaptured pipeline key =
      (if live then terminalEvidence blueprint deterministic pipeline else noArtifacts) key := by
  have other : key ≠ "recapture_definition" := by
    rcases isKey with rfl | rfl <;> decide
  unfold failureArtifacts
  rw [if_neg fun holds => other holds.2]
  split
  · next found => exact found.symm
  · next absent => rw [if_pos isKey, absent]

theorem Captured.event_cases (captured : Captured blueprint pipeline)
    (emitted : blueprintFailed blueprint deterministic live recaptured pipeline = some event) :
    (live = true ∧ ∃ executed classification, pipeline.FailedCheck executed classification ∧
        Marked blueprint deterministic executed ∧
        validateVerificationFailureArtifacts event = true ∧
        event verificationFailureReceiptKey = some (.checks classification.checks)) ∨
      validateVerificationFailureArtifacts event = false ∧ ∀ executed classification, live = true →
          pipeline.FailedCheck executed classification →
          ¬ Marked blueprint deterministic executed := by
  obtain rfl : failureArtifacts blueprint deterministic live recaptured pipeline = event := by
    unfold blueprintFailed at emitted
    split at emitted
    · cases emitted
    · cases emitted
    · exact Option.some.inj emitted
  rw [failureArtifacts_apply (.inl rfl),
    validate_congr (failureArtifacts_apply (.inl rfl)) (failureArtifacts_apply (.inr rfl))]
  cases live with
  | false => exact .inr ⟨rfl, fun _ _ isLive => by cases isLive⟩
  | true =>
    rw [if_pos rfl]
    rcases terminalEvidence_cases captured with
      ⟨executed, classification, failed, marked, evidence⟩ | ⟨evidence, unmarked⟩
    · have named := failed.choose_spec.2.2.2
      exact .inl ⟨rfl, executed, classification, failed, marked,
        evidence ▸ validate_classified.mpr named, evidence ▸ rfl⟩
    · exact .inr ⟨evidence ▸ rfl, fun executed classification _ => unmarked executed classification⟩

theorem receipt_authentic_iff
    (reached : Reachable (step blueprint) anyStep (start blueprint runID) pipeline)
    (emitted : blueprintFailed blueprint deterministic live recaptured pipeline = some event) :
    Authentic deterministic live pipeline event ↔
      ∀ executed classification, live = true → pipeline.FailedCheck executed classification →
        (Marked blueprint deterministic executed ↔ deterministic executed.key = true) := by
  rcases (captured_of_reachable reached).event_cases emitted with
    ⟨isLive, executed, classification, failed, marked, valid, receipt⟩ | ⟨invalid, unmarked⟩
  · constructor
    · intro authentic other _ _ otherFailed
      obtain ⟨_, _, _, otherCheck, isDeterministic⟩ := authentic.accepted.mp valid
      rw [otherFailed.executed_eq failed]
      rw [otherCheck.executed_eq failed] at isDeterministic
      exact iff_of_true marked isDeterministic
    · intro tells
      have isDeterministic := (tells executed classification isLive failed).mp marked
      exact ⟨iff_of_true valid ⟨isLive, executed, classification, failed, isDeterministic⟩,
        fun _ => ⟨executed, classification, failed, receipt⟩⟩
  · constructor
    · intro authentic executed classification isLive failed
      refine iff_of_false (unmarked executed classification isLive failed) fun isDeterministic => ?_
      have valid := authentic.accepted.mpr
        ⟨isLive, executed, classification, failed, isDeterministic⟩
      exact absurd valid (by simp [invalid])
    · intro tells
      refine ⟨iff_of_false (by simp [invalid]) ?_, fun valid => absurd valid (by simp [invalid])⟩
      rintro ⟨isLive, executed, classification, failed, isDeterministic⟩
      exact unmarked executed classification isLive failed
        ((tells executed classification isLive failed).mpr isDeterministic)

def unitFailure : Classification where
  checks := [{ gate := "unit", exitCode := 1 }]
  references := noArtifacts
  nonempty := by decide
  exits := by decide

theorem receipt_authentic_iff_verify :
    ∃ pipeline,
      Reachable (step quickFixBlueprint) anyStep (start quickFixBlueprint "run") pipeline ∧
      ∃ event, blueprintFailed quickFixBlueprint (· == "verify") true false pipeline = some event ∧
        Authentic (· == "verify") true pipeline event := by
  refine exists_reached (fun pipeline => pipeline.last.any (fun last => last.1.key = "verify" ∧
      last.1.result.stageName = "verify") ∧
      (blueprintFailed quickFixBlueprint (· == "verify") true false pipeline).isSome)
    [{ answer := .answered ⟨"implement", .completed, 1, ""⟩ },
      { answer := .answered ⟨"verify", .failed, 1, "exit 1"⟩, trusted := some unitFailure }]
    (by decide +kernel) ?_
  rintro pipeline reached ⟨names, emitted⟩
  obtain ⟨event, isEvent⟩ := isSome_iff_exists.mp emitted
  refine ⟨event, isEvent, (receipt_authentic_iff reached isEvent).mpr ?_⟩
  rintro executed _ _ ⟨ran, isLast, _⟩
  simp only [isLast, any_some, decide_eq_true_eq] at names
  simp only [Marked, names]
  decide

/-- An agentic stage that bears the name of a deterministic one. -/
def misnamedBlueprint : Blueprint where
  id := "custom"
  name := "Custom"
  stages := ⟨[("implement", { name := "lint" }), ("lint", { name := "lint" })], by decide⟩
  initialStage := "implement"

theorem receipt_of_agentic_stage : misnamedBlueprint.validate = none ∧ ∃ pipeline,
      Reachable (step misnamedBlueprint) anyStep (start misnamedBlueprint "run") pipeline ∧
      ∃ event executed classification,
        blueprintFailed misnamedBlueprint (· == "lint") true false pipeline = some event ∧
        validateVerificationFailureArtifacts event = true ∧
        pipeline.FailedCheck executed classification ∧ (executed.key == "lint") = false := by
  refine ⟨by decide +kernel, ?_⟩
  refine exists_reached (fun pipeline => pipeline.last.any (fun last => last.1.key ≠ "lint") ∧
      (blueprintFailed misnamedBlueprint (· == "lint") true false pipeline).any
        validateVerificationFailureArtifacts)
    [{ answer := .answered ⟨"lint", .failed, 1, "Quality gates failed"⟩
       trusted := some unitFailure }]
    (by decide +kernel) ?_
  rintro pipeline reached ⟨agentic, emitted⟩
  obtain ⟨event, isEvent, valid⟩ := (any_eq_true _ _).mp emitted
  rcases (captured_of_reachable reached).event_cases isEvent with
    ⟨_, executed, classification, failed, _⟩ | ⟨invalid, _⟩
  · obtain ⟨_, isLast, _⟩ := id failed
    rw [isLast, any_some, decide_eq_true_eq] at agentic
    exact ⟨event, executed, classification, isEvent, valid, failed, beq_false_of_ne agentic⟩
  · exact absurd (valid.symm.trans invalid) (by decide)

end OpenExec.RepairAuthority
