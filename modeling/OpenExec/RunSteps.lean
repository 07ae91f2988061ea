import OpenExec.KeyedRows

/-!
# The recorded steps of a run

Every attempt of a run numbers its events from one, and a row of `run_steps` is
named after the run and that number.
-/

namespace OpenExec.StateStore

open KeyedRows Option List

inductive EventType
  | stageStart | stageComplete | stageFailed | iterationStart | complete | other (name : String)
  deriving DecidableEq

structure Event where
  type : EventType
  stageName : String := ""
  agent : String := ""
  iteration : Int := 0
  text : String := ""
  promptHash : String := ""
  reviewCycle : Int := 0
  errText : String := ""

structure StepMetadata where
  type : EventType
  text : String
  promptHash : String
  reviewCycle : Int
  error : String
  deriving DecidableEq

structure RunStep where
  id : String
  runID : String
  traceID : String
  phase : String
  agent : String
  iteration : Int
  status : String
  inputsHash : String
  metadata : StepMetadata
  deriving DecidableEq

def EventType.isStage : EventType → Bool
  | .stageStart | .stageComplete | .stageFailed => true
  | _ => false

def EventType.isRecorded : EventType → Bool
  | .other _ => false
  | _ => true

def EventType.status : EventType → String
  | .stageComplete | .complete => "completed"
  | .stageFailed => "failed"
  | _ => "running"

variable (runID : String) (sequence : Nat)

def stepID : String :=
  runID ++ "-" ++ sequence.repr

def runStep (event : Event) : RunStep where
  id := stepID runID sequence
  runID := runID
  traceID := runID
  phase := event.stageName
  agent := event.agent
  iteration := event.iteration
  status := event.type.status
  inputsHash := event.promptHash
  metadata := ⟨event.type, event.text, event.promptHash, event.reviewCycle, event.errText⟩

def writeRunStep (steps : Table RunStep.id) (event : Event) : Table RunStep.id :=
  if event.type.isRecorded then steps.insertOrIgnore (runStep runID sequence event) else steps

/-- The events of one attempt, of which the first is numbered `stepSeq + 1`. -/
def consumeEvents (runID : String) : Nat → Table RunStep.id → List Event → Table RunStep.id
  | _, steps, [] => steps
  | stepSeq, steps, event :: rest =>
    consumeEvents runID (stepSeq + 1) (writeRunStep runID (stepSeq + 1) steps event) rest

/-- Each start makes a new entry, whose counter is zero. -/
def recordAttempts (steps : Table RunStep.id) (attempts : List (List Event)) : Table RunStep.id :=
  attempts.foldl (consumeEvents runID 0) steps

variable {runID : String} {attempts : List (List Event)} {attempt : List Event} {event : Event}
  {steps : Table RunStep.id} {sequence place : Nat}

theorem stepID_inj {first second : Nat} :
    stepID runID first = stepID runID second ↔ first = second := by
  constructor
  · intro same
    have digits := congrArg String.toList ((String.append_right_inj _).mp same)
    rw [Nat.repr, Nat.repr, String.toList_ofList, String.toList_ofList] at digits
    rw [← @Nat.ofDigitChars_ten_toDigits first, digits, Nat.ofDigitChars_ten_toDigits]
  · rintro rfl
    rfl

def recorded? (attempt : List Event) (place : Nat) : Option Event :=
  attempt[place]?.filter (·.type.isRecorded)

theorem get?_writeRunStep {written : Nat} :
    (writeRunStep runID written steps event).get? (stepID runID sequence) =
      (steps.get? (stepID runID sequence)).or
        (if written = sequence ∧ event.type.isRecorded then some (runStep runID sequence event)
          else none) := by
  unfold writeRunStep
  split
  · next recorded =>
    rw [Table.get?_insertOrIgnore]
    by_cases same : written = sequence
    · simp [runStep, same, recorded]
    · have other : (runStep runID written event).id ≠ stepID runID sequence :=
        fun equal => same (stepID_inj.mp equal)
      simp [same, other]
  · next skipped => simp [skipped]

theorem get?_consumeEvents (stepSeq : Nat) :
    (consumeEvents runID stepSeq steps attempt).get? (stepID runID sequence) =
      (steps.get? (stepID runID sequence)).or (if stepSeq < sequence then
        (recorded? attempt (sequence - (stepSeq + 1))).map (runStep runID sequence) else none) := by
  induction attempt generalizing stepSeq steps with
  | nil => simp [consumeEvents, recorded?]
  | cons event rest ih =>
    rw [consumeEvents, ih, get?_writeRunStep, Option.or_assoc]
    congr 1
    rcases Nat.lt_trichotomy sequence (stepSeq + 1) with before | rfl | later
    · rw [if_neg (by omega), if_neg (by omega), if_neg (by omega), or_none]
    · by_cases recorded : event.type.isRecorded <;> simp [recorded?, Option.filter, recorded]
    · have next : sequence - (stepSeq + 1) = sequence - (stepSeq + 1 + 1) + 1 := by omega
      rw [if_neg (by omega), if_pos later, if_pos (by omega), next]
      rfl

theorem get?_recordAttempts :
    (recordAttempts runID steps attempts).get? (stepID runID (place + 1)) =
      (steps.get? (stepID runID (place + 1))).or
        ((attempts.findSome? (recorded? · place)).map (runStep runID (place + 1))) := by
  induction attempts generalizing steps with
  | nil => simp [recordAttempts]
  | cons attempt rest ih =>
    rw [recordAttempts, foldl_cons, ← recordAttempts, ih, get?_consumeEvents, Option.or_assoc,
      findSome?_cons, if_pos (Nat.succ_pos _), Nat.zero_add, Nat.add_sub_cancel]
    cases recorded? attempt place <;> rfl

theorem recorded?_of_stage (ingested : attempt[place]? = some event)
    (stage : event.type.isStage) : recorded? attempt place = some event := by
  have recorded : event.type.isRecorded := by
    cases type : event.type <;> simp_all [EventType.isStage, EventType.isRecorded]
  simp [recorded?, ingested, Option.filter, recorded]

/-- The stage event at a place of an attempt, among the attempts before and after it,
has the row of its number to itself. -/
def HasOwnStep (runID : String) (before : List (List Event)) (attempt : List Event)
    (after : List (List Event)) (place : Nat) (event : Event) : Prop :=
  (recordAttempts runID .empty (before ++ attempt :: after)).get? (stepID runID (place + 1)) =
      some (runStep runID (place + 1) event) ∧
    ∀ other ∈ before ++ after, ∀ elsewhere stage, other[elsewhere]? = some stage →
      stage.type.isStage → stepID runID (elsewhere + 1) ≠ stepID runID (place + 1)

/-- An earlier attempt recorded no event under the number of the stage event. -/
def NumberIsFree (before : List (List Event)) (place : Nat) : Prop :=
  ∀ attempt ∈ before, recorded? attempt place = none

theorem stage_results_recorded_iff (runID : String) (attempts : List (List Event)) :
    (∀ before attempt after, attempts = before ++ attempt :: after → ∀ place event,
      attempt[place]? = some event → event.type.isStage →
        HasOwnStep runID before attempt after place event) ↔
    ∀ before attempt after, attempts = before ++ attempt :: after → ∀ place event,
      attempt[place]? = some event → event.type.isStage → NumberIsFree before place := by
  constructor
  · intro recorded before attempt after split place event ingested stage earlier member
    obtain ⟨own, alone⟩ := recorded before attempt after split place event ingested stage
    by_contra taken
    obtain ⟨first, found⟩ : ∃ first, before.findSome? (recorded? · place) = some first := by
      rw [← isSome_iff_exists, findSome?_isSome_iff]
      exact ⟨earlier, member, isSome_iff_ne_none.mpr taken⟩
    rw [get?_recordAttempts, findSome?_append, found] at own
    have sameType : first.type = event.type :=
      congrArg (·.metadata.type) (Option.some.inj own)
    obtain ⟨other, isBefore, here⟩ := exists_of_findSome?_eq_some found
    have ingestedFirst : other[place]? = some first := (filter_eq_some_iff.mp here).1
    exact alone other (mem_append_left _ isBefore) place first ingestedFirst
      (sameType ▸ stage) rfl
  · intro free before attempt after split place event ingested stage
    have numberFree := free before attempt after split place event ingested stage
    have here := recorded?_of_stage ingested stage
    constructor
    · have none : before.findSome? (recorded? · place) = none :=
        findSome?_eq_none_iff.mpr numberFree
      rw [get?_recordAttempts, findSome?_append, none]
      simp [here, Table.empty, Table.get?, row?]
    · intro other member elsewhere stageEvent ingestedOther isStage same
      obtain rfl : elsewhere = place := Nat.succ.inj (stepID_inj.mp same)
      have recorded := recorded?_of_stage ingestedOther isStage
      rcases mem_append.mp member with isBefore | isAfter
      · simp [numberFree other isBefore] at recorded
      · obtain ⟨between, rest, rfl⟩ := append_of_mem isAfter
        have later := free (before ++ attempt :: between) other rest (by simp [split]) elsewhere
          stageEvent ingestedOther isStage attempt (by simp)
        simp [here] at later

/-- The second attempt's stage is recorded as the first attempt's. -/
theorem later_attempt_discarded : ∃ event : Event, event.type.isStage ∧
    ¬ HasOwnStep "T-1" [[⟨.stageStart, "implement", "", 1, "", "", 0, ""⟩]] [event] [] 0 event := by
  refine ⟨⟨.stageStart, "review", "", 2, "", "", 0, ""⟩, rfl, ?_⟩
  rintro ⟨own, -⟩
  exact absurd own (by decide)

end OpenExec.StateStore
