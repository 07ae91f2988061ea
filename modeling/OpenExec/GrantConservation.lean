import OpenExec.TokenGrant

/-!
# The grant is conserved

What remains, what was reported as used and what is kept for inferences of unknown
usage always add up to the grant, and a completion sends at most one inference.
-/

namespace OpenExec.Execution

open Agent GuardedRuns List Metered Endpoint

variable {config : MeterConfig} {metered before after : Metered}
  {input output requestBytes estimatedTokens : Int} {endpoint : Endpoint} {prepared : Prepared}
  {request : Request}

def BoundedCall.isRefused (call : BoundedCall) : Bool :=
  match call.answer with
  | .refused _ _ => true
  | _ => false

/-- What is kept of a reservation: all of it if the usage is not known, the usage being
reported otherwise. -/
def BoundedAnswer.kept (input output : Int) : BoundedAnswer → Int
  | .refused _ _ => 0
  | .completed (some response) =>
    if Usage.Within response.usage input output then 0 else input + output
  | .completed none => input + output
  | .failed _ => input + output

def keptReservations : List BoundedCall → Int
  | [] => 0
  | call :: calls => call.answer.kept call.inputCap call.outputCap + keptReservations calls

def Metered.accounted (metered : Metered) : Int :=
  metered.meter.remaining + metered.meter.input + metered.meter.output +
    keptReservations metered.calls

structure MeterConfig.Sensible (config : MeterConfig) : Prop where
  provider : config.providerContext ≤ 0 ∨ 2048 ≤ config.providerContext
  caller : config.contextLimit ≤ 0 ∨ 2048 ≤ config.contextLimit

structure Meter.Capped (config : MeterConfig) (meter : Meter) : Prop where
  cap : meter.contextCap = 0 ∨ 2048 ≤ meter.contextCap ∧ meter.contextCap ≤ config.ceiling
  target : meter.contextTarget ≤ config.ceiling

structure BoundedCall.Within (ceiling unreserved : Int) (call : BoundedCall) : Prop where
  input : call.inputCap ≤ ceiling
  total : call.inputCap + call.outputCap ≤ unreserved

theorem MeterConfig.ceiling_le (config : MeterConfig) : config.ceiling ≤ maxAPIContextTokens ∧
    (config.providerContext > 0 → config.ceiling ≤ config.providerContext) ∧
    (config.contextLimit > 0 → config.ceiling ≤ config.contextLimit) := by
  unfold MeterConfig.ceiling maxAPIContextTokens
  simp only
  split <;> split <;> omega

theorem MeterConfig.Sensible.le_ceiling (sensible : config.Sensible) : 2048 ≤ config.ceiling := by
  obtain ⟨provider, caller⟩ := sensible
  unfold MeterConfig.ceiling maxAPIContextTokens
  simp only
  split <;> split <;> omega

theorem doubled_bounds (bound cap : Int) :
    0 < cap → cap ≤ doubled bound cap ∧ (cap ≤ bound → doubled bound cap ≤ bound) := by
  fun_induction doubled bound cap with
  | case1 cap fits ih =>
    intro positive
    obtain ⟨larger, within⟩ := ih (by omega)
    exact ⟨by omega, fun _ => within fits.2⟩
  | case2 cap stops =>
    intro _
    exact ⟨Int.le_refl _, fun small => small⟩

theorem doubled_start (bound : Int) :
    2048 ≤ doubled bound 2048 ∧ doubled bound 2048 ≤ max bound 2048 := by
  obtain ⟨larger, within⟩ := doubled_bounds bound 2048 (by decide)
  refine ⟨larger, ?_⟩
  by_cases small : 2048 ≤ bound
  · exact Int.le_trans (within small) (Int.le_max_left _ _)
  · rw [doubled, if_neg (by omega)]
    exact Int.le_max_right _ _

theorem selectContext_spec {meter : Meter} (sensible : config.Sensible)
    (capped : meter.Capped config) : (selectContext config meter).Capped config ∧ 2048 ≤
    (selectContext config meter).contextCap ∧ (selectContext config meter).contextCap ≤
    config.ceiling ∧ (selectContext config meter).remaining = meter.remaining ∧
    (selectContext config meter).input = meter.input ∧ (selectContext config meter).output =
    meter.output := by
  have ceiling := sensible.le_ceiling
  unfold selectContext
  split
  · have chosen := doubled_start (min config.ceiling (meter.remaining - minimumOutput))
    have target := doubled_start config.ceiling
    have within : doubled (min config.ceiling (meter.remaining - minimumOutput)) 2048 ≤
        config.ceiling := by omega
    exact ⟨⟨.inr ⟨chosen.1, within⟩, by simpa using (by omega)⟩, chosen.1, within, rfl, rfl, rfl⟩
  · next unset =>
    have set := capped.cap.resolve_left unset
    exact ⟨capped, set.1, set.2, rfl, rfl, rfl⟩

/-- The calls that a prepared request has made so far, and the meter after them: all
but the last one were refused, and the output that is not reserved any more is back in
the remaining grant. -/
structure Trail (metered : Metered) (input output : Int) (prepared : Prepared) : Prop where
  remaining : prepared.metered.meter.remaining + prepared.output = metered.meter.remaining + output
  used : prepared.metered.meter.input = metered.meter.input ∧
    prepared.metered.meter.output = metered.meter.output
  context : prepared.metered.meter.contextCap = metered.meter.contextCap ∧
    prepared.metered.meter.contextTarget = metered.meter.contextTarget
  lower : prepared.output ≤ output
  positive : 0 ≤ output → 0 ≤ prepared.output
  calls : ∃ request earlier, prepared.metered.calls =
      ⟨request, input, prepared.output, prepared.answer⟩ :: earlier ++ metered.calls ∧
    ∀ call ∈ earlier, call.isRefused = true ∧ call.inputCap = input ∧ call.outputCap ≤ output

theorem trail_call (endpoint : Endpoint) (metered : Metered) (request : Request)
    (input output : Int) :
    Trail metered input output (endpoint.call metered request input output) :=
  ⟨rfl, ⟨rfl, rfl⟩, ⟨rfl, rfl⟩, Int.le_refl _, id, request, [], rfl,
    fun _ isCall => absurd isCall not_mem_nil⟩

theorem Trail.trans {first second : Prepared} (trail : Trail metered input output first)
    (refused : first.answer = .refused estimatedTokens requestBytes)
    (again : Trail first.metered input first.output second) :
    Trail metered input output second := by
  obtain ⟨request, earlier, isFirst, earlierRefused⟩ := trail.calls
  obtain ⟨next, later, isSecond, laterRefused⟩ := again.calls
  refine ⟨by have := trail.remaining; have := again.remaining; omega, ?_, ?_,
    Int.le_trans again.lower trail.lower, fun reserved => again.positive (trail.positive reserved),
    next, later ++ ⟨request, input, first.output, first.answer⟩ :: earlier, ?_, ?_⟩
  · exact ⟨again.used.1.trans trail.used.1, again.used.2.trans trail.used.2⟩
  · exact ⟨again.context.1.trans trail.context.1, again.context.2.trans trail.context.2⟩
  · rw [isSecond, isFirst]
    simp
  · intro call isCall
    rcases mem_append.mp isCall with isLater | isEarlier
    · obtain ⟨isRefused, sameInput, smaller⟩ := laterRefused call isLater
      exact ⟨isRefused, sameInput, Int.le_trans smaller trail.lower⟩
    rcases mem_cons.mp isEarlier with rfl | isEarlier
    · exact ⟨by simp [BoundedCall.isRefused, refused], rfl, trail.lower⟩
    · exact earlierRefused call isEarlier

theorem trail_prepare (endpoint : Endpoint) (metered : Metered) (request : Request)
    (input output : Int) :
    Trail metered input output (endpoint.prepare metered request input output) := by
  have first := trail_call endpoint metered request input output
  unfold prepare
  simp only
  split
  · next estimatedTokens requestBytes refused =>
    split
    · next room =>
      refine ⟨?_, ⟨rfl, rfl⟩, ⟨rfl, rfl⟩, Int.le_of_lt room.2, fun _ => ?_, request,
        [⟨request, input, output, .refused estimatedTokens requestBytes⟩], ?_, ?_⟩
      · simp only [call]
        omega
      · simp only [call]
        unfold minimumOutput at room
        omega
      · rw [← refused]
        rfl
      · intro call isCall
        obtain rfl := mem_singleton.mp isCall
        exact ⟨rfl, rfl, Int.le_refl _⟩
    · exact first
  · exact first

theorem trail_withoutRepeated (trail : Trail metered input output prepared) :
    Trail metered input output (endpoint.withoutRepeated request input prepared) := by
  unfold withoutRepeated
  split
  · next refused =>
    simp only
    split
    · exact trail.trans refused (trail_prepare endpoint _ _ input _)
    · exact trail
  · exact trail

theorem trail_withoutPrior (trail : Trail metered input output prepared) :
    Trail metered input output (endpoint.withoutPrior config request input prepared) := by
  unfold withoutPrior
  split
  · next refused =>
    split
    · simp only
      split
      · have again := trail.trans refused (trail_prepare endpoint prepared.metered
          (endpoint.compactPrior [] request).2.1 input prepared.output)
        split
        · exact { again with }
        · exact again
      · exact trail
    · exact trail
  · exact trail

theorem kept_of_isRefused {call : BoundedCall} (refused : call.isRefused)
    (input output : Int) : call.answer.kept input output = 0 := by
  unfold BoundedCall.isRefused at refused
  split at refused
  · next isRefused =>
    rw [isRefused]
    rfl
  · cases refused

theorem keptReservations_of_refused {earlier : List BoundedCall}
    (refused : ∀ call ∈ earlier, call.isRefused) (calls : List BoundedCall) :
    keptReservations (earlier ++ calls) = keptReservations calls := by
  induction earlier with
  | nil => rfl
  | cons call earlier ih =>
    rw [cons_append, keptReservations, kept_of_isRefused (refused call mem_cons_self),
      ih fun other isOther => refused other (mem_cons_of_mem _ isOther), Int.zero_add]

/-- What a completion, or a part of it, owes to the grant. -/
structure Honest (config : MeterConfig) (before after : Metered) : Prop where
  remaining : 0 ≤ after.meter.remaining
  accounted : after.accounted = before.accounted
  capped : after.meter.Capped config
  calls : ∃ new, after.calls = new ++ before.calls ∧
    (∀ call ∈ new, call.Within config.ceiling before.meter.remaining) ∧
    (new.filter fun call => !call.isRefused).length ≤ 1

structure Unsent (config : MeterConfig) (before after : Metered) : Prop where
  remaining : after.meter.remaining = before.meter.remaining
  accounted : after.accounted = before.accounted
  capped : after.meter.Capped config
  calls : ∃ new, after.calls = new ++ before.calls ∧
    ∀ call ∈ new, call.Within config.ceiling before.meter.remaining ∧ call.isRefused = true

theorem Unsent.honest (unsent : Unsent config before after)
    (reserved : 0 ≤ before.meter.remaining) : Honest config before after := by
  obtain ⟨new, isNew, refused⟩ := unsent.calls
  refine ⟨unsent.remaining ▸ reserved, unsent.accounted, unsent.capped, new, isNew,
    fun call isCall => (refused call isCall).1, ?_⟩
  have none : new.filter (fun call => !call.isRefused) = [] := by
    rw [filter_eq_nil_iff]
    intro call isCall
    simp [(refused call isCall).2]
  simp [none]

theorem Unsent.trans {middle : Metered} (unsent : Unsent config before middle)
    (honest : Honest config middle after) : Honest config before after := by
  obtain ⟨first, isFirst, refused⟩ := unsent.calls
  obtain ⟨second, isSecond, within, once⟩ := honest.calls
  refine ⟨honest.remaining, honest.accounted.trans unsent.accounted, honest.capped,
    second ++ first, by rw [isSecond, isFirst, append_assoc], ?_, ?_⟩
  · intro call isCall
    rcases mem_append.mp isCall with isSecond | isFirst
    · exact unsent.remaining ▸ within call isSecond
    · exact (refused call isFirst).1
  · have none : first.filter (fun call => !call.isRefused) = [] := by
      rw [filter_eq_nil_iff]
      intro call isCall
      simp [(refused call isCall).2]
    rw [filter_append, none, append_nil]
    exact once

/-- The state in which the adapter has answered: the reservation is still taken from
the remaining grant. -/
structure Reserved (config : MeterConfig) (before : Metered) (input : Int)
    (prepared : Prepared) : Prop where
  nonneg : 0 ≤ input ∧ 0 ≤ prepared.output
  remaining : 0 ≤ prepared.metered.meter.remaining
  total : prepared.metered.meter.remaining + (input + prepared.output) = before.meter.remaining
  used : prepared.metered.meter.input = before.meter.input ∧
    prepared.metered.meter.output = before.meter.output
  capped : prepared.metered.meter.Capped config
  larger : 2048 ≤ input
  calls : ∃ request earlier, prepared.metered.calls =
      ⟨request, input, prepared.output, prepared.answer⟩ :: earlier ++ before.calls ∧
    (∀ call ∈ earlier, call.isRefused = true) ∧
    ∀ call ∈ ⟨request, input, prepared.output, prepared.answer⟩ :: earlier,
      call.Within config.ceiling before.meter.remaining

section

variable (reserved : Reserved config before input prepared)
include reserved

theorem Reserved.kept : keptReservations prepared.metered.calls =
      prepared.answer.kept input prepared.output + keptReservations before.calls := by
  obtain ⟨request, earlier, isCalls, refused, _⟩ := reserved.calls
  rw [isCalls, cons_append, keptReservations, keptReservations_of_refused refused]

theorem Reserved.sent : ∃ new, prepared.metered.calls = new ++ before.calls ∧
      (∀ call ∈ new, call.Within config.ceiling before.meter.remaining) ∧
      (new.filter fun call => !call.isRefused).length ≤ 1 := by
  obtain ⟨request, earlier, isCalls, refused, within⟩ := reserved.calls
  refine ⟨_, isCalls, within, ?_⟩
  have none : earlier.filter (fun call => !call.isRefused) = [] := by
    rw [filter_eq_nil_iff]
    intro call isCall
    simp [refused call isCall]
  rw [filter_cons, none]
  split <;> simp

theorem honest_keepReservation
    (unknown : prepared.answer.kept input prepared.output = input + prepared.output)
    (fault : Fault) : Honest config before (prepared.metered.keepReservation fault).1 := by
  refine ⟨reserved.remaining, ?_, ⟨reserved.capped.cap, reserved.capped.target⟩, reserved.sent⟩
  have kept := reserved.kept
  have total := reserved.total
  obtain ⟨usedInput, usedOutput⟩ := reserved.used
  simp only [accounted, keepReservation]
  omega

end

theorem unsent_of_refused (after : Metered) (reserved : Reserved config before input prepared)
    (refused : prepared.answer = .refused estimatedTokens requestBytes)
    (refunded : after.meter.remaining =
      prepared.metered.meter.remaining + (input + prepared.output))
    (used : after.meter.input = prepared.metered.meter.input ∧
      after.meter.output = prepared.metered.meter.output) (capped : after.meter.Capped config)
    (calls : after.calls = prepared.metered.calls) : Unsent config before after := by
  have kept := reserved.kept
  rw [refused] at kept
  refine ⟨refunded.trans reserved.total, ?_, capped, ?_⟩
  · have total := reserved.total
    obtain ⟨usedInput, usedOutput⟩ := reserved.used
    simp only [accounted, calls, kept, BoundedAnswer.kept]
    omega
  · obtain ⟨request, earlier, isCalls, earlierRefused, within⟩ := reserved.calls
    refine ⟨_, calls.trans isCalls, fun call isCall => ⟨within call isCall, ?_⟩⟩
    rcases mem_cons.mp isCall with rfl | isEarlier
    · simp [BoundedCall.isRefused, refused]
    · exact earlierRefused call isEarlier

theorem settle_spec (request : Request) (allowResize : Bool)
    (reserved : Reserved config before input prepared) :
    Honest config before (endpoint.settle config request allowResize input prepared).1 ∧
      ((endpoint.settle config request allowResize input prepared).2 = .resize → allowResize ∧
        Unsent config before (endpoint.settle config request allowResize input prepared).1) := by
  obtain ⟨inputNonneg, outputNonneg⟩ := reserved.nonneg
  have total := reserved.total
  have remaining := reserved.remaining
  unfold settle
  simp only
  split
  · next estimatedTokens requestBytes refused =>
    split
    · next resizes =>
      have unsent := unsent_of_refused
        { prepared.metered with
          meter := { prepared.metered.meter with
            remaining := prepared.metered.meter.remaining + (input + prepared.output)
            contextCap := estimatedTokens + minimumOutput + 16 } }
        reserved refused rfl ⟨rfl, rfl⟩ ⟨.inr ⟨?_, ?_⟩, reserved.capped.target⟩ rfl
      · exact ⟨unsent.honest (by omega), fun _ => ⟨resizes.1, unsent⟩⟩
      · have larger := reserved.larger
        simp only
        omega
      · exact Int.le_trans resizes.2.2.2.2.2.1 reserved.capped.target
    · have unsent := unsent_of_refused
        { prepared.metered with
          meter := { prepared.metered.meter with
            remaining := prepared.metered.meter.remaining + (input + prepared.output) } }
        reserved refused rfl ⟨rfl, rfl⟩ { reserved.capped with } rfl
      exact ⟨unsent.honest (by omega), fun resize => absurd resize (by simp)⟩
  · next fault failed =>
    exact ⟨honest_keepReservation reserved (by rw [failed]; rfl) fault,
      fun resize => absurd resize (by simp [keepReservation])⟩
  · next empty =>
    exact ⟨honest_keepReservation reserved (by rw [empty]; rfl) _,
      fun resize => absurd resize (by simp [keepReservation])⟩
  · next response completed =>
    split
    · next within =>
      refine ⟨⟨?_, ?_, ⟨reserved.capped.cap, reserved.capped.target⟩, reserved.sent⟩,
        fun resize => absurd resize (by simp)⟩
      · obtain ⟨_, _, _, _⟩ := within
        simp only
        omega
      · have kept := reserved.kept
        rw [completed, BoundedAnswer.kept, if_pos within] at kept
        obtain ⟨usedInput, usedOutput⟩ := reserved.used
        simp only [accounted]
        omega
    · next beyond =>
      refine ⟨honest_keepReservation reserved ?_ _,
        fun resize => absurd resize (by simp [keepReservation])⟩
      rw [completed, BoundedAnswer.kept, if_neg beyond]

theorem withPrior_spec (endpoint : Endpoint) (meter : Meter) (request : Request) :
    ∃ prior, (endpoint.withPrior meter request).1 = { meter with prior := prior } := by
  unfold withPrior
  split
  · exact ⟨meter.prior, rfl⟩
  · simp only
    split <;> exact ⟨_, rfl⟩

theorem outputReserve_bounds (request : Request) {remaining : Int} (positive : 0 ≤ input)
    (room : input ≤ remaining) : 0 ≤ outputReserve request remaining input ∧
      input + outputReserve request remaining input ≤ remaining := by
  unfold outputReserve
  simp only
  split <;> omega

theorem reserved_of_trail (trail : Trail metered input output prepared)
    (total : metered.meter.remaining + (input + output) = before.meter.remaining)
    (remaining : 0 ≤ metered.meter.remaining) (nonneg : 0 ≤ output)
    (used : metered.meter.input = before.meter.input ∧ metered.meter.output = before.meter.output)
    (capped : metered.meter.Capped config) (larger : 2048 ≤ input) (within : input ≤ config.ceiling)
    (calls : metered.calls = before.calls) : Reserved config before input prepared := by
  have balance := trail.remaining
  have lower := trail.lower
  have positive := trail.positive nonneg
  obtain ⟨request, earlier, isCalls, refused⟩ := trail.calls
  refine ⟨⟨by omega, positive⟩, by omega, by omega,
    ⟨trail.used.1.trans used.1, trail.used.2.trans used.2⟩, ?_, larger,
    request, earlier, calls ▸ isCalls, fun call isCall => (refused call isCall).1, ?_⟩
  · exact ⟨trail.context.1.symm ▸ capped.cap, trail.context.2.symm ▸ capped.target⟩
  · intro call isCall
    rcases mem_cons.mp isCall with rfl | isEarlier
    · exact ⟨within, by simp only; omega⟩
    · obtain ⟨_, sameInput, smaller⟩ := refused call isEarlier
      exact ⟨by omega, by omega⟩

theorem attempt_spec (endpoint : Endpoint) (sensible : config.Sensible) (request : Request)
    (allowResize : Bool) (remaining : 0 ≤ before.meter.remaining)
    (capped : before.meter.Capped config) :
    Honest config before (endpoint.attempt config before request allowResize).1 ∧
      ((endpoint.attempt config before request allowResize).2 = .resize → allowResize ∧
        Unsent config before (endpoint.attempt config before request allowResize).1) := by
  unfold attempt
  simp only
  split
  · have unsent : Unsent config before before :=
      ⟨rfl, rfl, capped, [], rfl, fun _ isCall => absurd isCall not_mem_nil⟩
    exact ⟨unsent.honest remaining, fun resize => absurd resize (by simp)⟩
  obtain ⟨chosen, larger, within, sameRemaining, sameInput, sameOutput⟩ :=
    selectContext_spec sensible capped
  generalize selectContext config before.meter = meter at *
  split
  · have unsent : Unsent config before { before with meter := meter } := by
      refine ⟨sameRemaining, ?_, chosen, [], rfl, fun _ isCall => absurd isCall not_mem_nil⟩
      simp only [accounted]
      omega
    exact ⟨unsent.honest remaining, fun resize => absurd resize (by simp)⟩
  next room =>
  unfold minimumOutput at room
  obtain ⟨outputNonneg, outputFits⟩ := outputReserve_bounds
    { request with nonThinking := config.nonThinking }
    (show 0 ≤ meter.contextCap by omega) (show meter.contextCap ≤ meter.remaining by omega)
  generalize outputReserve { request with nonThinking := config.nonThinking } meter.remaining
    meter.contextCap = output at *
  obtain ⟨prior, charged⟩ := withPrior_spec endpoint
    { meter with remaining := meter.remaining - (meter.contextCap + output) }
    { request with nonThinking := config.nonThinking }
  generalize endpoint.withPrior _ _ = sent at *
  apply settle_spec
  apply reserved_of_trail (trail_withoutPrior (trail_withoutRepeated (trail_prepare _ _ _ _ _)))
  · rw [charged]
    simp only
    omega
  · rw [charged]
    simp only
    omega
  · exact outputNonneg
  · rw [charged]
    exact ⟨sameInput, sameOutput⟩
  · rw [charged]
    exact ⟨chosen.cap, chosen.target⟩
  · exact larger
  · exact within
  · rfl

theorem complete_honest (endpoint : Endpoint) (sensible : config.Sensible) (request : Request)
    (remaining : 0 ≤ before.meter.remaining) (capped : before.meter.Capped config) :
    Honest config before (endpoint.complete config before request).1 := by
  obtain ⟨honest, resizes⟩ := attempt_spec endpoint sensible request true remaining capped
  unfold complete
  generalize endpoint.attempt config before request true = first at *
  obtain ⟨middle, outcome⟩ := first
  cases outcome with
  | returned result => exact honest
  | resize =>
    obtain ⟨_, unsent⟩ := resizes rfl
    have again := attempt_spec endpoint sensible request false honest.remaining
      honest.capped
    exact unsent.trans again.1

theorem metered_reachable (sensible : config.Sensible) {grant : Int} (positive : 0 ≤ grant)
    (reachable : Reachable (endpoint.step config) anyStep (Metered.start grant) metered) :
    0 ≤ metered.meter.remaining ∧ metered.accounted = grant ∧ metered.meter.Capped config := by
  apply reachable.invariant
  · have ceiling := sensible.le_ceiling
    refine ⟨positive, ?_, .inl rfl, ?_⟩
    · simp [accounted, start, keptReservations]
    · simp only [start]
      omega
  · intro before request after known _ taken
    cases taken
    have honest := complete_honest endpoint sensible request known.1 known.2.2
    exact ⟨honest.remaining, honest.accounted.trans known.2.1, honest.capped⟩

def strictEndpoint : Endpoint where
  completeBounded calls _ input _ :=
    if calls.length % 2 = 0 then .refused (input - 2048) 100 else .failed reservationViolated
  nativeContextWindow _ := none
  sink _ _ := none
  compactRepeatedResults request := (request, false)
  compactPrior prior request := (prior, request, false)

def plainRequest : Request where
  model := "m"
  messages := [newTextMessage .user "hello"]
  system := ""

def strictRun : Metered :=
  (strictEndpoint.complete ⟨0, 4096, false, false⟩ (Metered.start 10000) plainRequest).1

end OpenExec.Execution
