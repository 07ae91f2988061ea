import OpenExec.GuardedRuns
import OpenExec.ValidationEvidence

/-!
# The state that frozen evidence is for

Proposals and acceptances look at the worktree.  Steps, links and the final report do not:
they compare hashes that are stored with one another.
-/

namespace OpenExec.Validation

open Knowledge KeyedRows GuardedRuns Ledger Option List Table

variable {ledger next : Ledger} {generations : Generations} {tables : Tables}
  {identity : RepositoryIdentity} {now : Nat} {channel : Channel} {link : ValidationEvidenceLink}
  {planID : String} {plan : ValidationPlanRevision}

structure World where
  worktrees : String → ScanManifest
  ledger : Ledger

inductive Extraction
  | complete
  | incomplete
  | failed
  deriving DecidableEq

inductive Action
  | edit (worktreeID : String) (manifest : ScanManifest)
  | beginBuild (identity : RepositoryIdentity) (full : Bool)
      (id extractorVersion : String) (now : Nat)
  | endBuild (id : String) (full : Bool) (extraction : Extraction) (now : Nat)
  | markStale (id : String)
  | recordArtifact (hash : String)
  | propose (channel : Channel) (identity : RepositoryIdentity) (generationID : String)
      (request : ProposalRequest) (changedSymbols : List String)
      (recommendations : List ValidationRecommendation) (newID : String) (fresh : Nat → String)
  | accept (channel : Channel) (identity : RepositoryIdentity)
      (generationID proposedID runID : String) (decisions : List ValidationItemDecision)
      (newID : String) (renew : String → String)
  | registerRun (channel : Channel) (identity : RepositoryIdentity) (id : String) (mode : RunMode)
  | registerStep (channel : Channel) (identity : RepositoryIdentity) (runID id : String)
      (phase : StepPhase) (iteration : Int) (status : StepStatus)
  | linkEvidence (channel : Channel) (identity : RepositoryIdentity) (planID : String)
      (request : EvidenceRequest) (now : Nat)
  | finalize (identity : RepositoryIdentity) (planID : String)

variable {full : Bool} {id newID runID : String} {action : Action} {bound : Generation}
  {report : CompletionReport} {status : EvidenceStatus}

namespace World

variable (world : World)

def withGenerations (generations : Generations) : World :=
  { world with ledger := { world.ledger with generations } }

def withTables (tables : Tables) : World :=
  { world with ledger := { world.ledger with toTables := tables } }

def answer (identity : RepositoryIdentity) (generationID : String) : Option Generation :=
  (world.ledger.generations.get? generationID).filter fun generation =>
    generation.worktreeID = identity.worktreeID ∧
      (generation.status = .current ∨ generation.status = .incomplete) ∧
      generation.manifestHash = (world.worktrees identity.worktreeID).manifestHash ∧
      generation.configurationDigest = (world.worktrees identity.worktreeID).configurationDigest

def beginBuild (identity : RepositoryIdentity) (full : Bool) (id extractorVersion : String)
    (now : Nat) : Option Generations :=
  let generations :=
    if full then world.ledger.generations.abandonBuilds identity.worktreeID
    else world.ledger.generations
  generations.beginGeneration identity (world.worktrees identity.worktreeID) id extractorVersion now

/-- Only a full scan compares the configuration. -/
def isUnchanged (built : Generation) (full : Bool) : Bool :=
  (world.worktrees built.worktreeID).manifestHash = built.manifestHash &&
    (!full || (world.worktrees built.worktreeID).configurationDigest = built.configurationDigest)

/-- A build reads the worktree again before its generation is published. -/
def endBuild (id : String) (full : Bool) (extraction : Extraction) (now : Nat) :
    Option Generations :=
  match world.ledger.generations.get? id with
  | none => none
  | some built =>
    if extraction = .failed then some (world.ledger.generations.failGeneration id)
    else if world.isUnchanged built full = false then
      some (world.ledger.generations.failInconsistent id)
    else if extraction = .incomplete then world.ledger.generations.completePartialGeneration id
    else world.ledger.generations.promoteGeneration id now

def step : Action → Option World
  | .edit worktreeID manifest =>
    some { world with worktrees := Function.update world.worktrees worktreeID manifest }
  | .beginBuild identity full id extractorVersion now =>
    (world.beginBuild identity full id extractorVersion now).map world.withGenerations
  | .endBuild id full extraction now => (world.endBuild id full extraction now).map
      world.withGenerations
  | .markStale id => some (world.withGenerations (world.ledger.generations.markStale id))
  | .recordArtifact hash =>
    some { world with ledger := { world.ledger with artifacts := hash :: world.ledger.artifacts } }
  | .propose channel identity generationID request changedSymbols recommendations newID fresh =>
    (world.answer identity generationID).bind fun generation =>
      (world.ledger.proposeFromChangedImpact channel request
        { generation, changedSymbols, recommendations } newID fresh).toOption.map world.withTables
  | .accept channel identity generationID proposedID runID decisions newID renew =>
    (world.answer identity generationID).bind fun generation =>
      (world.ledger.acceptProposal channel identity generation proposedID runID decisions newID
        renew).toOption.map world.withTables
  | .registerRun channel identity id mode =>
    (world.ledger.registerRun channel identity id mode).toOption.map fun ledger =>
      { world with ledger }
  | .registerStep channel identity runID id phase iteration status =>
    (world.ledger.registerStep channel identity
      { id, runID, phase, iteration, status, registeredIn := world.worktrees }).toOption.map
        fun ledger => { world with ledger }
  | .linkEvidence channel identity planID request now =>
    (world.ledger.linkEvidence channel identity planID request now).toOption.map fun ledger =>
      { world with ledger }
  | .finalize identity planID =>
    (world.ledger.finalizeCompletion identity planID).toOption.map fun ledger =>
      { world with ledger }

end World

/-- Plans, items and steps stay what they are. -/
structure Ledger.Keeps (ledger later : Ledger) : Prop where
  tables : ledger.toTables.Keeps later.toTables
  step : ∀ {id step}, ledger.steps.get? id = some step → later.steps.get? id = some step

theorem Ledger.Keeps.refl : ledger.Keeps ledger :=
  ⟨Tables.Keeps.refl, id⟩

/-- The step leaves the links and the reports alone. -/
structure World.Frames (world next : World) : Prop where
  keeps : world.ledger.Keeps next.ledger
  links : next.ledger.links = world.ledger.links
  reports : next.ledger.reports = world.ledger.reports

theorem ok_of_toOption {α β : Type*} {result : Except α β} {value : β}
    (isSome : result.toOption = some value) : result = .ok value := by
  cases result with
  | error _ => cases isSome
  | ok _ => exact congrArg _ (some.inj isSome)

namespace World.Frames

variable {world : World}

theorem withGenerations (kept : world.ledger.generations.Keeps generations) :
    world.Frames (world.withGenerations generations) :=
  ⟨⟨⟨kept, fun found => ⟨_, found, rfl, rfl⟩, id⟩, id⟩, rfl, rfl⟩

theorem withTables (kept : world.ledger.toTables.Keeps tables) :
    world.Frames (world.withTables tables) :=
  ⟨⟨kept, id⟩, rfl, rfl⟩

theorem beginBuild {extractorVersion : String}
    (begun : world.beginBuild identity full id extractorVersion now = some generations) :
    world.Frames (world.withGenerations generations) := by
  apply withGenerations
  unfold World.beginBuild at begun
  split at begun
  · exact Generations.Keeps.setStatus.trans (.beginGeneration begun)
  · exact .beginGeneration begun

theorem endBuild {extraction : Extraction}
    (ended : world.endBuild id full extraction now = some generations) :
    world.Frames (world.withGenerations generations) := by
  apply withGenerations
  unfold World.endBuild at ended
  split at ended
  · cases ended
  split at ended
  · exact some.inj ended ▸ .setStatus
  split at ended
  · exact some.inj ended ▸ .setStatus
  split at ended
  · exact .completePartialGeneration ended
  · exact .promoteGeneration ended

theorem propose {request : ProposalRequest} {impact : ChangedImpact} {fresh : Nat → String}
    (proposed : world.ledger.proposeFromChangedImpact channel request impact newID fresh =
      .ok tables) : world.Frames (world.withTables tables) := by
  apply withTables
  unfold Tables.proposeFromChangedImpact at proposed
  iterate 3
    split at proposed
    · cases proposed
  exact .createValidationPlanRevision proposed

theorem accept {state : Generation} {proposedID : String} {decisions : List ValidationItemDecision}
    {renew : String → String}
    (accepted : world.ledger.acceptProposal channel identity state proposedID runID decisions newID
      renew = .ok tables) :
    world.Frames (world.withTables tables) := by
  apply withTables
  unfold acceptProposal at accepted
  iterate 3
    split at accepted
    · cases accepted
  split at accepted
  · split at accepted
    · exact Except.ok.inj accepted ▸ .refl
    · cases accepted
  split at accepted
  · cases accepted
  exact .acceptValidationPlanRevision accepted

theorem registerRun {mode : RunMode}
    (registered : world.ledger.registerRun channel identity runID mode = .ok ledger) :
    world.Frames { world with ledger } := by
  unfold Ledger.registerRun at registered
  split at registered
  · cases registered
  split at registered
  · split at registered
    · cases registered
    · exact Except.ok.inj registered ▸ ⟨.refl, rfl, rfl⟩
  · exact Except.ok.inj registered ▸ ⟨⟨.refl, id⟩, rfl, rfl⟩

theorem registerStep {step : RunStep}
    (registered : world.ledger.registerStep channel identity step = .ok ledger) :
    world.Frames { world with ledger } := by
  unfold Ledger.registerStep at registered
  split at registered
  · cases registered
  split at registered
  · cases registered
  split at registered
  · split at registered
    · cases registered
    · exact Except.ok.inj registered ▸ ⟨.refl, rfl, rfl⟩
  next absent =>
  cases registered
  refine ⟨⟨.refl, fun {other old} found => ?_⟩, rfl, rfl⟩
  have different : step.id ≠ other := by
    rintro rfl
    rw [absent] at found
    cases found
  rw [get?_put, if_neg different, found]

end World.Frames

theorem World.step_cases {world next : World} (taken : world.step action = some next) :
    world.Frames next ∨
      (∃ channel identity planID request now,
        action = .linkEvidence channel identity planID request now ∧
        ∃ ledger, world.ledger.linkEvidence channel identity planID request now = .ok ledger ∧
          next = { world with ledger }) ∨
      ∃ identity planID, action = .finalize identity planID ∧
        ∃ ledger, world.ledger.finalizeCompletion identity planID = .ok ledger ∧
          next = { world with ledger } := by
  cases action with
  | edit worktreeID manifest =>
    exact .inl (some.inj taken ▸ ⟨.refl, rfl, rfl⟩)
  | beginBuild identity full id extractorVersion now =>
    obtain ⟨generations, begun, rfl⟩ := map_eq_some_iff.mp taken
    exact .inl (.beginBuild begun)
  | endBuild id full extraction now =>
    obtain ⟨generations, ended, rfl⟩ := map_eq_some_iff.mp taken
    exact .inl (.endBuild ended)
  | markStale id =>
    exact .inl (some.inj taken ▸ .withGenerations Generations.Keeps.setStatus)
  | recordArtifact hash =>
    exact .inl (some.inj taken ▸ ⟨⟨.refl, id⟩, rfl, rfl⟩)
  | propose channel identity generationID request changedSymbols recommendations newID fresh =>
    obtain ⟨generation, _, taken⟩ := bind_eq_some_iff.mp taken
    obtain ⟨tables, proposed, rfl⟩ := map_eq_some_iff.mp taken
    exact .inl (.propose (ok_of_toOption proposed))
  | accept channel identity generationID proposedID runID decisions newID renew =>
    obtain ⟨generation, _, taken⟩ := bind_eq_some_iff.mp taken
    obtain ⟨tables, accepted, rfl⟩ := map_eq_some_iff.mp taken
    exact .inl (.accept (ok_of_toOption accepted))
  | registerRun channel identity id mode =>
    obtain ⟨ledger, registered, rfl⟩ := map_eq_some_iff.mp taken
    exact .inl (.registerRun (ok_of_toOption registered))
  | registerStep channel identity runID id phase iteration status =>
    obtain ⟨ledger, registered, rfl⟩ := map_eq_some_iff.mp taken
    exact .inl (.registerStep (ok_of_toOption registered))
  | linkEvidence channel identity planID request now =>
    obtain ⟨ledger, linked, rfl⟩ := map_eq_some_iff.mp taken
    exact .inr (.inl ⟨channel, identity, planID, request, now, rfl, ledger,
      ok_of_toOption linked, rfl⟩)
  | finalize identity planID =>
    obtain ⟨ledger, finalized, rfl⟩ := map_eq_some_iff.mp taken
    exact .inr (.inr ⟨identity, planID, rfl, ledger, ok_of_toOption finalized, rfl⟩)

/-- The step of the link was registered while the worktree of the plan had the plan's state. -/
def Ledger.Backs (ledger : Ledger) (link : ValidationEvidenceLink) : Prop :=
  ∃ item plan bound step, ledger.items.get? link.validationItemID = some item ∧
    ledger.plans.get? item.planRevisionID = some plan ∧
    ledger.generations.get? plan.generationID = some bound ∧
    ledger.steps.get? link.runStepID = some step ∧
    (step.registeredIn bound.worktreeID).worktreeStateHash = plan.worktreeStateHash

theorem Ledger.Backs.kept {later : Ledger} (backs : ledger.Backs link)
    (keeps : ledger.Keeps later) : later.Backs link := by
  obtain ⟨item, plan, bound, step, isItem, isPlan, isBound, isStep, sameState⟩ := backs
  obtain ⟨laterPlan, isLaterPlan, sameGeneration, samePlanState⟩ := keeps.tables.plan isPlan
  obtain ⟨status, promotedAt, isLaterBound⟩ := keeps.tables.generation _ _ isBound
  rw [← sameGeneration] at isLaterBound
  rw [← samePlanState] at sameState
  exact ⟨item, laterPlan, _, step, keeps.tables.item isItem, isLaterPlan, isLaterBound,
    keeps.step isStep, sameState⟩

def World.Backed (world : World) : Prop :=
  ∀ key link, world.ledger.links.get? key = some link → link.status = .passed →
    world.ledger.Backs link

/-- Passed evidence is linked only to a step that was registered in the state of the plan,
and a report is made final only while the current generation of the plan's worktree is what a
scan would read. -/
def World.Careful (world : World) : Action → Prop
  | .linkEvidence _ _ planID request _ =>
    request.status = .passed → ∀ plan bound step, world.ledger.plans.get? planID = some plan →
      world.ledger.generations.get? plan.generationID = some bound →
      world.ledger.steps.get? request.runStepID = some step →
      (step.registeredIn bound.worktreeID).worktreeStateHash = plan.worktreeStateHash
  | .finalize _ planID =>
    ∀ plan bound current, world.ledger.plans.get? planID = some plan →
      world.ledger.generations.get? plan.generationID = some bound →
      world.ledger.currentGeneration bound.worktreeID = some current →
      current.worktreeStateHash = (world.worktrees bound.worktreeID).worktreeStateHash
  | _ => True

theorem Ledger.upsertLink_keeps : ledger.Keeps (ledger.upsertLink link) := by
  unfold upsertLink
  split
  · exact ⟨.refl, id⟩
  · exact ⟨.refl, id⟩

theorem Ledger.get?_upsertLink {found : ValidationEvidenceLink} {key : String × String}
    (isFound : (ledger.upsertLink link).links.get? key = some found) : found.validationItemID =
    link.validationItemID ∧ found.runStepID = link.runStepID ∧ found.status = link.status ∨
    ledger.links.get? key = some found := by
  unfold upsertLink at isFound
  split at isFound
  all_goals
    rw [get?_put] at isFound
    split at isFound
    · cases isFound
      exact .inl ⟨rfl, rfl, rfl⟩
    · exact .inr isFound

theorem Ledger.mem_itemsOf {item : ValidationItem} (member : item ∈ tables.itemsOf planID) :
    tables.items.get? item.id = some item ∧ item.planRevisionID = planID := by
  unfold Tables.itemsOf at member
  rw [mem_insertionSort, mem_filter] at member
  exact ⟨get?_of_mem member.1, of_decide_eq_true member.2⟩

theorem Ledger.planForCheckout_get? {checkoutID : String}
    (found : ledger.planForCheckout planID checkoutID = some plan) :
    ledger.plans.get? planID = some plan ∧ plan.id = planID ∧
      ∃ bound, ledger.generations.get? plan.generationID = some bound := by
  obtain ⟨isPlan, isFor⟩ := filter_eq_some_iff.mp found
  obtain ⟨bound, isBound, _⟩ := (any_eq_true _ _).mp isFor
  exact ⟨isPlan, get?_key isPlan, bound, isBound⟩

theorem Ledger.linkValidationEvidence_links
    (linked : ledger.linkValidationEvidence link = .ok next) : next = ledger.upsertLink link := by
  unfold linkValidationEvidence at linked
  iterate 9
    split at linked
    · cases linked
  exact (Except.ok.inj linked).symm

theorem Ledger.linkEvidence_links {request : EvidenceRequest}
    (linked : ledger.linkEvidence channel identity planID request now = .ok next) :
    ∃ item plan bound step, ledger.items.get? request.validationItemID = some item ∧
      item.planRevisionID = planID ∧ ledger.plans.get? planID = some plan ∧
      ledger.generations.get? plan.generationID = some bound ∧
      ledger.steps.get? request.runStepID = some step ∧
      next = ledger.upsertLink (request.link plan now) := by
  unfold linkEvidence at linked
  split at linked
  · cases linked
  next plan isPlan =>
  obtain ⟨isPlan, _, bound, isBound⟩ := planForCheckout_get? isPlan
  split at linked
  · cases linked
  split at linked
  · cases linked
  next listed =>
  obtain ⟨item, member, named⟩ : ∃ item ∈ ledger.itemsOf planID,
    item.id = request.validationItemID := by
    simpa using listed
  obtain ⟨isItem, ofPlan⟩ := mem_itemsOf member
  split at linked
  · cases linked
  · cases linked
  next run step _ isStep =>
  split at linked
  · cases linked
  split at linked
  · cases linked
  exact ⟨item, plan, bound, step, named ▸ isItem, ofPlan, isPlan, isBound, isStep,
    linkValidationEvidence_links linked⟩

theorem Ledger.evidenceCoverage_covers {covered : Ledger}
    (isPlan : ledger.plans.get? planID = some plan)
    (isBound : ledger.generations.get? plan.generationID = some bound)
    (covers : ledger.evidenceCoverage planID = .ok (covered, report)) :
    covered.reports = ledger.reports ∧
      report = coverageReport planID (ledger.coverageClaims plan bound) ∧ ledger.Keeps covered ∧
      covered.links = ledger.links := by
  unfold evidenceCoverage at covers
  simp only [isPlan, isBound] at covers
  split at covers
  · cases covers
  cases covers
  exact ⟨rfl, rfl, ⟨⟨.refl, fun found => ⟨_, found, rfl, rfl⟩, id⟩, id⟩, rfl⟩

theorem Ledger.finalizeCompletion_cases
    (finalized : ledger.finalizeCompletion identity planID = .ok next) :
    ledger.Keeps next ∧ next.links = ledger.links ∧ (next.reports = ledger.reports ∨
        ∃ plan bound current, ledger.reports.get? planID = none ∧
          ledger.plans.get? planID = some plan ∧
          ledger.generations.get? plan.generationID = some bound ∧
          ledger.currentGeneration bound.worktreeID = some current ∧
          current.worktreeStateHash = plan.worktreeStateHash ∧
          next.reports =
            ledger.reports.put (coverageReport planID (ledger.coverageClaims plan bound))) := by
  unfold finalizeCompletion at finalized
  split at finalized
  · cases finalized
  next plan isPlan =>
  obtain ⟨isPlan, sameID, _⟩ := planForCheckout_get? isPlan
  rw [sameID] at finalized
  unfold finalizeEvidenceCoverage at finalized
  split at finalized
  · cases finalized
    exact ⟨.refl, rfl, .inl rfl⟩
  next absent =>
  simp only [isPlan] at finalized
  split at finalized
  · cases finalized
  next bound isBound =>
  split at finalized
  · cases finalized
  split at finalized
  · cases finalized
  next unmoved =>
  split at finalized
  · cases finalized
  split at finalized
  · cases finalized
  next covered report covers =>
  obtain ⟨sameReports, isReport, keeps, sameLinks⟩ :=
    evidenceCoverage_covers isPlan isBound covers
  cases finalized
  obtain ⟨nonempty, sameState⟩ := not_or.mp unmoved
  refine ⟨⟨keeps.tables, keeps.step⟩, sameLinks, .inr ?_⟩
  cases isCurrent : ledger.currentGeneration bound.worktreeID with
  | none => exact absurd (by rw [currentState, isCurrent]; rfl) nonempty
  | some current =>
    refine ⟨plan, bound, current, absent, isPlan, isBound, isCurrent, ?_, ?_⟩
    · rw [currentState, isCurrent] at sameState
      exact not_not.mp sameState
    · rw [sameReports, isReport]

theorem exists_passed_of_foldl {links : List ValidationEvidenceLink}
    (covers : links.foldl coverStatus status = .passed) :
    status = .passed ∨ ∃ link ∈ links, link.status = .passed := by
  induction links generalizing status with
  | nil => exact .inl covers
  | cons link links ih =>
    rcases ih covers with passed | ⟨later, isLater, passed⟩
    · unfold coverStatus at passed
      split at passed
      · exact .inr ⟨link, mem_cons_self, passed⟩
      · exact .inl passed
    · exact .inr ⟨later, mem_cons_of_mem _ isLater, passed⟩

theorem claimStatus_eq_supported (supported : status.claimStatus = .supported) :
    status = .passed := by
  cases status <;> first | rfl | cases supported

theorem Ledger.exists_passed_of_verified {claim : CompletionClaim}
    (verified : claim ∈ (coverageReport plan.id (ledger.coverageClaims plan bound)).verified) :
    ∃ item link, ledger.items.get? claim.validationItemID = some item ∧ item.planRevisionID =
    plan.id ∧ ledger.links.get? (claim.validationItemID, link.runStepID) = some link ∧
    link.validationItemID = claim.validationItemID ∧ link.status = .passed := by
  obtain ⟨isClaim, supported⟩ := mem_filter.mp verified
  obtain ⟨item, accepted, rfl⟩ := mem_map.mp isClaim
  obtain ⟨isItem, ofPlan⟩ := mem_itemsOf (mem_filter.mp accepted).1
  have passed := claimStatus_eq_supported (of_decide_eq_true supported)
  split at passed
  · rcases exists_passed_of_foldl passed with started | ⟨link, isLink, passed⟩
    · cases started
    · unfold linksOf at isLink
      rw [mem_insertionSort, mem_filter] at isLink
      obtain ⟨stored, facts⟩ := isLink
      obtain ⟨sameItem, _⟩ := of_decide_eq_true facts
      refine ⟨item, link, isItem, ofPlan, ?_, sameItem, passed⟩
      have found := get?_of_mem stored
      rw [ValidationEvidenceLink.identity, sameItem] at found
      exact found
  · cases passed

theorem World.Backed.step {world next : World} {action : Action} (backed : world.Backed)
    (careful : world.Careful action) (taken : world.step action = some next) : next.Backed := by
  intro key link isLink passed
  rcases World.step_cases taken with frames | ⟨channel, identity, planID, request, now, rfl, ledger,
    linked, rfl⟩ | ⟨identity, planID, rfl, ledger, finalized, rfl⟩
  · rw [frames.links] at isLink
    exact (backed key link isLink passed).kept frames.keeps
  · obtain ⟨item, plan, bound, step, isItem, ofPlan, isPlan, isBound, isStep, rfl⟩ :=
      linkEvidence_links linked
    rcases get?_upsertLink isLink with ⟨sameItem, sameStep, sameStatus⟩ | earlier
    · have sameState := careful (sameStatus.symm.trans passed) plan bound step isPlan isBound isStep
      have backs : world.ledger.Backs link :=
        ⟨item, plan, bound, step, sameItem ▸ isItem, ofPlan ▸ isPlan, isBound, sameStep ▸ isStep,
          sameState⟩
      exact backs.kept upsertLink_keeps
    · exact (backed key link earlier passed).kept upsertLink_keeps
  · obtain ⟨keeps, sameLinks, _⟩ := finalizeCompletion_cases finalized
    rw [sameLinks] at isLink
    exact (backed key link isLink passed).kept keeps

def World.Freezes (world : World) (action : Action) (planID : String) (report : CompletionReport) :
    Prop :=
  world.ledger.reports.get? planID = none ∧
    ∃ next, world.step action = some next ∧ next.ledger.reports.get? planID = some report

theorem World.Freezes.finalizes {world : World} (freezes : world.Freezes action planID report) :
    ∃ identity plan bound current,
      action = .finalize identity planID ∧ world.ledger.plans.get? planID = some plan ∧
      world.ledger.generations.get? plan.generationID = some bound ∧
      world.ledger.currentGeneration bound.worktreeID = some current ∧
      current.worktreeStateHash = plan.worktreeStateHash ∧
      report = coverageReport plan.id (world.ledger.coverageClaims plan bound) := by
  obtain ⟨absent, next, taken, frozen⟩ := freezes
  rcases World.step_cases taken with frames | ⟨channel, identity, other, request, now, rfl, ledger,
    linked, rfl⟩ | ⟨identity, other, rfl, ledger, finalized, rfl⟩
  · rw [frames.reports, absent] at frozen
    cases frozen
  · obtain ⟨item, plan, bound, step, _, _, _, _, _, rfl⟩ := linkEvidence_links linked
    have sameReports : (world.ledger.upsertLink (request.link plan now)).reports =
      world.ledger.reports := by
      unfold upsertLink
      split <;> rfl
    rw [sameReports, absent] at frozen
    cases frozen
  · obtain ⟨_, _, sameReports | ⟨plan, bound, current, _, isPlan, isBound, isCurrent, sameState,
      isReports⟩⟩ := finalizeCompletion_cases finalized
    · rw [sameReports, absent] at frozen
      cases frozen
    · rw [isReports, get?_put] at frozen
      split at frozen
      · next isOther =>
        have sameID : other = planID := isOther
        have planKey : plan.id = other := get?_key isPlan
        subst sameID
        refine ⟨identity, plan, bound, current, rfl, isPlan, isBound, isCurrent, sameState, ?_⟩
        rw [planKey]
        exact (some.inj frozen).symm
      · rw [absent] at frozen
        cases frozen

/-- In every history whose links and final reports are careful, a frozen report is for the
worktree as it is, and what it verifies was registered in that state. -/
theorem frozen_evidence_is_of_accepted_state {start world : World} {action : Action}
    {planID : String} {report : CompletionReport} (unlinked : start.ledger.links = Table.empty)
    (reachable : Reachable World.step World.Careful start world) (careful : world.Careful action)
    (freezes : world.Freezes action planID report) :
    ∃ plan bound, world.ledger.plans.get? planID = some plan ∧
      world.ledger.generations.get? plan.generationID = some bound ∧
      (world.worktrees bound.worktreeID).manifestHash = plan.worktreeStateHash ∧
      ∀ claim ∈ report.verified, claim.requirement ≠ .optional →
        ∃ link step, world.ledger.links.get? (claim.validationItemID, link.runStepID) = some link ∧
          link.status = .passed ∧ world.ledger.steps.get? link.runStepID = some step ∧
          (step.registeredIn bound.worktreeID).manifestHash = plan.worktreeStateHash := by
  have starts : start.Backed := by
    intro key link isLink
    rw [unlinked] at isLink
    cases isLink
  have backed : world.Backed := reachable.invariant starts World.Backed.step
  obtain ⟨identity, plan, bound, current, rfl, isPlan, isBound, isCurrent, sameState, rfl⟩ :=
    freezes.finalizes
  have asScanned := careful plan bound current isPlan isBound isCurrent
  refine ⟨plan, bound, isPlan, isBound, asScanned.symm.trans sameState, ?_⟩
  intro claim verified _
  obtain ⟨item, link, isItem, ofPlan, isLink, sameItem, passed⟩ :=
    exists_passed_of_verified verified
  obtain ⟨backedItem, backedPlan, backedBound, step, isBackedItem, isBackedPlan,
    isBackedBound, isStep,
    registered⟩ := backed _ link isLink passed
  obtain rfl : item = backedItem := by
    rw [sameItem, isItem] at isBackedItem
    exact some.inj isBackedItem
  obtain rfl : plan = backedPlan := by
    rw [ofPlan, get?_key isPlan, isPlan] at isBackedPlan
    exact some.inj isBackedPlan
  obtain rfl : bound = backedBound := by
    rw [isBound] at isBackedBound
    exact some.inj isBackedBound
  exact ⟨link, step, isLink, passed, isStep, registered⟩

def mainIdentity : RepositoryIdentity := ⟨"R", "C", "W", "/w"⟩

def unscannedWorld : World where
  worktrees := fun _ => ⟨"h", "c"⟩
  ledger :=
    { generations := Table.empty
      plans := Table.empty
      items := Table.empty
      claims := Table.empty
      runs := Table.empty
      steps := Table.empty
      artifacts := []
      links := Table.empty
      reports := Table.empty }

def acceptance : List Action :=
  [.beginBuild mainIdentity true "G" "v" 1, .endBuild "G" true .complete 2,
    .propose .cli mainIdentity "G" ⟨"T", "", ""⟩ ["S"] [⟨"tests pass", "", [], []⟩] "P0"
      fun _ => "I0",
    .accept .cli mainIdentity "G" "P0" "" [⟨"I0", .accepted, .required⟩] "P" fun _ => "I",
    .registerRun .cli mainIdentity "N" .readOnly]

def suggestedItem : ValidationItem where
  id := "I0"
  planRevisionID := "P0"
  source := .graph
  disposition := .suggested
  requirement := .optional
  criterion := "tests pass"
  commandArgv := []
  scope := ""
  graphPaths := []
  limitations := []

def requiredItem : ValidationItem :=
  { suggestedItem with
    id := "I", planRevisionID := "P", disposition := .accepted, requirement := .required }

def acceptedWorld : World :=
  { unscannedWorld with
    ledger := { unscannedWorld.ledger with
      generations := Table.empty.put ⟨"G", "R", "C", "W", "h", "c", "v", "h", .current, 1, some 2⟩
      plans := (Table.empty.put ⟨"P0", "T", "", 1, "G", "h", "", ["S"], "", .proposed⟩).put
        ⟨"P", "T", "", 2, "G", "h", "", ["S"], "P0", .accepted⟩
      items := (Table.empty.put suggestedItem).put requiredItem
      runs := Table.empty.put ⟨"N", "/w", .readOnly⟩ } }

variable (worktrees : String → ScanManifest)

def registeredWorld : World where
  worktrees := worktrees
  ledger := { acceptedWorld.ledger with
    steps := Table.empty.put ⟨"S", "N", .verify, 1, .completed, worktrees⟩ }

def linkedWorld : World where
  worktrees := worktrees
  ledger := { (registeredWorld worktrees).ledger with
    links := Table.empty.put ⟨"I", "N", "S", "", "h", "", .passed, 3⟩ }

def registerAction : Action := .registerStep .cli mainIdentity "N" "S" .verify 1 .completed

def linkAction : Action := .linkEvidence .cli mainIdentity "P" ⟨"I", "N", "S", "", .passed⟩ 3

def finalizeAction : Action := .finalize mainIdentity "P"

def verifiedClaim : CompletionClaim := ⟨"I", "", .supported, "h", [], "tests pass", .required⟩

def verifiedReport : CompletionReport := ⟨"P", [verifiedClaim], [], true⟩

theorem linkedWorld_freezes : (linkedWorld worktrees).Freezes finalizeAction "P" verifiedReport :=
  ⟨rfl, _, rfl, rfl⟩

theorem acceptedWorld_reachable :
    Reachable World.step World.Careful unscannedWorld acceptedWorld := by
  have started := reachable_start World.step World.Careful unscannedWorld
  have begun := started.next (.beginBuild mainIdentity true "G" "v" 1) trivial rfl
  have promoted := begun.next (.endBuild "G" true .complete 2) trivial rfl
  have proposed := promoted.next (.propose .cli mainIdentity "G" ⟨"T", "", ""⟩ ["S"]
    [⟨"tests pass", "", [], []⟩] "P0" fun _ => "I0") trivial rfl
  have accepted := proposed.next (.accept .cli mainIdentity "G" "P0" ""
    [⟨"I0", .accepted, .required⟩] "P" fun _ => "I") trivial rfl
  exact accepted.next (.registerRun .cli mainIdentity "N" .readOnly) trivial rfl

theorem linkedWorld_reachable :
    Reachable World.step World.Careful unscannedWorld (linkedWorld unscannedWorld.worktrees) := by
  have registered : Reachable World.step World.Careful unscannedWorld
      (registeredWorld unscannedWorld.worktrees) :=
    acceptedWorld_reachable.next registerAction trivial rfl
  refine registered.next linkAction ?_ rfl
  intro _ plan bound step isPlan isBound isStep
  cases isPlan
  cases isBound
  cases isStep
  rfl

theorem frozen_evidence_is_of_accepted_state_unmoved :
    ∃ plan bound, (linkedWorld unscannedWorld.worktrees).ledger.plans.get? "P" = some plan ∧
      (linkedWorld unscannedWorld.worktrees).ledger.generations.get? plan.generationID =
        some bound ∧
      (unscannedWorld.worktrees bound.worktreeID).manifestHash = plan.worktreeStateHash := by
  have careful : (linkedWorld unscannedWorld.worktrees).Careful finalizeAction := by
    intro plan bound current isPlan isBound isCurrent
    cases isPlan
    cases isBound
    cases isCurrent
    rfl
  obtain ⟨plan, bound, isPlan, isBound, sameState, _⟩ :=
    frozen_evidence_is_of_accepted_state rfl linkedWorld_reachable careful
      (linkedWorld_freezes unscannedWorld.worktrees)
  exact ⟨plan, bound, isPlan, isBound, sameState⟩

/-- Whatever is edited, scanned, accepted, registered, linked or made final afterwards, a frozen
report stays what it is. -/
theorem frozen_report_is_final {start world : World} {planID : String} {report : CompletionReport}
    (frozen : start.ledger.reports.get? planID = some report)
    (reachable : Reachable World.step anyStep start world) :
    world.ledger.reports.get? planID = some report := by
  induction reachable with
  | initial => exact frozen
  | after _ _ taken kept =>
    rcases World.step_cases taken with frames | ⟨_, _, _, _, _, _, _, linked, rfl⟩ |
      ⟨_, other, _, _, finalized, rfl⟩
    · rw [frames.reports, kept]
    · obtain ⟨_, _, _, _, _, _, _, _, _, rfl⟩ := linkEvidence_links linked
      unfold upsertLink
      split <;> exact kept
    · obtain ⟨_, _, same | ⟨_, _, _, absent, _, _, _, _, isReports⟩⟩ :=
        finalizeCompletion_cases finalized
      · rw [same, kept]
      · -- The plan that gets a report has none yet, so it is another one.
        have different : other ≠ planID := by
          rintro rfl
          exact absurd (absent.symm.trans kept) (by simp)
        rw [isReports, get?_put]
        exact (if_neg different).trans kept

theorem frozen_report_is_final_edited :
    ∃ frozen edited, (linkedWorld unscannedWorld.worktrees).step finalizeAction = some frozen ∧
      frozen.step (.edit "W" ⟨"h2", "c"⟩) = some edited ∧
      edited.ledger.reports.get? "P" = some verifiedReport := by
  obtain ⟨_, frozen, taken, isReport⟩ := linkedWorld_freezes unscannedWorld.worktrees
  exact ⟨frozen, _, taken, rfl, frozen_report_is_final isReport
    ((reachable_start _ _ _).next (.edit "W" ⟨"h2", "c"⟩) trivial rfl)⟩

def editedWorktrees : String → ScanManifest :=
  Function.update unscannedWorld.worktrees "W" ⟨"h2", "c"⟩

/-- A step is registered, linked and frozen after the worktree was edited. -/
theorem frozen_evidence_is_of_other_state :
    ∃ world plan bound, run World.step anyStep unscannedWorld
        (acceptance ++ [.edit "W" ⟨"h2", "c"⟩, registerAction, linkAction]) = some world ∧
      world.Freezes finalizeAction "P" verifiedReport ∧
      world.ledger.plans.get? "P" = some plan ∧
      world.ledger.generations.get? plan.generationID = some bound ∧
      plan.worktreeStateHash = "h" ∧ (world.worktrees bound.worktreeID).manifestHash = "h2" ∧
      verifiedClaim ∈ verifiedReport.verified ∧ verifiedClaim.requirement = .required ∧
      ∀ link step, world.ledger.links.get? ("I", link.runStepID) = some link →
        world.ledger.steps.get? link.runStepID = some step →
        (step.registeredIn bound.worktreeID).manifestHash = "h2" := by
  refine ⟨linkedWorld editedWorktrees, _, _, rfl, linkedWorld_freezes _, rfl, rfl, rfl, rfl,
    mem_singleton_self _, rfl, ?_⟩
  intro link step _ isStep
  have registered : (linkedWorld editedWorktrees).ledger.steps.get? link.runStepID =
      if "S" = link.runStepID then some ⟨"S", "N", .verify, 1, .completed, editedWorktrees⟩
        else none :=
    get?_put
  rw [registered] at isStep
  split at isStep
  · cases isStep
    rfl
  · cases isStep

end OpenExec.Validation
