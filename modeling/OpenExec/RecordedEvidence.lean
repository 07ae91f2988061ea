import OpenExec.CompletionEvidence

/-!
# The latest evidence of an item

The verdict of an item is read off its links in the order of their timestamps.
-/

namespace OpenExec.Validation

open KeyedRows GuardedRuns Ledger List

def EvidenceStatus.isSilent (status : EvidenceStatus) : Bool :=
  status = .notRun || status = .unavailable

/-- The links of one item with the ledger, the one recorded last first. -/
structure History where
  ledger : Ledger
  recent : List ValidationEvidenceLink

def History.record (history : History) (link : ValidationEvidenceLink) : Option History :=
  match history.ledger.linkValidationEvidence link with
  | .error _ => none
  | .ok next => some ⟨next, link :: history.recent.filter (·.runStepID ≠ link.runStepID)⟩

/-- What recorded statuses say of an item, the latest first. -/
def verdict (statuses : List EvidenceStatus) : EvidenceStatus :=
  if .failed ∈ statuses then .failed
  else (statuses.find? (!·.isSilent)).getD (statuses.headD .notRun)

variable {itemID stateHash : String}

/-- A first link of a step, later by the clock than the others of the item, that is not silent
in another way than those are. -/
structure Orderly (itemID stateHash : String) (history : History) (link : ValidationEvidenceLink) :
    Prop where
  item : link.validationItemID = itemID ∧ link.worktreeStateHash = stateHash
  unlinked : history.ledger.links.get? link.identity = none
  later : ∀ other ∈ history.ledger.linksOf itemID stateHash, other.createdAt < link.createdAt
  silence : ∀ other ∈ history.ledger.linksOf itemID stateHash,
    link.status.isSilent → other.status.isSilent → other.status = link.status

theorem insertionSort_append_greatest {α : Type} {r : α → α → Prop} [DecidableRel r] {rows : List α}
    {row : α} (greatest : ∀ other ∈ rows, ¬ r other row) :
    (rows ++ [row]).insertionSort r = row :: rows.insertionSort r := by
  induction rows with
  | nil => rfl
  | cons other rest ih =>
    have ⟨less, others⟩ := forall_mem_cons.mp greatest
    rw [cons_append, insertionSort_cons, ih others, orderedInsert, if_neg less]
    rfl

/-- A status that is not silent stands until a failure, a silent one until the next link. -/
theorem foldl_coverStatus {links : List ValidationEvidenceLink} {status : EvidenceStatus}
    (agree : status.isSilent → ∀ link ∈ links, link.status.isSilent → link.status = status) :
    links.foldl coverStatus status = verdict (status :: links.map (·.status)) := by
  induction links generalizing status with
  | nil => cases status <;> rfl
  | cons link rest ih =>
    rw [foldl_cons, map_cons]
    by_cases silent : status.isSilent
    · obtain ⟨first, others⟩ := forall_mem_cons.mp (agree silent)
      have covered : coverStatus status link = link.status := by
        cases status <;> simp_all [coverStatus, EvidenceStatus.isSilent]
      have unfailed : EvidenceStatus.failed ≠ status := by
        rintro rfl
        cases silent
      rw [covered, ih fun linkSilent => first linkSilent ▸ others]
      by_cases linkSilent : link.status.isSilent
      · simp [verdict, silent, first linkSilent]
      · simp [verdict, silent, linkSilent, unfailed]
    · by_cases failed : link.status = .failed
      · have covered : coverStatus status link = .failed := by simp [coverStatus, failed]
        rw [covered, ih fun isSilent => absurd isSilent (by decide)]
        simp [verdict, failed]
      · have covered : coverStatus status link = status := by
          cases status <;> simp_all [coverStatus, EvidenceStatus.isSilent]
        rw [covered, ih fun isSilent => absurd isSilent silent]
        simp [verdict, silent, Ne.symm failed]

theorem History.record_recent {history next : History} {link : ValidationEvidenceLink}
    (same : history.ledger.linksOf itemID stateHash = history.recent)
    (orderly : Orderly itemID stateHash history link) (recorded : history.record link = some next) :
    next.ledger.linksOf itemID stateHash = next.recent ∧ next.recent = link :: history.recent := by
  obtain ⟨⟨isItem, isState⟩, unlinked, later, _⟩ := orderly
  unfold record at recorded
  split at recorded
  · cases recorded
  next ledger linked =>
  cases recorded
  have absent : link.identity ∉ history.ledger.links.rows.map ValidationEvidenceLink.identity :=
    row?_eq_none_iff.mp unlinked
  have kept : history.recent.filter (·.runStepID ≠ link.runStepID) = history.recent := by
    rw [filter_eq_self]
    intro other member
    rw [← same, linksOf, mem_insertionSort, mem_filter, decide_eq_true_eq] at member
    simp only [decide_eq_true_eq]
    intro again
    have named : other.identity = link.identity := Prod.ext (member.2.1.trans isItem.symm) again
    exact absent (named ▸ mem_map_of_mem member.1)
  have written : ledger.links.rows = history.ledger.links.rows ++ [link] := by
    rw [linkValidationEvidence_links linked, upsertLink, unlinked]
    exact if_neg absent
  rw [kept]
  refine ⟨?_, rfl⟩
  rw [linksOf, written, filter_append, filter_cons_of_pos (by simp [isItem, isState]), filter_nil,
    insertionSort_append_greatest, ← same, linksOf]
  intro other member earlier
  exact Nat.not_lt.mpr earlier (later other ((mem_insertionSort _).mpr member))

/-- In a history of orderly links the verdict is that of the links in the order recorded. -/
theorem later_evidence_outranks_earlier (start : Ledger) (itemID stateHash : String)
    (unlinked : start.linksOf itemID stateHash = []) {history : History}
    (reachable : Reachable History.record (Orderly itemID stateHash) ⟨start, []⟩ history) :
    (history.ledger.coverageForItem itemID stateHash).1 =
      verdict (history.recent.map (·.status)) := by
  have ordered : history.ledger.linksOf itemID stateHash = history.recent ∧
      history.recent.Pairwise fun link other =>
        link.status.isSilent → other.status.isSilent → other.status = link.status := by
    induction reachable with
    | initial => exact ⟨unlinked, .nil⟩
    | after _ orderly recorded ih =>
      obtain ⟨same, isNext⟩ := History.record_recent ih.1 orderly recorded
      rw [isNext, pairwise_cons]
      exact ⟨same.trans isNext, ih.1 ▸ orderly.silence, ih.2⟩
  obtain ⟨same, agree⟩ := ordered
  rw [coverageForItem, same]
  cases isRecent : history.recent with
  | nil => rfl
  | cons link rest =>
    rw [isRecent, pairwise_cons] at agree
    exact foldl_coverStatus fun silent other member => agree.1 other member silent

def linkable : Ledger :=
  { acceptedWorld.ledger with
    steps := (registeredWorld acceptedWorld.worktrees).ledger.steps.put
      ⟨"T", "N", .verify, 2, .inconclusive, acceptedWorld.worktrees⟩ }

def evidence (step : String) (status : EvidenceStatus) (now : Nat) : ValidationEvidenceLink :=
  ⟨"I", "N", step, "", "h", "", status, now⟩

/-- Two steps linked one after the other: the later, inconclusive one counts. -/
theorem orderly_evidence_outranks : .inconclusive =
    (((linkable.upsertLink (evidence "S" .passed 3)).upsertLink
      (evidence "T" .inconclusive 4)).coverageForItem "I" "h").1 := by
  have first : Orderly "I" "h" ⟨linkable, []⟩ (evidence "S" .passed 3) :=
    ⟨⟨rfl, rfl⟩, rfl, nofun, nofun⟩
  have second : Orderly "I" "h"
      ⟨linkable.upsertLink (evidence "S" .passed 3), [evidence "S" .passed 3]⟩
      (evidence "T" .inconclusive 4) :=
    ⟨⟨rfl, rfl⟩, by decide +kernel, by decide +kernel, by decide +kernel⟩
  exact (later_evidence_outranks_earlier linkable "I" "h" rfl
    (.after (.after .initial first rfl) second rfl)).symm

/-- Linking a step again does not make its evidence the latest. -/
theorem evidence_linked_again_outranked : (run History.record anyStep ⟨linkable, []⟩
        [evidence "S" .passed 3, evidence "T" .inconclusive 4, evidence "S" .passed 5]).map
      (fun history => (verdict (history.recent.map (·.status)),
        (history.ledger.coverageForItem "I" "h").1)) = some (.passed, .inconclusive) := by
  decide +kernel

end OpenExec.Validation
