import Mathlib.Data.Char
import OpenExec.OrderedQueries

/-!
# Resuming a run from a checkpoint

Checkpoints carry the text of their instant.  The layout drops the trailing zeros
of the nanoseconds, and the latest checkpoint is the one whose text is greatest.
-/

namespace OpenExec.StateStore

open OrderedQueries List Option

/-- A UTC instant: the characters of its date and time of day, which are in the order
of the seconds, and the nine digits of its nanoseconds. -/
structure Instant where
  civil : List Char
  nanos : List Char
  fixedWidth : civil.length = 19
  nine : nanos.length = 9
  digits : ∀ c ∈ nanos, '0' ≤ c ∧ c ≤ '9'

def trimZeros : List Char → List Char
  | [] => []
  | c :: rest => if trimZeros rest = [] ∧ c = '0' then [] else c :: trimZeros rest

/-- The layout `time.RFC3339Nano` of a UTC instant. -/
def Instant.text (instant : Instant) : List Char :=
  instant.civil ++
    ((if trimZeros instant.nanos = [] then [] else '.' :: trimZeros instant.nanos) ++ ['Z'])

structure Checkpoint where
  id : String
  runID : String
  instant : Instant
  phase : String := ""
  iteration : Int := 0

def Checkpoint.Later (first second : Checkpoint) : Prop :=
  ¬ first.instant.text < second.instant.text

instance : DecidableRel Checkpoint.Later :=
  fun _ _ => inferInstanceAs (Decidable (¬ _))

instance : Std.Total Checkpoint.Later where
  total _ _ := List.le_total _ _

instance : IsTrans Checkpoint Checkpoint.Later where
  trans _ _ _ first second := List.le_trans second first

variable (latest : OrderBy Checkpoint.Later) (rows : List Checkpoint) (runID : String)

def getLatestCheckpoint : Option Checkpoint :=
  latest.first (rows.filter (·.runID = runID))

def getCheckpointByID (id : String) : Option Checkpoint :=
  rows.find? (·.id = id)

/-- The checkpoint that an accepted request starts the run with. -/
def handleResumeRun (checkpointID : String) : Option Checkpoint :=
  if checkpointID ≠ "" then getCheckpointByID rows checkpointID
  else getLatestCheckpoint latest rows runID

def Instant.Before (first second : Instant) : Prop :=
  first.civil < second.civil ∨ first.civil = second.civil ∧ first.nanos < second.nanos

/-- The first instant is the second one cut off after some of its digits. -/
def Instant.CutOf (first second : Instant) : Prop :=
  first.civil = second.civil ∧ trimZeros first.nanos <+: trimZeros second.nanos

section

variable {first second : List Char}

theorem append_lt_append_iff {firstRest secondRest : List Char}
    (sameLength : first.length = second.length) : first ++ firstRest < second ++ secondRest ↔
      first < second ∨ first = second ∧ firstRest < secondRest := by
  induction first generalizing second with
  | nil => simp [eq_nil_of_length_eq_zero sameLength.symm]
  | cons c first ih =>
    obtain ⟨d, second, rfl⟩ := exists_cons_of_length_eq_add_one sameLength.symm
    rw [length_cons, length_cons, Nat.add_right_cancel_iff] at sameLength
    simp only [cons_append, cons_lt_cons_iff, ih sameLength, cons.injEq]
    tauto

theorem trimZeros_ne_nil (digits : ∀ c ∈ first, '0' ≤ c) (sameLength : first.length = second.length)
    (lower : first < second) : trimZeros second ≠ [] := by
  induction first generalizing second with
  | nil => simp [eq_nil_of_length_eq_zero sameLength.symm] at lower
  | cons c first ih =>
    obtain ⟨d, second, rfl⟩ := exists_cons_of_length_eq_add_one sameLength.symm
    rw [trimZeros]
    split
    · next zeros =>
      obtain ⟨zeros, rfl⟩ := zeros
      rcases cons_lt_cons_iff.mp lower with less | ⟨_, lower⟩
      · exact absurd less (not_lt.mpr (digits c mem_cons_self))
      · exact absurd zeros (ih (fun c member => digits c (mem_cons_of_mem _ member))
          (Nat.succ.inj sameLength) lower)
    · simp

theorem trimZeros_order (firstDigits : ∀ c ∈ first, '0' ≤ c) (digits : ∀ c ∈ second, c ≤ '9')
    (sameLength : first.length = second.length) (lower : first < second) :
    if trimZeros first <+: trimZeros second then
      trimZeros second ++ ['Z'] < trimZeros first ++ ['Z']
    else trimZeros first ++ ['Z'] < trimZeros second ++ ['Z'] := by
  induction first generalizing second with
  | nil => simp [eq_nil_of_length_eq_zero sameLength.symm] at lower
  | cons c first ih =>
    obtain ⟨d, second, rfl⟩ := exists_cons_of_length_eq_add_one sameLength.symm
    have kept : trimZeros (d :: second) = d :: trimZeros second := by
      have some := trimZeros_ne_nil firstDigits sameLength lower
      rw [trimZeros] at some ⊢
      split at some <;> simp_all
    have belowZ : d < 'Z' := lt_of_le_of_lt (digits d mem_cons_self) (by decide)
    rw [kept, trimZeros]
    split
    · simp [cons_lt_cons_iff, belowZ]
    simp only [cons_append, cons_lt_cons_iff, cons_prefix_cons]
    rcases cons_lt_cons_iff.mp lower with less | ⟨rfl, restLower⟩
    · simp [less, less.ne]
    · simpa using ih (fun c member => firstDigits c (mem_cons_of_mem _ member))
        (fun c member => digits c (mem_cons_of_mem _ member)) (Nat.succ.inj sameLength)
        restLower

end

instance (first second : Instant) : Decidable (first.CutOf second) :=
  inferInstanceAs (Decidable (_ ∧ _))

theorem Instant.text_order {first second : Instant} (before : first.Before second) :
    if first.CutOf second then second.text < first.text else first.text < second.text := by
  have widths := first.fixedWidth.trans second.fixedWidth.symm
  have lengths := first.nine.trans second.nine.symm
  have digits := fun c member => (first.digits c member).1
  rw [text, text, append_lt_append_iff widths, append_lt_append_iff widths.symm]
  unfold CutOf
  rcases before with earlier | ⟨same, lower⟩
  · have different : first.civil ≠ second.civil := fun same => List.lt_irrefl _ (same ▸ earlier)
    simp [earlier, different]
  · have fractions := trimZeros_order digits (fun c member => (second.digits c member).2)
      lengths lower
    rw [if_neg (trimZeros_ne_nil digits lengths lower)]
    by_cases none : trimZeros first.nanos = []
    · simp [none, same, cons_lt_cons_iff]
    · simpa [none, same, List.lt_irrefl] using fractions

theorem first_is_last_iff {own : List Checkpoint}
    (increasing : own.Pairwise fun first second => first.instant.Before second.instant) :
    (∀ started ∈ latest.first own, own.getLast? = some started) ↔
      ∀ last ∈ own.getLast?, ∀ other ∈ own.dropLast, ¬ other.instant.CutOf last.instant := by
  rcases eq_nil_or_concat own with rfl | ⟨init, last, rfl⟩
  · simp [OrderBy.first, (latest.perm []).eq_nil]
  · rw [concat_eq_append] at increasing ⊢
    have before : ∀ other ∈ init, other.instant.Before last.instant := fun other member =>
      (pairwise_append.mp increasing).2.2 other member last mem_cons_self
    obtain ⟨started, found⟩ : ∃ started, latest.first (init ++ [last]) = some started := by
      rw [OrderBy.first, ← isSome_iff_exists, isSome_head?]
      simp [← length_eq_zero_iff, (latest.perm (init ++ [last])).length_eq]
    simp only [found, getLast?_append, getLast?_singleton, some_or, mem_def,
      Option.some.injEq, forall_eq', dropLast_concat]
    constructor
    · rintro rfl other member cut
      have order := Instant.text_order (before other member)
      rw [if_pos cut] at order
      rcases latest.first_before found (mem_append_left _ member) with rfl | later
      · exact List.lt_irrefl _ order
      · exact later order
    · intro noCut
      rcases mem_append.mp (latest.first_mem found) with member | isLast
      · have order := Instant.text_order (before started member)
        rw [if_neg (noCut started member)] at order
        rcases latest.first_before found (mem_append_right _ mem_cons_self) with same | later
        · exact same
        · exact absurd order later
      · exact (mem_singleton.mp isLast).symm

/-- Named checkpoints are the run's own, and the last one recorded is not later than
another of the same second by further digits only. -/
def Resumable (rows : List Checkpoint) (runID checkpointID : String) : Prop :=
  if checkpointID ≠ "" then ∀ named ∈ getCheckpointByID rows checkpointID, named.runID = runID
  else ∀ last ∈ (rows.filter (·.runID = runID)).getLast?,
    ∀ other ∈ (rows.filter (·.runID = runID)).dropLast, ¬ other.instant.CutOf last.instant

theorem resumes_own_latest_iff {rows : List Checkpoint}
    (increasing : rows.Pairwise fun first second => first.instant.Before second.instant)
    (latest : OrderBy Checkpoint.Later) (runID checkpointID : String) :
    (∀ started ∈ handleResumeRun latest rows runID checkpointID, started.runID = runID ∧
      (checkpointID = "" → (rows.filter (·.runID = runID)).getLast? = some started)) ↔
    Resumable rows runID checkpointID := by
  unfold handleResumeRun Resumable
  split
  · next named => simp [named]
  next unnamed =>
  rw [← first_is_last_iff latest (increasing.filter (·.runID = runID))]
  apply forall₂_congr
  intro started found
  have own := (mem_filter.mp (latest.first_mem found)).2
  simp_all

def tenths (digit : Char) (isDigit : '0' ≤ digit ∧ digit ≤ '9') : Instant where
  civil := "2026-01-02T03:04:05".toList
  nanos := digit :: List.replicate 8 '0'
  fixedWidth := by decide +kernel
  nine := rfl
  digits := by simp [isDigit]

theorem resumes_own_latest_later :
    (handleResumeRun (.stable _) [⟨"c-1", "R", tenths '1' (by decide), "", 0⟩,
      ⟨"c-2", "R", tenths '2' (by decide), "", 0⟩] "R" "").map Checkpoint.id = some "c-2" ∧
    Resumable [⟨"c-1", "R", tenths '1' (by decide), "", 0⟩,
      ⟨"c-2", "R", tenths '2' (by decide), "", 0⟩] "R" "" := by
  refine ⟨by decide +kernel, (resumes_own_latest_iff ?_ (.stable _) "R" "").mp ?_⟩
  · exact pairwise_pair.mpr (.inr ⟨rfl, by decide⟩)
  · intro started found
    cases found
    exact ⟨rfl, fun _ => rfl⟩

/-- A full second has a later text than a tenth after it, and a named checkpoint may be
another run's. -/
theorem resumes_from_wrong_checkpoint :
    (handleResumeRun (.stable _) [⟨"c-1", "R", tenths '0' (by decide), "", 0⟩,
      ⟨"c-2", "R", tenths '1' (by decide), "", 0⟩] "R" "").map Checkpoint.id = some "c-1" ∧
    (handleResumeRun (.stable _) [⟨"c-3", "S", tenths '0' (by decide), "", 0⟩] "R" "c-3").map
      Checkpoint.runID = some "S" := by
  decide +kernel

end OpenExec.StateStore
