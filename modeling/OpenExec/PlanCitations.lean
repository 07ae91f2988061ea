import OpenExec.PlanRemappingFixedPoint

/-!
# What remapping does to the citations of a plan

Stories cite their goal and the stories they depend on, tasks the tasks they depend on.
-/

namespace OpenExec.Planner

open FiniteRenaming Release List

inductive CitationKind where
  | goal | dependency

variable {plan : ProjectPlan} {kind : CitationKind} {row reference : String} {refs : Refs}

inductive Cites (plan : ProjectPlan) : CitationKind → String → String → Prop
  | goal {story : Story} (listed : story ∈ plan.stories) :
      Cites plan .goal story.id story.goalID
  | story {story : Story} {reference : String} (listed : story ∈ plan.stories)
      (cited : reference ∈ story.dependsOn) : Cites plan .dependency story.id reference
  | task {story : Story} {task : Task} {reference : String} (listed : story ∈ plan.stories)
      (owned : task ∈ story.tasks) (cited : reference ∈ task.dependsOn) :
      Cites plan .dependency task.id reference

theorem Cites.listed (cites : Cites plan kind row reference) : row ∈ plan.ids := by
  cases cites with
  | goal listed | story listed _ => exact ProjectPlan.story_mem_ids listed
  | task listed owned _ => exact ProjectPlan.task_mem_ids listed owned

def ProjectPlan.rewriteAll (plan : ProjectPlan) (refs : Refs) : ProjectPlan :=
  { plan with
    goals := plan.goals.map (Goal.rewrite refs)
    stories := plan.stories.map (Story.rewrite refs) }

theorem cites_rewriteAll :
    Cites (plan.rewriteAll refs) kind row reference ↔
      ∃ source cited, Cites plan kind source cited ∧ rename refs source = row ∧
        rename refs cited = reference := by
  constructor
  · intro cites
    cases cites with
    | goal listed =>
      obtain ⟨story, member, rfl⟩ := mem_map.mp listed
      exact ⟨_, _, Cites.goal member, rfl, rfl⟩
    | story listed cited =>
      obtain ⟨story, member, rfl⟩ := mem_map.mp listed
      obtain ⟨original, originalMem, rfl⟩ := mem_map.mp cited
      exact ⟨_, _, Cites.story member originalMem, rfl, rfl⟩
    | task listed owned cited =>
      obtain ⟨story, member, rfl⟩ := mem_map.mp listed
      obtain ⟨task, taskMem, rfl⟩ := mem_map.mp owned
      obtain ⟨original, originalMem, rfl⟩ := mem_map.mp cited
      exact ⟨_, _, Cites.task member taskMem originalMem, rfl, rfl⟩
  · rintro ⟨source, cited, cites, rfl, rfl⟩
    cases cites with
    | goal listed =>
      exact @Cites.goal (plan.rewriteAll refs) _ (mem_map_of_mem listed)
    | story listed cited =>
      exact @Cites.story (plan.rewriteAll refs) _ _ (mem_map_of_mem listed)
        (mem_map_of_mem cited)
    | task listed owned cited =>
      exact @Cites.task (plan.rewriteAll refs) _ _ _ (mem_map_of_mem listed)
        (mem_map_of_mem owned) (mem_map_of_mem cited)

/-- Citations under a separated renaming: carried along, or captured because
the new identifier is spelled by a reference that named no row. -/
theorem cites_rewriteAll_iff (separated : Separated plan.ids refs)
    (changed : names refs ⊆ plan.ids) {target : String} (rowMem : row ∈ plan.ids)
    (targetMem : target ∈ plan.ids) :
    Cites (plan.rewriteAll refs) kind (rename refs row) (rename refs target) ↔
      Cites plan kind row target ∨
        (Cites plan kind row (rename refs target) ∧ rename refs target ∉ plan.ids) := by
  rw [cites_rewriteAll]
  constructor
  · rintro ⟨source, cited, cites, sameRow, sameTarget⟩
    obtain rfl := separated.rename_injOn cites.listed rowMem sameRow
    rcases (separated.rename_eq_rename_iff changed targetMem cited).mp sameTarget with
      rfl | ⟨unlisted, rfl⟩
    · exact .inl cites
    · exact .inr ⟨cites, unlisted⟩
  · rintro (cites | ⟨cites, unlisted⟩)
    · exact ⟨row, target, cites, rfl, rfl⟩
    · exact ⟨row, _, cites, rfl, rename_of_not_mem fun member => unlisted (changed member)⟩

theorem renamable_of_unique (unique : uniquePlanIDs plan) (nothing : plan.continues = []) :
    Renamable plan := by
  have all : comparedIDs plan = plan.ids := by
    simp [comparedIDs, comparedGoals, ownStories, nothing, ProjectPlan.ids, ProjectPlan.goalIDs]
  obtain ⟨nonempty, nodup⟩ := (uniquePlanIDs_iff plan).mp unique
  refine ⟨all ▸ nodup, all ▸ nonempty, ?_⟩
  simp [nothing]

theorem rewritePlanRefs_of_no_continues (nothing : plan.continues = []) (refs : Refs) :
    rewritePlanRefs plan refs = plan.rewriteAll refs := by
  have goals : Goal.render plan.continues refs = Goal.rewrite refs := by
    funext goal
    simp [Goal.render, nothing]
  have stories : Story.render plan.continues refs = Story.rewrite refs := by
    funext story
    simp [Story.render, nothing]
  rw [rewritePlanRefs, goals, stories, ProjectPlan.rewriteAll]

/-- Remapping is a consistent injective renaming up to captured references. -/
theorem remapContentIDs_renames (ledger : Ledger) (plan : ProjectPlan)
    (unique : uniquePlanIDs plan = true) (nothing : plan.continues = []) :
    remapRound ledger plan (remapFinal ledger plan) = none ∧ ∃ refs : Refs,
      remapContentIDs ledger plan = plan.rewriteAll refs ∧
      (∀ first ∈ plan.ids, ∀ second ∈ plan.ids,
        rename refs first = rename refs second → first = second) ∧
      (∀ kind, ∀ row ∈ plan.ids, ∀ target ∈ plan.ids,
        (Cites (remapContentIDs ledger plan) kind (rename refs row) (rename refs target) ↔
          Cites plan kind row target ∨
            (Cites plan kind row (rename refs target) ∧ rename refs target ∉ plan.ids))) ∧
      ∀ id, reviewedIdentityConflicts ledger (remapContentIDs ledger plan) id = false := by
  have renamable := renamable_of_unique unique nothing
  obtain ⟨consistent, finished⟩ := remapFinal_consistent ledger renamable
  have rendered : remapContentIDs ledger plan = plan.rewriteAll (remapRefs ledger plan) :=
    rewritePlanRefs_of_no_continues nothing _
  refine ⟨finished, remapRefs ledger plan, rendered, ?_, ?_, remapContentIDs_no_conflict renamable⟩
  · intro first firstMem second secondMem same
    exact consistent.separated.rename_injOn firstMem secondMem same
  · intro kind row rowMem target targetMem
    rw [rendered]
    exact cites_rewriteAll_iff consistent.separated consistent.changed rowMem targetMem

def oneGoalLedger : Ledger :=
  { Ledger.empty with
    goals := [{ id := "G-001", title := "Billing" }]
    goalsUnique := by decide }

/-- A plan whose goal collides with it and whose story cites `G-002`, which
neither the plan nor the ledger lists. -/
def danglingPlan : ProjectPlan where
  goals := [{ id := "G-001", title := "Search" }]
  stories := [{ id := "US-001", title := "Index", goalID := "G-002" }]

theorem remapContentIDs_renames_danglingPlan :
    ∃ refs : Refs, remapContentIDs oneGoalLedger danglingPlan = danglingPlan.rewriteAll refs ∧
      ∀ id,
        reviewedIdentityConflicts oneGoalLedger (remapContentIDs oneGoalLedger danglingPlan) id =
        false := by
  obtain ⟨_, refs, rendered, _, _, clean⟩ :=
    remapContentIDs_renames oneGoalLedger danglingPlan (by decide) rfl
  exact ⟨refs, rendered, clean⟩

theorem remapContentIDs_danglingPlan : remapContentIDs oneGoalLedger danglingPlan =
      { danglingPlan with goals := [{ id := "G-002", title := "Search" }] } := by
  decide

/-- The story that cited no row of the plan cites the moved goal afterwards. -/
theorem remapContentIDs_captures_reference :
    uniquePlanIDs danglingPlan = true ∧ danglingPlan.continues = [] ∧ ¬ ∃ r : String → String,
      (remapContentIDs oneGoalLedger danglingPlan).goals.map Goal.id =
        danglingPlan.goals.map (fun goal => r goal.id) ∧
      (remapContentIDs oneGoalLedger danglingPlan).stories.map Story.id =
        danglingPlan.stories.map (fun story => r story.id) ∧
      ∀ kind, ∀ row ∈ danglingPlan.ids, ∀ target ∈ danglingPlan.ids,
        (Cites (remapContentIDs oneGoalLedger danglingPlan) kind (r row) (r target) ↔
          Cites danglingPlan kind row target) := by
  refine ⟨by decide, rfl, ?_⟩
  rintro ⟨r, goals, stories, citations⟩
  rw [remapContentIDs_danglingPlan] at goals stories citations
  have movedGoal : r "G-001" = "G-002" := by simpa [danglingPlan, eq_comm] using goals
  have sameStory : r "US-001" = "US-001" := by simpa [danglingPlan, eq_comm] using stories
  have captured := (citations .goal "US-001" (by decide) "G-001" (by decide)).mp (by
    rw [movedGoal, sameStory]
    exact @Cites.goal { danglingPlan with goals := _ } _ mem_cons_self)
  generalize cited : "G-001" = reference at captured
  generalize "US-001" = row at captured
  cases captured with
  | goal listed =>
    obtain rfl := mem_singleton.mp listed
    exact absurd cited (by decide)

end OpenExec.Planner
