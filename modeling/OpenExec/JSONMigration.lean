import OpenExec.GuardedRuns

/-!
# The one-time import of the JSON files

`Load` decides by the number of stories whether the files are imported.
-/

namespace OpenExec.Release.JSONMigration

open GuardedRuns List Option

inductive Kind
  | goal | story | task
  deriving DecidableEq

/-- A row with the goal of a story or the story of a task as its parent. -/
structure Row where
  kind : Kind
  id : String
  parent : String := ""
  deriving DecidableEq

def Row.key (row : Row) : Kind × String := (row.kind, row.id)

def Row.references (row : Row) : Option (Kind × String) :=
  match row.kind with
  | .goal => none
  | .story => if row.parent = "" then none else some (.goal, row.parent)
  | .task => some (.story, row.parent)

def keys (ledger : List Row) : List (Kind × String) := ledger.map Row.key

structure Task where
  id : String
  storyID : String := ""

def Task.row (task : Task) : Row := ⟨.task, task.id, task.storyID⟩

inductive RawTasks
  | tasks (tasks : List Task)
  | ids (ids : List String)

structure Story where
  id : String
  goalID : String := ""
  rawTasks : RawTasks := .ids []

def Story.row (story : Story) : Row := ⟨.story, story.id, story.goalID⟩

def Story.embeddedTasks (story : Story) : List Task :=
  match story.rawTasks with
  | .tasks (first :: rest) =>
    if first.id = "" then []
    else (first :: rest).map fun task =>
      if task.storyID = "" then { task with storyID := story.id } else task
  | _ => []

structure Contents where
  goals : List String := []
  stories : List Story := []
  tasks : List Task := []

namespace Contents

variable (files : Contents)

def goalRows : List Row := files.goals.map fun id => ⟨.goal, id, ""⟩

def storyRows : List Row := files.stories.map Story.row

def embeddedRows : List Row :=
  (files.stories.flatMap Story.embeddedTasks).map Task.row

def taskRows : List Row := files.tasks.map Task.row

def rows : List Row :=
  files.goalRows ++ files.storyRows ++ files.embeddedRows ++ files.taskRows

end Contents

/-- Files whose ids are not empty and whose references resolve. -/
structure Files extends Contents where
  ids : ∀ row ∈ toContents.rows, row.id ≠ ""
  storyGoals : ∀ row ∈ toContents.storyRows, ∀ key ∈ row.references, key ∈ keys toContents.goalRows
  taskStories : ∀ row ∈ toContents.embeddedRows ++ toContents.taskRows,
    ∀ key ∈ row.references, key ∈ keys toContents.storyRows

/-- The inserts of one transaction, which a reference that does not resolve rolls back. -/
def bulkCreate (ledger : List Row) : List Row → Option (List Row)
  | [] => some ledger
  | row :: rest =>
    if row.id = "" ∨ row.key ∈ keys ledger then bulkCreate ledger rest
    else if ∀ key ∈ row.references, key ∈ keys ledger then bulkCreate (ledger ++ [row]) rest
    else none

/-- The transaction that comes next in a `Load` under way. -/
inductive Phase
  | idle | goals | stories | embedded | tasks
  deriving DecidableEq

def Phase.next : Phase → Phase
  | .idle | .tasks => .idle
  | .goals => .stories
  | .stories => .embedded
  | .embedded => .tasks

def Phase.transaction (files : Files) : Phase → List Row
  | .idle => []
  | .goals => files.goalRows
  | .stories => files.storyRows
  | .embedded => files.embeddedRows
  | .tasks => files.taskRows

/-- `migrated` says that a `Load` ran without interruption, `missing` that the first such
`Load` left a row of the files out, and `added` that a later one added a row. -/
structure State where
  ledger : List Row := []
  phase : Phase := .idle
  migrated : Bool := false
  missing : Bool := false
  added : Bool := false

inductive Action
  | load | commit | interrupt | delete (row : Row)

def Holds (rows ledger : List Row) : Prop := ∀ row ∈ rows, row.key ∈ keys ledger

instance (rows ledger : List Row) : Decidable (Holds rows ledger) :=
  inferInstanceAs (Decidable (∀ _ ∈ _, _))

variable {files : Files} {state next : State} {action : Action} {ledger rows more : List Row}
  {row : Row} {phase : Phase}

def State.finish (files : Files) (state : State) : State :=
  { state with
    phase := .idle, migrated := true,
    missing := state.missing || (!state.migrated && !decide (Holds files.rows state.ledger)) }

/-- An error ends the import and is only logged. -/
def State.commit (files : Files) (state : State) : State :=
  match bulkCreate state.ledger (state.phase.transaction files) with
  | none => state.finish files
  | some ledger =>
    let after := { state with
      ledger := ledger, phase := state.phase.next,
      added := state.added || (state.migrated && !decide (Holds ledger state.ledger)) }
    if after.phase = .idle then after.finish files else after

def countStories (ledger : List Row) : Nat := ledger.countP (·.kind = .story)

def step (files : Files) (state : State) : Action → Option State
  | .load =>
    if state.phase ≠ .idle then none
    else if countStories state.ledger = 0 then some { state with phase := .goals }
    else some (state.finish files)
  | .commit => if state.phase = .idle then none else some (state.commit files)
  | .interrupt => if state.phase = .idle then none else some { state with phase := .idle }
  | .delete row =>
    if state.phase = .idle ∧ state.migrated then
      some { state with ledger := state.ledger.filter (· ≠ row) }
    else none

/-- No `Load` is interrupted between its stories and its last tasks, and none finds
a migrated ledger without stories that lacks a row of the files. -/
def Careful (files : Files) (state : State) (action : Action) : Prop :=
  match action with
  | .interrupt => state.phase = .embedded ∨ state.phase = .tasks →
      Holds (files.embeddedRows ++ files.taskRows) state.ledger
  | .load => state.migrated → countStories state.ledger = 0 → Holds files.rows state.ledger
  | _ => True

instance : Decidable (Careful files state action) :=
  match action with
  | .interrupt => inferInstanceAs (Decidable (_ → _))
  | .load => inferInstanceAs (Decidable (_ → _))
  | .commit | .delete _ => inferInstanceAs (Decidable True)

theorem mem_keys_append {key : Kind × String} (member : key ∈ keys ledger) :
    key ∈ keys (ledger ++ more) := by
  simp only [keys, map_append, mem_append]
  exact .inl member

theorem bulkCreate_eq_some (ids : ∀ row ∈ rows, row.id ≠ "")
    (resolve : ∀ row ∈ rows, ∀ key ∈ row.references, key ∈ keys ledger) :
    ∃ more, bulkCreate ledger rows = some (ledger ++ more) ∧ Holds rows (ledger ++ more) ∧
      ∀ row ∈ more, row ∈ rows := by
  induction rows generalizing ledger with
  | nil => exact ⟨[], by simp [bulkCreate], by simp [Holds], by simp⟩
  | cons row rest ih =>
    have restIDs := fun later member => ids later (mem_cons_of_mem row member)
    have restResolve := fun later member => resolve later (mem_cons_of_mem row member)
    rw [bulkCreate]
    by_cases found : row.key ∈ keys ledger
    · rw [if_pos (.inr found)]
      obtain ⟨more, created, holds, new⟩ := ih restIDs restResolve
      refine ⟨more, created, ?_, fun later member => mem_cons_of_mem row (new later member)⟩
      simpa [Holds, mem_keys_append found] using holds
    · rw [if_neg (by simp [found, ids row mem_cons_self]),
        if_pos (resolve row mem_cons_self)]
      obtain ⟨more, created, holds, new⟩ := ih restIDs fun later member key isKey =>
        mem_keys_append (restResolve later member key isKey)
      rw [append_assoc] at created holds
      refine ⟨row :: more, created, ?_, ?_⟩
      · have written : row.key ∈ keys (ledger ++ row :: more) := by simp [keys]
        simpa [Holds, written] using holds
      · intro later member
        rcases mem_cons.mp member with rfl | member
        · exact mem_cons_self
        · exact mem_cons_of_mem _ (new later member)

def Phase.before (files : Files) : Phase → List Row
  | .idle | .goals => []
  | .stories => files.goalRows
  | .embedded => files.goalRows ++ files.storyRows
  | .tasks => files.goalRows ++ files.storyRows ++ files.embeddedRows

structure Sound (files : Files) (state : State) : Prop where
  complete : state.missing = false
  once : state.added = false
  before : Holds (state.phase.before files) state.ledger
  waiting : state.phase = .idle → state.migrated = false →
    countStories state.ledger = 0 ∨ Holds files.rows state.ledger
  again : state.phase ≠ .idle → state.migrated → Holds files.rows state.ledger
  early : state.phase = .goals ∨ state.phase = .stories → countStories state.ledger = 0

theorem Sound.finish (sound : Sound files state)
    (holds : state.migrated = false → Holds files.rows state.ledger) :
    Sound files (state.finish files) := by
  have notMissing : (state.finish files).missing = false := by
    cases migrated : state.migrated with
    | false => simp [State.finish, sound.complete, holds migrated]
    | true => simp [State.finish, sound.complete, migrated]
  exact ⟨notMissing, sound.once, by simp [State.finish, Phase.before, Holds],
    by simp [State.finish], by simp [State.finish], by simp [State.finish]⟩

theorem Holds.append (holds : Holds rows ledger) : Holds rows (ledger ++ more) :=
  fun row member => mem_keys_append (holds row member)

theorem Phase.mem_transaction (member : row ∈ phase.transaction files) : row ∈ files.rows := by
  cases phase <;> simp_all [transaction, Contents.rows]

theorem Phase.transaction_resolves (member : row ∈ phase.transaction files) :
    ∀ key ∈ row.references, key ∈ keys (phase.before files) := by
  intro key isKey
  cases phase with
  | idle => simp [transaction] at member
  | goals =>
    obtain ⟨goal, _, rfl⟩ := mem_map.mp member
    simp [Row.references] at isKey
  | stories => exact files.storyGoals row member key isKey
  | embedded =>
    have resolves := files.taskStories row (mem_append_left _ member) key isKey
    simp only [keys, before, map_append, mem_append] at resolves ⊢
    exact .inr resolves
  | tasks =>
    have resolves := files.taskStories row (mem_append_right _ member) key isKey
    simp only [keys, before, map_append, mem_append] at resolves ⊢
    exact .inl (.inr resolves)

theorem Sound.commit (sound : Sound files state) (underWay : state.phase ≠ .idle) :
    Sound files (state.commit files) := by
  have resolved : ∀ row ∈ state.phase.transaction files,
      ∀ key ∈ row.references, key ∈ keys state.ledger := by
    intro row isRow key isKey
    obtain ⟨parent, isParent, rfl⟩ :=
      mem_map.mp (Phase.transaction_resolves isRow key isKey)
    exact sound.before parent isParent
  obtain ⟨more, created, holds, new⟩ :=
    bulkCreate_eq_some (fun row isRow => files.ids row (Phase.mem_transaction isRow)) resolved
  have committed : Holds (state.phase.before files ++ state.phase.transaction files)
      (state.ledger ++ more) := by
    intro row isRow
    rcases mem_append.mp isRow with earlier | now
    · exact sound.before.append row earlier
    · exact holds row now
  have finishes (isIdle : state.phase.next = .idle) : Holds files.rows (state.ledger ++ more) := by
    cases phase : state.phase <;> simp_all
      [Phase.next, Phase.before, Phase.transaction, Contents.rows]
  have nothingAdded (migrated : state.migrated) :
      Holds (state.ledger ++ more) state.ledger := by
    intro row isRow
    rcases mem_append.mp isRow with earlier | now
    · exact mem_map_of_mem earlier
    · exact sound.again underWay migrated row (Phase.mem_transaction (new row now))
  have after : Sound files { state with
      ledger := state.ledger ++ more, phase := state.phase.next,
      added := state.added || (state.migrated &&
        !decide (Holds (state.ledger ++ more) state.ledger)) } := by
    refine ⟨sound.complete, ?_, ?_, fun isIdle _ => .inr (finishes isIdle),
      fun _ migrated => (sound.again underWay migrated).append, ?_⟩
    · cases migrated : state.migrated with
      | false => simp [sound.once]
      | true => simp [sound.once, nothingAdded migrated]
    · cases phase : state.phase <;>
        simp_all [Phase.next, Phase.before, Phase.transaction, Holds]
    · intro isEarly
      have isGoals : state.phase = .goals := by
        cases phase : state.phase <;> simp_all [Phase.next]
      have none := sound.early (.inl isGoals)
      simp only [countStories, countP_append, Nat.add_eq_zero_iff] at none ⊢
      refine ⟨none, countP_eq_zero.mpr fun row isRow => ?_⟩
      have isGoal := new row isRow
      rw [isGoals] at isGoal
      obtain ⟨goal, _, rfl⟩ := mem_map.mp isGoal
      simp
  simp only [State.commit, created]
  split
  · next isIdle => exact after.finish fun _ => finishes isIdle
  · exact after

theorem Sound.step (sound : Sound files state) (careful : Careful files state action)
    (taken : step files state action = some next) : Sound files next := by
  cases action with
  | load =>
    simp only [JSONMigration.step] at taken
    split at taken
    · cases taken
    next isIdle =>
    split at taken
    · next empty =>
      cases taken
      exact ⟨sound.complete, sound.once, by simp [Phase.before, Holds], by simp,
        fun _ migrated => careful migrated empty, fun _ => empty⟩
    · next some =>
      cases taken
      refine sound.finish fun notMigrated => ?_
      exact (sound.waiting (Decidable.not_not.mp isIdle) notMigrated).resolve_left some
  | commit =>
    obtain ⟨underWay, ⟨⟩⟩ := ite_none_left_eq_some.mp taken
    exact sound.commit underWay
  | interrupt =>
    obtain ⟨underWay, ⟨⟩⟩ := ite_none_left_eq_some.mp taken
    refine ⟨sound.complete, sound.once, by simp [Phase.before, Holds], fun _ _ => ?_,
      by simp, by simp⟩
    cases phase : state.phase with
    | idle => exact absurd phase underWay
    | goals => exact .inl (sound.early (.inl phase))
    | stories => exact .inl (sound.early (.inr phase))
    | _ =>
      have holds := careful (by simp [phase])
      have before := sound.before
      refine .inr fun row isRow => ?_
      simp only [Contents.rows, Phase.before, Holds, mem_append] at holds before isRow
      grind
  | delete row =>
    obtain ⟨done, ⟨⟩⟩ := ite_none_right_eq_some.mp taken
    exact ⟨sound.complete, sound.once, by simp [done.1, Phase.before, Holds],
      by simp [done.2], by simp [done.1], by simp [done.1]⟩

theorem migrated_once_and_completely (reachable : Reachable (step files) (Careful files) {} state) :
    state.missing = false ∧ state.added = false := by
  have sound : Sound files state := by
    refine reachable.invariant ?_ Sound.step
    exact ⟨rfl, rfl, by simp [Phase.before, Holds], fun _ _ => .inl rfl, by simp, by simp⟩
  exact ⟨sound.complete, sound.once⟩

def sampleFiles : Files where
  goals := ["G-1"]
  stories := [⟨"US-1", "G-1", .tasks [⟨"T-1", ""⟩]⟩]
  tasks := [⟨"T-2", "US-1"⟩]
  ids := by decide
  storyGoals := by decide
  taskStories := by decide

theorem migrated_once_and_completely_sample : ∃ state,
    Reachable (step sampleFiles) (Careful sampleFiles) {} state ∧
      keys state.ledger = [(.goal, "G-1"), (.story, "US-1"), (.task, "T-2")] ∧
        state.missing = false ∧ state.added = false :=
  exists_reached (fun state => keys state.ledger =
    [(.goal, "G-1"), (.story, "US-1"), (.task, "T-2")])
    [.load, .commit, .interrupt, .load, .commit, .commit, .commit, .commit,
      .delete ⟨.task, "T-1", "US-1"⟩, .load] (by decide +kernel)
    fun reachable holds => ⟨holds, migrated_once_and_completely reachable⟩

/-- A `Load` interrupted after its stories leaves the tasks out of every later one, and a
ledger whose stories were deleted gets the rows of the files again. -/
theorem migrated_in_part_or_again :
    (run (step sampleFiles) anyStep {} [.load, .commit, .commit, .interrupt, .load]).map
        (fun state => (keys state.ledger, state.missing)) =
      some ([(.goal, "G-1"), (.story, "US-1")], true) ∧
    (run (step sampleFiles) anyStep {} [.load, .commit, .commit, .commit, .commit,
        .delete ⟨.story, "US-1", "G-1"⟩, .delete ⟨.task, "T-1", "US-1"⟩,
        .delete ⟨.task, "T-2", "US-1"⟩, .load, .commit, .commit, .commit, .commit]).map
        (fun state => (keys state.ledger, state.added)) =
      some ([(.goal, "G-1"), (.story, "US-1"), (.task, "T-1"), (.task, "T-2")], true) :=
  ⟨by decide +kernel, by decide +kernel⟩

end OpenExec.Release.JSONMigration
