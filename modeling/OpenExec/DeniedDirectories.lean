import OpenExec.ProspectiveTargets

/-!
# Denied directories are not touched

What `write_file` creates below a root lies on the way to where the system's walk ends.
The decision before the write is about the place the resolver finds.
-/

namespace OpenExec.WorkspaceTools

open LinkedTrees GoStrings List
open PathValidation (abs clean isEntry_abs systemLinkLimit)

variable {tree next : FileTree} {root place : Place} {links : Nat} {rest : List Name}

variable {names : List Name} {comparable : Bool} {use : Use} {path workingDir : List Char}
  {opened : Opened} {process : Process} {dir : Place}

theorem sameLinks_of_added (added : Added tree next) : SameLinks tree next where
  kept := fun isLink => added.extends_ _ _ isLink
  noNew := fun isLink => added.noLink isLink

def makeFollowed (root : Place) (full : List Name) : Nat → FileTree → Place → List Name → Made
  | 0 => fun tree _ _ => ⟨tree, [], false⟩
  | links + 1 => make root full links

variable {full : List Name} {name : Name}

theorem make_eq_makeWith :
    make root full links = makeWith root full (makeFollowed root full links) := by
  cases links <;> rfl

theorem make_nil : make root full links tree place [] = ⟨tree, [], true⟩ := by
  rw [make_eq_makeWith]
  rfl

theorem make_dot (dot : isDot name) :
    make root full links tree place (name :: rest) = make root full links tree place rest := by
  rw [make_eq_makeWith, makeWith, if_pos dot]

theorem make_entry_cases (entry : IsEntry name) : (∃ isDir : tree.kind (root ++ place) = some .dir,
        tree.kind (root ++ (place ++ [name])) = none ∧
        make root full links tree place (name :: rest) =
          { make root full links (tree.addDir (root ++ place) name isDir)
            (place ++ [name]) rest with
            created := (place ++ [name]) ::
              (make root full links (tree.addDir (root ++ place) name isDir) (place ++ [name])
                rest).created }) ∨
      (tree.kind (root ++ (place ++ [name])) = some .dir ∧
        make root full links tree place (name :: rest) =
          make root full links tree (place ++ [name]) rest) ∨
      (∃ target, tree.kind (root ++ (place ++ [name])) = some (.link target) ∧
        target.head? ≠ some '/' ∧
        make root full links tree place (name :: rest) =
          makeFollowed root full links tree place (targetNames target ++ rest)) ∨
      ((make root full links tree place (name :: rest)).tree = tree ∧
        (make root full links tree place (name :: rest)).created = []) := by
  rw [make_eq_makeWith, makeWith, if_neg (by simp [entry.1]), if_neg (by simp [entry.2])]
  cases found : tree.kind (root ++ (place ++ [name])) with
  | none =>
    by_cases isDir : tree.kind (root ++ place) = some .dir
    · exact .inl ⟨isDir, rfl, by simp [isDir]⟩
    · exact .inr (.inr (.inr (by simp [isDir])))
  | some kind =>
    cases kind with
    | dir => exact .inr (.inl ⟨rfl, rfl⟩)
    | file => exact .inr (.inr (.inr ⟨rfl, rfl⟩))
    | link target =>
      refine .inr (.inr ?_)
      simp only
      split
      · refine .inr ?_
        cases stop tree root true systemLinkLimit [] full <;> exact ⟨rfl, rfl⟩
      split
      · exact .inr ⟨rfl, rfl⟩
      · next relative => exact .inl ⟨target, rfl, relative, rfl⟩

/-- Walks without parent directories end at the same places in both trees. -/
def SameEnds (root : Place) (tree next : FileTree) : Prop :=
  ∀ links place rest, PlainWalk tree root true place rest → Plain rest →
    (stop next root true links place rest).prospect =
      (stop tree root true links place rest).prospect

/-- What making directories does where no link leads over a parent directory: it
makes those on the way from the missing entry at which the walk stops. -/
structure MakesAlong (tree : FileTree) (root : Place) (stopped : Stop) (made : Made) : Prop where
  added : Added tree made.tree
  same : SameEnds root tree made.tree
  along : ∀ created ∈ made.created, (∀ there, stopped ≠ .arrived there) ∧
    ∃ final, stopped.prospect = some final ∧ created <+: final

theorem makesAlong_of_unchanged {stopped : Stop} {made : Made} (isTree : made.tree = tree)
    (isEmpty : made.created = []) : MakesAlong tree root stopped made := by
  refine ⟨isTree ▸ .refl tree, isTree ▸ fun _ _ _ _ _ => rfl, ?_⟩
  intro created isCreated
  rw [isEmpty] at isCreated
  cases isCreated

theorem make_along (walks : PlainWalk tree root true place rest) (plain : Plain rest) :
    MakesAlong tree root (stop tree root true links place rest)
      (make root full links tree place rest) := by
  induction links, place, rest using walk_induction generalizing tree with
  | nil links place =>
    rw [make_nil]
    exact makesAlong_of_unchanged rfl rfl
  | dot links place name rest isDot ih =>
    rw [make_dot isDot, stop_dot isDot]
    exact ih (walks.dot isDot) plain.tail
  | dotDot links place name rest notDot isDotDot ih =>
    exact absurd (plain name mem_cons_self) (by simp [isDotDot])
  | entry links place name rest isEntry ih outer =>
    rcases @make_entry_cases tree root place links rest full name isEntry with
      ⟨isDir, missing, made⟩ | ⟨isDir, made⟩ | ⟨target, isLink, isRelative, made⟩ |
        ⟨isTree, isEmpty⟩
    · have missing' : tree.kind (root ++ place ++ [name]) = none := by
        rw [append_assoc]
        exact missing
      have added := @added_addDir tree (root ++ place) name isDir missing'
      have same : SameEnds root tree (tree.addDir (root ++ place) name isDir) :=
        fun links start names plainWalk plainNames => prospect_addDir missing plainWalk plainNames
      have sameLinks := sameLinks_of_added added
      have later :=
        ih ((walks.pass isEntry (by simp [missing])).of_sameLinks sameLinks) plain.tail
      have isNew : (tree.addDir (root ++ place) name isDir).kind (root ++ (place ++ [name])) =
          some .dir := by
        rw [← append_assoc]
        exact FileTree.addDir_kind
      have ends : (stop (tree.addDir (root ++ place) name isDir) root true links (place ++ [name])
          rest).prospect = (stop tree root true links place (name :: rest)).prospect := by
        rw [← same links place (name :: rest) walks plain, stop_dir isEntry isNew]
      rw [made]
      refine ⟨added.trans later.added, ?_, ?_⟩
      · intro links start names plainWalk plainNames
        rw [later.same links start names (plainWalk.of_sameLinks sameLinks) plainNames,
          same links start names plainWalk plainNames]
      · intro created isCreated
        refine ⟨by simp [stop_missing isEntry missing], ?_⟩
        rcases mem_cons.mp isCreated with rfl | below
        · refine ⟨_, congrArg Stop.prospect (stop_missing isEntry missing), ?_⟩
          exact ⟨rest.filter (!isDot ·), by simp⟩
        · rw [← ends]
          exact (later.along created below).2
    · rw [made, stop_dir isEntry isDir]
      exact ih (walks.pass isEntry (by simp [isDir])) plain.tail
    · rw [made, stop_link isEntry isLink, if_neg (by simp [isRelative]), targetStart,
        if_neg isRelative]
      cases links with
      | zero => exact makesAlong_of_unchanged rfl rfl
      | succ links =>
        have beyond := walks.beyond isEntry isLink (by simp [isRelative])
        rw [targetStart, if_neg isRelative] at beyond
        exact outer links (Nat.lt_succ_self links) _ _ beyond
          ((walks.plain isEntry isLink).append plain.tail)
    · exact makesAlong_of_unchanged isTree isEmpty

theorem deniedComponent_eq_none :
    deniedComponent names = none ↔ ∀ name ∈ names, name ∉ deniedComponents := by
  simp [deniedComponent, find?_eq_none]

theorem deniedComponent_of_isPrefix {front : List Name} (allowed : deniedComponent names = none)
    (isFront : front <+: names) : deniedComponent front = none := by
  rw [deniedComponent_eq_none] at allowed ⊢
  exact fun name isName => allowed name (isFront.subset isName)

theorem checkPolicy_ok {resolved : Place} (passes : checkPolicy comparable root resolved = .ok ()) :
    ∃ policyPath, resolved = root ++ policyPath ∧ deniedComponent policyPath = none := by
  unfold checkPolicy at passes
  split at passes
  · cases passes
  next policyPath isPath =>
  split at isPath
  · split at passes
    · cases passes
    · next allowed =>
      exact ⟨policyPath, (isPrefixOf?_eq_some_iff_append_eq.mp isPath).symm, allowed⟩
  · cases isPath

theorem not_denied_of_deleted {name : Name} (deleted : hasSuffix name " (deleted)" = true) :
    name ∉ deniedComponents := by
  intro isDenied
  have none_ : ∀ name ∈ deniedComponents, hasSuffix name " (deleted)" = false := by decide +kernel
  simp [none_ name isDenied] at deleted

theorem opened_allowed {below : Place}
    (passes : refuseDeniedOpenedTarget comparable root below = .ok ()) :
    deniedComponent below = none := by
  obtain ⟨policyPath, isPath, allowed⟩ := checkPolicy_ok passes
  rw [deniedComponent_eq_none] at allowed ⊢
  rcases eq_nil_or_concat below with rfl | ⟨front, last, rfl⟩
  · exact fun _ isName => absurd isName (by simp)
  simp only [concat_eq_append] at isPath ⊢
  have shown : descriptorPath (root ++ (front ++ [last])) = root ++ (front ++
      [if hasSuffix last " (deleted)" then last.take (last.length - " (deleted)".length)
        else last]) := by
    rw [← append_assoc, descriptorPath, getLast?_concat]
    simp
  rw [shown, append_right_inj] at isPath
  intro name isName
  rcases mem_append.mp isName with inFront | isLast
  · exact allowed name (isPath ▸ mem_append_left _ inFront)
  · obtain rfl := mem_singleton.mp isLast
    by_cases deleted : hasSuffix name " (deleted)" = true
    · exact not_denied_of_deleted deleted
    · rw [if_neg deleted] at isPath
      exact allowed name (isPath ▸ by simp)

def Use.newFile (use : Use) : Option Place :=
  if use.parents.succeeded then
    match openFile use.parents.tree use.root use.relative with
    | some opened => if opened.created then some opened.below else none
    | none => none
  else none

def Use.Makes (use : Use) (place : Place) : Prop :=
  place ∈ use.parents.created ∨ use.newFile = some place

def Use.ResolvedAllowed (use : Use) : Prop :=
  refuseDeniedProspectiveTarget use.before use.comparable use.root use.relative = .ok ()

/-- What is touched was made by the system, or is a file whose descriptor passed its check. -/
theorem Use.touched_cases {place : Place} (isTouched : place ∈ use.attempt.touched) :
    use.ResolvedAllowed ∧ use.Makes place ∨ deniedComponent place = none := by
  unfold Use.attempt at isTouched
  split at isTouched
  · cases isTouched
  next resolved =>
  have makesFile : ∀ opened, use.parents.succeeded = true →
      openFile use.parents.tree use.root use.relative = some opened →
        place ∈ (if opened.created then [opened.below] else []) → use.newFile = some place := by
    intro opened succeeded isOpened isNew
    cases created : opened.created with
    | false => simp [created] at isNew
    | true =>
      obtain rfl : place = opened.below := by simpa [created] using isNew
      simp [Use.newFile, succeeded, isOpened, created]
  simp only at isTouched
  split at isTouched
  · next succeeded =>
    split at isTouched
    · exact .inl ⟨resolved, .inl isTouched⟩
    next opened isOpened =>
    split at isTouched
    · exact .inl ⟨resolved, (mem_append.mp isTouched).imp_right
        (makesFile opened succeeded isOpened)⟩
    · next checked =>
      rcases mem_append.mp isTouched with made | written
      · exact .inl ⟨resolved, (mem_append.mp made).imp_right (makesFile opened succeeded isOpened)⟩
      · exact .inr (mem_singleton.mp written ▸ opened_allowed checked)
  · exact .inl ⟨resolved, .inl isTouched⟩

/-- What an operation relies on: the root is a directory by its real path, the path below
it is clean, and no link on it leads over a parent directory. -/
structure Use.Sound (use : Use) : Prop where
  real : RealRoot use.before use.root
  entries : ∀ name ∈ use.relative, IsEntry name
  walks : PlainWalk use.before use.root true [] use.relative

theorem Use.Sound.parents_along (sound : use.Sound) :
    MakesAlong use.before use.root
      (stop use.before use.root true systemLinkLimit [] use.relative.dropLast) use.parents := by
  unfold Use.parents
  split
  · next makes =>
    have whole : use.relative ≠ [] := by
      rintro empty
      simp [empty] at makes
    refine make_along ?_ fun name isName => (sound.entries name (dropLast_subset _ isName)).2
    intro target met
    apply sound.walks
    rw [← dropLast_append_getLast whole]
    exact met.append _
  · exact makesAlong_of_unchanged rfl rfl

theorem prospect_dropLast {final : Place} (entries : ∀ name ∈ rest, IsEntry name)
    (notArrived : ∀ there, stop tree root true links place rest.dropLast ≠ .arrived there)
    (ends : (stop tree root true links place rest.dropLast).prospect = some final) :
    ∃ whole, (stop tree root true links place rest).prospect = some whole ∧ final <+: whole := by
  rcases eq_nil_or_concat rest with rfl | ⟨front, last, rfl⟩
  · exact ⟨final, ends, prefix_rfl⟩
  simp only [concat_eq_append, dropLast_concat] at ends notArrived entries ⊢
  have goesOn := stop_append_stopped notArrived [last]
  cases stopped : stop tree root true links place front with
  | arrived there => exact absurd stopped (notArrived there)
  | missing parent name later =>
    rw [stopped] at ends goesOn
    have notDot : isDot last = false := (entries last (by simp)).1
    refine ⟨final ++ [last], ?_, prefix_append final [last]⟩
    rw [goesOn, ← Option.some.inj ends]
    simp [Stop.later, Stop.prospect, notDot]
  | notDirectory | tooManyLinks | escaped => rw [stopped] at ends; simp [Stop.prospect] at ends

theorem openFile_created {path : List Name} (isOpened : openFile tree root path = some opened)
    (isNew : opened.created) :
    (stop tree root true systemLinkLimit [] path).prospect = some opened.below := by
  unfold openFile at isOpened
  split at isOpened
  · split at isOpened
    · cases isOpened
      cases isNew
    · cases isOpened
  · next stopped =>
    split at isOpened
    · split at isOpened
      · cases isOpened
        rw [stopped]
        simp [Stop.prospect]
      · cases isOpened
    · cases isOpened
  · cases isOpened

theorem openFile_added {path : List Name} (isOpened : openFile tree root path = some opened) :
    Added tree opened.tree := by
  unfold openFile at isOpened
  split at isOpened
  · split at isOpened
    · cases isOpened
      exact .refl tree
    · cases isOpened
  · split at isOpened
    · split at isOpened
      · next isDir missing =>
        cases isOpened
        exact added_addFile isDir missing
      · cases isOpened
    · cases isOpened
  · cases isOpened

theorem Use.Sound.makes_along (sound : use.Sound) {place : Place} (makes : use.Makes place) :
    ∃ final, (stop use.before use.root true systemLinkLimit [] use.relative).prospect = some final ∧
      place <+: final := by
  have along := sound.parents_along
  rcases makes with isParent | isFile
  · obtain ⟨notArrived, front, ends, isFront⟩ := along.along place isParent
    obtain ⟨final, wholeEnds, isPrefix⟩ := prospect_dropLast sound.entries notArrived ends
    exact ⟨final, wholeEnds, isFront.trans isPrefix⟩
  · unfold Use.newFile at isFile
    split at isFile
    · split at isFile
      · next opened isOpened =>
        obtain ⟨isNew, ⟨⟩⟩ := Option.ite_none_right_eq_some.mp isFile
        refine ⟨opened.below, ?_, prefix_rfl⟩
        rw [← along.same _ _ _ sound.walks (plain_of_entries sound.entries)]
        exact openFile_created isOpened isNew
      · cases isFile
    · cases isFile

theorem Use.Sound.made_allowed (sound : use.Sound) {place : Place} (resolved : use.ResolvedAllowed)
    (makes : use.Makes place) : deniedComponent place = none := by
  obtain ⟨final, ends, isFront⟩ := sound.makes_along makes
  unfold Use.ResolvedAllowed refuseDeniedProspectiveTarget at resolved
  split at resolved
  · cases resolved
  next found isFound =>
  obtain ⟨policyPath, isPath, allowed⟩ := checkPolicy_ok resolved
  have isFinal : found = use.root ++ final :=
    sound.real.resolves (Nat.le_refl _) 255 use.relative final found sound.entries sound.walks
      ends isFound
  rw [isPath, append_right_inj] at isFinal
  exact deniedComponent_of_isPrefix (isFinal ▸ allowed) isFront

theorem Use.Sound.attempt_added (sound : use.Sound) : Added use.before use.attempt.tree := by
  have made := sound.parents_along.added
  unfold Use.attempt
  split
  · exact .refl use.before
  simp only
  split
  · split
    · exact made
    · next opened isOpened =>
      have later := made.trans (openFile_added isOpened)
      split
      · exact later
      · exact later
  · exact made

theorem openRoot_spec (isRoot : openRoot tree process.dir path = some root) :
    RealRoot tree root := by
  unfold openRoot at isRoot
  split at isRoot
  · cases isRoot
  split at isRoot
  · cases isRoot
  next reached =>
  obtain ⟨isDir, ⟨⟩⟩ := Option.ite_none_right_eq_some.mp isRoot
  have proper := walk_proper (targetStart_proper process.proper path)
    (fun name isName => SeparatedText.not_mem_of_mem_splitOn isName) reached
  exact ⟨isDir, fun name isName => (proper name isName).1⟩

theorem openRoot_extends (extends_ : next.Extends tree)
    (isRoot : openRoot tree dir path = some root) : openRoot next dir path = some root := by
  unfold openRoot at isRoot ⊢
  split at isRoot
  · cases isRoot
  next nonempty =>
  rw [if_neg nonempty]
  split at isRoot
  · cases isRoot
  next reached =>
  obtain ⟨isDir, ⟨⟩⟩ := Option.ite_none_right_eq_some.mp isRoot
  rw [walk_of_extends extends_ (Nat.le_refl _) reached]
  simp [extends_ _ _ isDir]

theorem relativeTo_entries {argument : List Char} {relative : List Name}
    (isBelow : relativeTo dir path workingDir argument = some relative) :
    ∀ name ∈ relative, IsEntry name := by
  unfold relativeTo at isBelow
  split at isBelow
  · next rooted =>
    have whole := isPrefixOf?_eq_some_iff_append_eq.mp isBelow
    intro name isName
    apply @isEntry_abs [] (anchored workingDir argument) name
    rw [PathValidation.abs, if_pos rooted, ← whole]
    exact mem_append_right _ isName
  · cases isBelow

/-- On the way from the directory a writable root leads to, no link leads over a parent
directory. -/
def PlainBelow (tree : FileTree) (process : Process) (workingDir argument : List Char)
    (path : List Char) : Prop :=
  ∀ root relative, openRoot tree process.dir path = some root →
    relativeTo process.dir path workingDir argument = some relative →
      PlainWalk tree root true [] relative

/-- The roots of a request lead to the directories they led to before the call, and
the links below them are those of before. -/
theorem tryRoots_sound {input : WriteInput} {roots : List (List Char)}
    (opens : ∀ path ∈ roots, ∃ root, openRoot tree process.dir path = some root)
    (plain : ∀ path ∈ roots, PlainBelow tree process workingDir input.path path)
    (added : Added tree next) :
    ∀ use ∈ tryRoots process workingDir input next roots, use.Sound := by
  induction roots generalizing next with
  | nil => exact fun _ isUse => absurd isUse (by simp [tryRoots])
  | cons path roots ih =>
    have later : ∀ {third}, Added tree third →
        ∀ use ∈ tryRoots process workingDir input third roots, use.Sound := fun added' =>
      ih (fun path isPath => opens path (mem_cons_of_mem _ isPath))
        (fun path isPath => plain path (mem_cons_of_mem _ isPath)) added'
    intro use isUse
    unfold tryRoots at isUse
    obtain ⟨root, isRoot⟩ := opens path mem_cons_self
    have isRoot' := openRoot_extends added.extends_ isRoot
    rw [isRoot'] at isUse
    simp only at isUse
    split at isUse
    · exact later added use isUse
    next relative isBelow =>
    have walks := (plain path mem_cons_self root relative isRoot isBelow).of_sameLinks
      (sameLinks_of_added added)
    have sound : ∀ {comparable comparableOpened},
        Use.Sound ⟨next, root, comparable, comparableOpened, relative, input.createDirectories⟩ :=
      ⟨openRoot_spec isRoot', relativeTo_entries isBelow, walks⟩
    split at isUse
    · obtain rfl := mem_singleton.mp isUse
      exact sound
    · rcases mem_cons.mp isUse with rfl | isLater
      · exact sound
      · exact later (added.trans sound.attempt_added) use isLater

theorem usesOf_sound {request : ToolRequest} (plain : ∀ input, request.input = some input →
      ∀ path ∈ request.writableRoots,
        PlainBelow tree process request.workingDir input.path path) :
    ∀ use ∈ usesOf tree process request, use.Sound := by
  intro use isUse
  unfold usesOf at isUse
  split at isUse
  · cases isUse
  next uses isRun =>
  unfold writeFile at isRun
  split at isRun
  · cases isRun
  next valid =>
  split at isRun
  · cases isRun
  split at isRun
  · cases isRun
  next input isInput =>
  iterate 3
    split at isRun
    · cases isRun
  cases isRun
  have opens : ∀ path ∈ request.writableRoots, ∃ root,
      openRoot tree process.dir path = some root := by
    intro path isPath
    have valid' : validateAccess tree process request := by simpa using valid
    simp only [validateAccess, Bool.and_eq_true, all_eq_true] at valid'
    exact Option.isSome_iff_exists.mp (valid'.1.2 path isPath)
  exact tryRoots_sound opens (plain input isInput) (.refl tree) use isUse

def hookedTree : FileTree :=
  .ofEntries
    [([], .dir), (["w".toList], .dir), (["w".toList, ".git".toList], .dir),
      (["w".toList, ".git".toList, "hooks".toList], .dir),
      (["w".toList, "d".toList], .link ".git/hooks".toList),
      (["w".toList, "alias".toList], .link "d/../new".toList),
      (["w".toList, "notes".toList], .dir), (["w".toList, "docs".toList], .link "notes".toList)]
    (by decide) (by decide)

def rootProcess : Process where
  dir := []
  proper := fun _ isName => absurd isName List.not_mem_nil
  comparable := fun _ _ _ => true
  comparableOpened := fun _ _ => true
  of_rooted := fun _ _ _ _ => ⟨rfl, rfl⟩

def aliasRequest : ToolRequest where
  workingDir := "/w".toList
  mode := .workspaceWrite
  writableRoots := ["/w".toList]
  input := some ⟨"alias".toList, false⟩

def docsRequest : ToolRequest :=
  { aliasRequest with input := some ⟨"docs/v1/plan.md".toList, true⟩ }

end OpenExec.WorkspaceTools
