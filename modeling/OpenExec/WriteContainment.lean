import OpenExec.PathValidation
import OpenExec.WalkStops
import Mathlib.Tactic.ByContra

/-!
# Writes stay in the allowed roots

The place a write ends up at is the validated path with its links resolved,
except where the last name of the path is a link that leads to nothing yet: the
validator then keeps the name, and the system creates the link's target.
-/

namespace OpenExec.PathValidation

open LinkedTrees List Option

variable {tree next : FileTree} {workingDir : Place} {path : Place} {name : Name}

variable {stack names : List Name} {place : Place} {rooted : Bool}

theorem isEntry_cleanStep (entries : ∀ entry ∈ stack, IsEntry entry) (name : Name) :
    ∀ entry ∈ cleanStep true stack name, IsEntry entry := by
  unfold cleanStep
  split
  · exact entries
  next notDot =>
  split
  · split
    · nofun
    · next last below =>
      have lastEntry := entries last mem_cons_self
      rw [if_neg (by simp [lastEntry.2])]
      exact fun entry isMember => entries entry (mem_cons_of_mem _ isMember)
  · next notDotDot =>
    intro entry isMember
    rcases mem_cons.mp isMember with rfl | earlier
    · exact ⟨by simpa using notDot, by simpa using notDotDot⟩
    · exact entries entry earlier

theorem isEntry_foldl_cleanStep (entries : ∀ entry ∈ stack, IsEntry entry) :
    ∀ entry ∈ names.foldl (cleanStep true) stack, IsEntry entry := by
  induction names generalizing stack with
  | nil => exact entries
  | cons name names ih => exact ih (isEntry_cleanStep entries name)

theorem isEntry_abs (path : List Char) : ∀ entry ∈ abs workingDir (clean path), IsEntry entry := by
  have cleaned : ∀ names, ∀ entry ∈ cleanNames true names, IsEntry entry := by
    intro names entry isMember
    exact isEntry_foldl_cleanStep (fun _ isNil => absurd isNil (by simp)) entry
      (mem_reverse.mp isMember)
  unfold abs
  split
  · next rooted =>
    unfold clean at rooted ⊢
    simp only at rooted ⊢
    rw [rooted]
    exact cleaned _
  · exact cleaned _

theorem foldl_cleanStep_eq (plain : ∀ name ∈ names, isDotDot name = false) :
    names.foldl (cleanStep rooted) stack = (names.filter (!isDot ·)).reverse ++ stack := by
  induction names generalizing stack with
  | nil => rfl
  | cons name names ih =>
    rw [foldl_cons, ih fun other isName => plain other (mem_cons_of_mem _ isName)]
    cases dot : isDot name with
    | true => simp [cleanStep, dot]
    | false => simp [cleanStep, dot, plain name mem_cons_self]

theorem cleanNames_of_plain (plain : ∀ name ∈ names, isDotDot name = false) :
    cleanNames rooted names = names.filter (!isDot ·) := by
  rw [cleanNames, foldl_cleanStep_eq plain, append_nil, reverse_reverse]

theorem resolveParts_eq_append (parts remaining : List Name) :
    resolveParts tree parts remaining = resolveParts tree parts [] ++ remaining := by
  induction parts generalizing remaining with
  | nil => simp [resolveParts]
  | cons last parts ih =>
    unfold resolveParts
    cases evalSymlinks tree (last :: parts).reverse with
    | some resolved => simp
    | none =>
      rw [ih (last :: remaining), ih [last]]
      simp

theorem resolve_of_eval {resolved : Place} (evaluated : evalSymlinks tree path = some resolved) :
    resolvePathSymlinks tree path = resolved := by
  have reversed : evalSymlinks tree path.reverse.reverse = some resolved := by
    rw [reverse_reverse]
    exact evaluated
  unfold resolvePathSymlinks
  cases isParts : path.reverse with
  | nil =>
    rw [isParts] at reversed
    have atRoot : evalSymlinks tree [] = some resolved := reversed
    simp [resolveParts, atRoot]
  | cons last parts =>
    rw [isParts] at reversed
    rw [resolveParts, reversed]
    exact append_nil resolved

theorem resolve_append_one (failed : evalSymlinks tree (path ++ [name]) = none) :
    resolvePathSymlinks tree (path ++ [name]) = resolvePathSymlinks tree path ++ [name] := by
  unfold resolvePathSymlinks
  rw [reverse_append, reverse_singleton, singleton_append]
  have unresolved : evalSymlinks tree (name :: path.reverse).reverse = none := by
    simpa using failed
  rw [resolveParts, unresolved]
  exact resolveParts_eq_append _ _

theorem eval_of_walk (reached : walk tree false systemLinkLimit [] path = some place) :
    evalSymlinks tree path = some place :=
  walk_of_links (by decide) reached

/-- The second tree has new directories, and nothing else is new. -/
structure Grown (tree next : FileTree) : Prop where
  extends_ : next.Extends tree
  onlyDirs : ∀ {place kind}, next.kind place = some kind → kind ≠ .dir → tree.kind place = some kind

theorem Grown.refl (tree : FileTree) : Grown tree tree := ⟨.refl tree, fun found _ => found⟩

theorem Grown.addDir (grown : Grown tree next) {isDir : next.kind place = some .dir}
    (missing : next.kind (place ++ [name]) = none) : Grown tree (next.addDir place name isDir) := by
  refine ⟨(added_addDir missing).extends_.trans grown.extends_, ?_⟩
  intro other kind found notDir
  have found' : (if other = place ++ [name] then some Kind.dir else next.kind other) = some kind :=
    found
  split at found'
  · exact absurd (Option.some.inj found').symm notDir
  · exact grown.onlyDirs found' notDir

/-- The directory of a path as the handler leaves it: it is where the validator
resolved it to, and either it was there before or all of it is new. -/
structure Prepared (tree next : FileTree) (path : Place) : Prop where
  grown : Grown tree next
  reached : walk next false systemLinkLimit [] path = some (resolvePathSymlinks tree path)
  isDir : next.kind (resolvePathSymlinks tree path) = some .dir
  fresh : next = tree ∨ tree.kind (resolvePathSymlinks tree path) = none

theorem prepared_of_stat (found : stat tree path = some .dir) : Prepared tree tree path := by
  obtain ⟨place, reached, isDir⟩ := bind_eq_some_iff.mp found
  have resolved := resolve_of_eval (eval_of_walk reached)
  exact ⟨.refl tree, resolved ▸ reached, resolved ▸ isDir, .inl rfl⟩

theorem walk_to_entry (prepared : Prepared tree next path) (entry : IsEntry name)
    (notLink : ∀ target, next.kind (resolvePathSymlinks tree path ++ [name]) ≠
      some (.link target)) :
    walk next true systemLinkLimit [] (path ++ [name]) =
      some (resolvePathSymlinks tree path ++ [name]) := by
  obtain ⟨left, _, goesOn⟩ := walk_append prepared.reached prepared.isDir
  rw [goesOn, walk_entry entry]
  cases found : next.kind (resolvePathSymlinks tree path ++ [name]) with
  | none => rfl
  | some kind =>
    cases kind with
    | dir => exact walk_nil
    | file => rfl
    | link target => exact absurd found (notLink target)

theorem walk_eq_resolved (prepared : Prepared tree next path)
    (evaluated : evalSymlinks tree (path ++ [name]) = some final)
    (reached : walk next true systemLinkLimit [] (path ++ [name]) = some place) :
    place = resolvePathSymlinks tree (path ++ [name]) := by
  have viaTree : walk next true evalLinkLimit [] (path ++ [name]) = some final :=
    walk_of_extends prepared.grown.extends_ (Nat.le_refl _) evaluated
  rw [resolve_of_eval evaluated]
  exact mem_unique (walk_of_links (by decide) reached) viaTree

/-- The validator resolves the next name to the entry that the system finds, unless
the entry is a link. -/
theorem resolve_entry (prepared : Prepared tree next path) (entry : IsEntry name)
    (notLink : ∀ target, next.kind (resolvePathSymlinks tree path ++ [name]) ≠
      some (.link target)) :
    resolvePathSymlinks tree (path ++ [name]) = resolvePathSymlinks tree path ++ [name] := by
  cases evaluated : evalSymlinks tree (path ++ [name]) with
  | none => exact resolve_append_one evaluated
  | some resolved =>
    exact (walk_eq_resolved prepared evaluated (walk_to_entry prepared entry notLink)).symm

theorem lstat_append_one (reached : walk tree false systemLinkLimit [] path = some place)
    (isDir : tree.kind place = some .dir) :
    lstat tree (path ++ [name]) = tree.kind (place ++ [name]) := by
  simp [lstat, reached, isDir]

theorem stat_of_entry (entry : IsEntry name)
    (reached : walk tree false systemLinkLimit [] path = some place)
    (isDir : tree.kind place = some .dir) (found : tree.kind (place ++ [name]) = some .dir) :
    stat tree (path ++ [name]) = some .dir := by
  obtain ⟨left, _, goesOn⟩ := walk_append reached isDir
  unfold stat
  rw [goesOn, walk_entry entry, found]
  simp [walk_nil, found]

theorem prepared_of_mkdir {made : FileTree} (prepared : Prepared tree next path)
    (entry : IsEntry name) (makes : mkdir next path name = some made) :
    Prepared tree made (path ++ [name]) := by
  unfold mkdir at makes
  rw [prepared.reached] at makes
  simp only [prepared.isDir, dite_true] at makes
  split at makes
  · next missing =>
    cases makes
    have resolved : resolvePathSymlinks tree (path ++ [name]) =
        resolvePathSymlinks tree path ++ [name] :=
      resolve_entry prepared entry fun target found => absurd (missing.symm.trans found) (by simp)
    have grown : Grown tree (next.addDir _ name prepared.isDir) := prepared.grown.addDir missing
    have extended : (next.addDir _ name prepared.isDir).Extends next :=
      (added_addDir missing).extends_
    have isNew : (next.addDir _ name prepared.isDir).kind
        (resolvePathSymlinks tree path ++ [name]) = some .dir := FileTree.addDir_kind
    refine ⟨grown, ?_, resolved ▸ isNew, .inr ?_⟩
    · have reached : walk (next.addDir _ name prepared.isDir) false systemLinkLimit [] path =
          some (resolvePathSymlinks tree path) :=
        walk_of_extends extended (Nat.le_refl _) prepared.reached
      obtain ⟨left, _, goesOn⟩ := walk_append reached (extended _ _ prepared.isDir)
      rw [goesOn, walk_entry entry, isNew, resolved]
      exact walk_nil
    · rw [resolved]
      cases found : tree.kind (resolvePathSymlinks tree path ++ [name]) with
      | none => rfl
      | some kind => exact absurd (missing.symm.trans (prepared.grown.extends_ _ _ found)) (by simp)
  · cases makes

theorem prepared_of_lstat (prepared : Prepared tree next path) (entry : IsEntry name)
    (unknown : stat tree (path ++ [name]) = none)
    (found : lstat next (path ++ [name]) = some .dir) : Prepared tree next (path ++ [name]) := by
  rw [lstat_append_one prepared.reached prepared.isDir] at found
  have resolved : resolvePathSymlinks tree (path ++ [name]) =
      resolvePathSymlinks tree path ++ [name] :=
    resolve_entry prepared entry fun target isLink => absurd (found.symm.trans isLink) (by simp)
  refine ⟨prepared.grown, ?_, resolved ▸ found, ?_⟩
  · obtain ⟨left, _, goesOn⟩ := walk_append prepared.reached prepared.isDir
    rw [goesOn, walk_entry entry, found, resolved]
    exact walk_nil
  · rcases prepared.fresh with rfl | new
    · exact absurd (stat_of_entry entry prepared.reached prepared.isDir found) (by simp [unknown])
    · rw [resolved]
      cases inTree : tree.kind (resolvePathSymlinks tree path ++ [name]) with
      | none => exact .inr rfl
      | some kind =>
        have parentDir := tree.parent (show (tree.kind _).isSome by rw [inTree]; rfl)
        exact absurd (new.symm.trans parentDir) (by simp)

theorem prepared_of_mkdirAll {parts : List Name} (entries : ∀ entry ∈ parts, IsEntry entry)
    (makes : mkdirAll tree parts = some next) : Prepared tree next parts.reverse := by
  induction parts generalizing next with
  | nil =>
    cases makes
    apply prepared_of_stat
    simp [stat, walk_nil, tree.root]
  | cons name parts ih =>
    have entry := entries name mem_cons_self
    unfold mkdirAll at makes
    rw [reverse_cons] at makes ⊢
    split at makes
    · next found =>
      cases makes
      exact prepared_of_stat found
    · cases makes
    next unknown =>
    split at makes
    · cases makes
    next made isMade =>
    have prepared := ih (fun entry isMember => entries entry (mem_cons_of_mem _ isMember))
      isMade
    split at makes
    · next makesDir =>
      cases makes
      exact prepared_of_mkdir prepared entry makesDir
    · split at makes
      · next found =>
        cases makes
        exact prepared_of_lstat prepared entry unknown found
      · cases makes

theorem prepared_of_prepareParent {createDirectories : Bool}
    (entries : ∀ entry ∈ path, IsEntry entry)
    (prepares : prepareParent tree path createDirectories = some next) :
    Prepared tree next path.dropLast := by
  unfold prepareParent at prepares
  split at prepares
  · have prepared := prepared_of_mkdirAll (fun entry isMember => entries entry
      (dropLast_subset path (mem_reverse.mp isMember))) prepares
    rwa [reverse_reverse] at prepared
  · split at prepares
    · next found =>
      cases prepares
      exact prepared_of_stat found
    · cases prepares

/-- What opening a path creates if its last name is a link that leads nowhere. -/
def danglingTarget (tree : FileTree) (path : Place) : Option Place :=
  match evalSymlinks tree path, lstat tree path with
  | none, some (.link _) => openForWrite tree path
  | _, _ => none

theorem danglingTarget_eq {target : List Char} (failed : evalSymlinks tree path = none)
    (isLink : lstat tree path = some (.link target)) :
    danglingTarget tree path = openForWrite tree path := by
  simp [danglingTarget, failed, isLink]

theorem walk_of_openForWrite (opened : openForWrite tree path = some place) :
    walk tree true systemLinkLimit [] path = some place ∧ tree.kind place ≠ some .dir := by
  unfold openForWrite at opened
  split at opened
  · cases opened
  next reached =>
  obtain ⟨notDir, ⟨⟩⟩ := ite_none_left_eq_some.mp opened
  exact ⟨reached, notDir⟩

theorem opened_place (prepared : Prepared tree next path) (entry : IsEntry name)
    (opened : openForWrite next (path ++ [name]) = some place) :
    place = resolvePathSymlinks tree (path ++ [name]) ∨
      danglingTarget tree (path ++ [name]) = some place := by
  have reached := (walk_of_openForWrite opened).1
  cases evaluated : evalSymlinks tree (path ++ [name]) with
  | some resolved => exact .inl (walk_eq_resolved prepared evaluated reached)
  | none =>
    by_cases isLink :
      ∃ target, next.kind (resolvePathSymlinks tree path ++ [name]) = some (.link target)
    · obtain ⟨target, found⟩ := isLink
      right
      have inTree := prepared.grown.onlyDirs found (by simp)
      have parentDir := tree.parent (show (tree.kind _).isSome by rw [inTree]; rfl)
      rcases prepared.fresh with rfl | new
      · rw [danglingTarget_eq evaluated
          ((lstat_append_one prepared.reached prepared.isDir).trans found)]
        exact opened
      · exact absurd (new.symm.trans parentDir) (by simp)
    · left
      rw [resolve_append_one evaluated]
      exact mem_unique reached (walk_to_entry prepared entry (not_exists.mp isLink))

theorem openForWrite_root : openForWrite tree [] = none := by
  simp [openForWrite, walk_nil, tree.root]

theorem prepareParent_of_danglingTarget (createDirectories : Bool)
    (dangling : danglingTarget tree path = some place) : prepareParent tree path createDirectories =
    some tree ∧ openForWrite tree path = some place := by
  unfold danglingTarget at dangling
  split at dangling
  · next target failed isLink =>
    refine ⟨?_, dangling⟩
    have parentDir : stat tree path.dropLast = some .dir := by
      unfold lstat at isLink
      split at isLink
      · rw [tree.root] at isLink
        cases isLink
      split at isLink
      · next parent reached =>
        split at isLink
        · next isDir => exact bind_eq_some_iff.mpr ⟨parent, reached, isDir⟩
        · cases isLink
      · cases isLink
    unfold prepareParent
    split
    · cases isParts : path.dropLast.reverse with
      | nil => rfl
      | cons last parts =>
        rw [mkdirAll, ← isParts, reverse_reverse, parentDir]
    · rfl
  · cases dangling

theorem validate_spec {roots : List (List Char)} {path : List Char} {validPath : Place}
    (accepted : validatePathForWrite tree workingDir path roots = .ok validPath) :
    validPath = abs workingDir (clean path) ∧
      (roots ≠ [] → Inside tree workingDir roots (resolvePathSymlinks tree validPath)) := by
  unfold validatePathForWrite validate at accepted
  simp only [Bool.false_eq_true, false_and, if_false] at accepted
  iterate 5
    split at accepted
    · cases accepted
  next within =>
  cases accepted
  refine ⟨rfl, ?_⟩
  intro nonempty
  by_contra outside
  exact within ⟨nonempty, by simpa [isWithinAllowedRoots] using outside⟩

/-- The file a write request creates or overwrites is inside the allowed roots
exactly when the validated path is no dangling link that leads out of them. -/
theorem write_stays_inside_iff (tree : FileTree) (workingDir : Place) (roots : List (List Char))
    (path : List Char) (createDirectories : Bool) (validPath : Place)
    (accepted : validatePathForWrite tree workingDir path roots = .ok validPath) :
    (∀ place, handleWriteFile tree workingDir roots path createDirectories = some place →
      Inside tree workingDir roots place) ↔
    (roots ≠ [] → ∀ place, danglingTarget tree validPath = some place →
      Inside tree workingDir roots place) := by
  obtain ⟨isPath, inside⟩ := validate_spec accepted
  constructor
  · intro stays nonempty place dangling
    obtain ⟨prepares, opened⟩ := prepareParent_of_danglingTarget createDirectories dangling
    apply stays
    simp [handleWriteFile, nonempty, accepted, prepares, opened]
  · intro contained place written
    unfold handleWriteFile at written
    split at written
    · cases written
    next nonempty =>
    rw [accepted] at written
    obtain ⟨next, prepares, opened⟩ := bind_eq_some_iff.mp written
    have entries : ∀ entry ∈ validPath, IsEntry entry := isPath ▸ isEntry_abs path
    have prepared := prepared_of_prepareParent entries prepares
    cases split : validPath.getLast? with
    | none =>
      rw [getLast?_eq_none_iff.mp split, openForWrite_root] at opened
      cases opened
    | some name =>
      have isSplit : validPath.dropLast ++ [name] = validPath :=
        dropLast_append_getLast? name split
      have entry := entries name (mem_of_getLast? split)
      rw [← isSplit] at opened
      rcases opened_place prepared entry opened with same | dangling
      · rw [same, isSplit]
        exact inside nonempty
      · rw [isSplit] at dangling
        exact contained nonempty place dangling

def linkedWorkspace : FileTree :=
  .ofEntries
    [([], .dir), (["work".toList], .dir), (["outside".toList], .dir),
      (["work".toList, "notes".toList], .link "/outside/new.txt".toList)]
    (by decide) (by decide)

theorem write_stays_inside_iff_report :
    handleWriteFile linkedWorkspace [] ["/work".toList] "/work/report".toList false =
        some ["work".toList, "report".toList] ∧
      Inside linkedWorkspace [] ["/work".toList] ["work".toList, "report".toList] := by
  have written : handleWriteFile linkedWorkspace [] ["/work".toList] "/work/report".toList false =
      some ["work".toList, "report".toList] := by decide +kernel
  have accepted : validatePathForWrite linkedWorkspace [] "/work/report".toList ["/work".toList] =
      .ok ["work".toList, "report".toList] := by decide +kernel
  have unlinked : danglingTarget linkedWorkspace ["work".toList, "report".toList] = none := by
    decide +kernel
  refine ⟨written, (write_stays_inside_iff _ _ _ _ false _ accepted).mpr ?_ _ written⟩
  intro _ place dangling
  exact absurd (unlinked.symm.trans dangling) (by simp)

/-- The validator accepts the link, and the write creates its target. -/
theorem dangling_link_leaves_workspace :
    validatePathForWrite linkedWorkspace [] "/work/notes".toList ["/work".toList] =
        .ok ["work".toList, "notes".toList] ∧
      handleWriteFile linkedWorkspace [] ["/work".toList] "/work/notes".toList false =
        some ["outside".toList, "new.txt".toList] ∧
      ¬ Inside linkedWorkspace [] ["/work".toList] ["outside".toList, "new.txt".toList] :=
  ⟨by decide +kernel, by decide +kernel, by decide +kernel⟩

end OpenExec.PathValidation
