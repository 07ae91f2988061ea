import OpenExec.WorkspaceWrites
import OpenExec.WriteContainment

/-!
# The target resolved by hand

The resolver looks for the longest part of the path that exists and joins the target of
a link to the names that lead to it.
-/

namespace OpenExec.WorkspaceTools

open LinkedTrees List Stop
open PathValidation (cleanNames cleanNames_of_plain lstat lstat_append_one systemLinkLimit
  evalLinkLimit)

variable {stopped : Stop} {place resolved : Place} {target : List Char} {names : List Name}
  {depth : Nat}

/-- A root as an open directory has it: a directory by its real path. -/
structure RealRoot (tree : FileTree) (root : Place) : Prop where
  isDir : tree.kind root = some .dir
  entries : ∀ name ∈ root, IsEntry name

variable {tree : FileTree} {root : Place} {links : Nat} {front suffix : List Name} {name : Name}
  {final : Place}

theorem RealRoot.start (real : RealRoot tree root) : Start tree root [] :=
  ⟨real.isDir, by simpa using real.isDir⟩

theorem RealRoot.stop_eq (real : RealRoot tree root)
    (inside : stop tree root true links [] front ≠ .escaped) :
    stop tree [] false links [] (root ++ front) =
      (stop tree root true links [] front).above root := by
  have literal : stop tree [] false links [] (root ++ front) =
    stop tree [] false links root front :=
    stop_literal real.entries (by simpa using real.isDir)
  rw [literal, ← stop_above inside, append_nil]

/-- Where the first part of a walk stops if the whole walk gets anywhere. -/
inductive Reached (tree : FileTree) (root : Place) : Stop → Prop
  | dir {place : Place} : tree.kind (root ++ place) = some .dir → Reached tree root (.arrived place)
  | file {place : Place} : tree.kind (root ++ place) = some .file →
      Reached tree root (.arrived place)
  | missing {place : Place} {name : Name} {rest : List Name} :
      Reached tree root (.missing place name rest)

theorem RealRoot.reached (real : RealRoot tree root)
    (ends : (stop tree root true links [] (front ++ suffix)).prospect = some final) :
    Reached tree root (stop tree root true links [] front) := by
  cases stopped : stop tree root true links [] front with
  | arrived place =>
    rcases goesOn_of_stop stopped with ⟨isDir, _⟩ | ⟨isFile, _⟩
    · exact .dir (isDir real.start)
    · exact .file isFile
  | missing => exact .missing
  | notDirectory | tooManyLinks | escaped =>
    rw [stop_append_stopped (by simp [stopped]), stopped] at ends
    simp [later, prospect] at ends

section

variable (reached : Reached tree root stopped)
include reached

theorem Reached.not_escaped : stopped ≠ .escaped := by
  cases reached <;> simp

theorem Reached.prospect_isSome : stopped.prospect.isSome := by
  cases reached <;> rfl

theorem Reached.above_ne_tooManyLinks : stopped.above root ≠ .tooManyLinks := by
  cases reached <;> simp [above]

end

theorem RealRoot.stop_of_reached (real : RealRoot tree root) {more : Nat} (enough : links ≤ more)
    (reached : Reached tree root (stop tree root true links [] front)) :
    stop tree [] false more [] (root ++ front) =
      (stop tree root true links [] front).above root := by
  have outside := real.stop_eq reached.not_escaped
  rw [stop_of_links enough (outside ▸ reached.above_ne_tooManyLinks), outside]

theorem RealRoot.lstat_eq (real : RealRoot tree root) (few : links ≤ systemLinkLimit)
    (arrived : stop tree root true links [] front = .arrived place)
    (isDir : tree.kind (root ++ place) = some .dir) :
    lstat tree (root ++ (front ++ [name])) = tree.kind (root ++ (place ++ [name])) := by
  have outside := real.stop_of_reached few (arrived ▸ Reached.dir isDir)
  rw [arrived] at outside
  rw [← append_assoc, ← append_assoc]
  exact lstat_append_one (walk_of_arrived outside) isDir

theorem RealRoot.link_of_lstat (real : RealRoot tree root) (few : links ≤ systemLinkLimit)
    (reached : Reached tree root (stop tree root true links [] front))
    (isLink : lstat tree (root ++ (front ++ [name])) = some (.link target)) :
    ∃ place,
      stop tree root true links [] front = .arrived place ∧ tree.kind (root ++ place) = some .dir ∧
      tree.kind (root ++ (place ++ [name])) = some (.link target) := by
  have outside := real.stop_of_reached few reached
  cases stopped : stop tree root true links [] front with
  | arrived place =>
    rw [stopped] at reached outside
    cases reached with
    | dir isDir =>
      rw [real.lstat_eq few stopped isDir] at isLink
      exact ⟨place, rfl, isDir, isLink⟩
    | file isFile =>
      have walked : walk tree false systemLinkLimit [] (root ++ front) = some (root ++ place) :=
        walk_of_arrived outside
      simp [lstat, walked, isFile] at isLink
  | missing place missing rest =>
    rw [stopped] at outside
    have lost : walk tree false systemLinkLimit [] (root ++ front) = none := by
      rw [walk_eq_reach, outside]
      simp [above, reach]
    simp [lstat, lost] at isLink
  | notDirectory | tooManyLinks | escaped => rw [stopped] at reached; cases reached

/-- The first name of the suffix is missing from the directory the walk comes to. -/
def Absent (tree : FileTree) (root : Place) (stopped : Stop) (suffix : List Name) : Prop :=
  ∀ place, stopped = .arrived place → tree.kind (root ++ place) = some .dir →
    ∀ name rest, suffix = name :: rest → tree.kind (root ++ (place ++ [name])) = none

theorem filter_entries (entries : ∀ name ∈ suffix, IsEntry name) :
    suffix.filter (!isDot ·) = suffix := by
  rw [filter_eq_self]
  intro name isName
  simp [(entries name isName).1]

theorem RealRoot.prospect_append (real : RealRoot tree root)
    (entries : ∀ name ∈ suffix, IsEntry name)
    (absent : Absent tree root (stop tree root true links [] front) suffix)
    (ends : (stop tree root true links [] (front ++ suffix)).prospect = some final) : ∃ place,
    (stop tree root true links [] front).prospect = some place ∧ final = place ++ suffix := by
  have reached := real.reached ends
  cases stopped : stop tree root true links [] front with
  | arrived place =>
    refine ⟨place, rfl, ?_⟩
    cases suffix with
    | nil =>
      rw [append_nil, stopped] at ends
      simpa using (Option.some.inj ends).symm
    | cons name rest =>
      rcases goesOn_of_stop stopped with ⟨isDir, used, fewer, goesOn⟩ | ⟨_, last⟩
      · have missing := absent place stopped (isDir real.start) name rest rfl
        have whole := goesOn (links - used) (name :: rest)
        rw [Nat.add_sub_cancel' fewer, stop_missing (entries name mem_cons_self) missing]
          at whole
        rw [whole] at ends
        have filtered := filter_entries fun other isName =>
          entries other (mem_cons_of_mem name isName)
        simp only [prospect, filtered] at ends
        exact (Option.some.inj ends).symm
      · rw [last (name :: rest) (by simp)] at ends
        simp [prospect] at ends
  | missing place name rest =>
    refine ⟨_, rfl, ?_⟩
    rw [stop_append_stopped (by simp [stopped]), stopped] at ends
    simp only [later, prospect, filter_append, filter_entries entries] at ends
    simpa using (Option.some.inj ends).symm
  | notDirectory | tooManyLinks | escaped => rw [stopped] at reached; cases reached

def followDepth (tree : FileTree) : Nat → List Name → Except Stop Place
  | 0 => fun _ => .error .tooManyLinks
  | depth + 1 => resolveExistingPrefixDepth tree depth

theorem resolveDepth_eq (depth : Nat) (path : List Name) :
    resolveExistingPrefixDepth tree depth path =
      resolveProbe tree (followDepth tree depth) (cleanNames true path).reverse [] := by
  cases depth <;> rfl

/-- What the resolver is to find below the root, for walks that follow at most so
many links and are led over no parent directory by them. -/
def Resolves (tree : FileTree) (root : Place) (links : Nat) : Prop :=
  ∀ depth (names : List Name) (place resolved : Place), (∀ name ∈ names, IsEntry name) →
    PlainWalk tree root true [] names → (stop tree root true links [] names).prospect = some place →
      resolveExistingPrefixDepth tree depth (root ++ names) = .ok resolved →
        resolved = root ++ place

theorem stop_link_eq {rest : List Name} (entry : IsEntry name)
    (arrived : stop tree root true links [] front = .arrived place)
    (isDir : tree.kind (root ++ place) = some .dir)
    (isLink : tree.kind (root ++ (place ++ [name])) = some (.link target))
    (ends : (stop tree root true links [] (front ++ name :: rest)).prospect.isSome) : target.head? ≠
    some '/' ∧ ∃ fewer < links, ∀ second, stop tree root true links [] (front ++ name :: second) =
    stop tree root true fewer [] (front ++ (targetNames target ++ second)) := by
  obtain ⟨used, enough, goesOn⟩ := stop_append arrived isDir
  have whole : ∀ second, stop tree root true links [] (front ++ name :: second) =
      stop tree root true (links - used) place (name :: second) := by
    intro second
    rw [← goesOn (links - used) (name :: second), Nat.add_sub_cancel' enough]
  simp only [whole, stop_link entry isLink] at ends ⊢
  split at ends
  · simp [prospect] at ends
  next relative =>
  have isRelative : target.head? ≠ some '/' := by simpa using relative
  refine ⟨isRelative, ?_⟩
  cases left : links - used with
  | zero =>
    rw [left] at ends
    simp [stopFollowed, prospect] at ends
  | succ fewer =>
    refine ⟨used + fewer, by omega, ?_⟩
    intro second
    rw [if_neg relative, goesOn fewer, targetStart, if_neg isRelative]
    rfl

theorem few_eval (few : links ≤ systemLinkLimit) : links ≤ evalLinkLimit :=
  Nat.le_trans few (by decide)

theorem RealRoot.cleanNames_append (real : RealRoot tree root) (plain : Plain names) :
    cleanNames true (root ++ names) = root ++ names.filter (!isDot ·) := by
  rw [cleanNames_of_plain, filter_append, filter_entries real.entries]
  intro name isName
  rcases mem_append.mp isName with inRoot | inNames
  · exact (real.entries name inRoot).2
  · exact plain name inNames

theorem plain_of_entries (entries : ∀ name ∈ names, IsEntry name) :
    Plain names := fun name isName => (entries name isName).2

variable (real : RealRoot tree root)
include real

theorem RealRoot.resolveProbe_root {follow : List Name → Except Stop Place}
    (found : resolveProbe tree follow root.reverse suffix = .ok resolved) :
    resolved = root ++ suffix := by
  rcases eq_nil_or_concat root with rfl | ⟨parent, name, rfl⟩
  · exact (Except.ok.inj found).symm
  rw [concat_eq_append] at real found ⊢
  have parentDir : tree.kind parent = some .dir := FileTree.dir_of_append real.isDir
  have parentEntries : ∀ entry ∈ parent, IsEntry entry := fun entry isEntry =>
    real.entries entry (mem_append_left [name] isEntry)
  have arrived : ∀ links, stop tree [] false links [] parent = .arrived parent := by
    intro links
    have literal := @stop_literal tree [] [] false links [] parent parentEntries
      (by simpa using parentDir)
    rw [append_nil, stop_nil] at literal
    exact literal
  have isDir : lstat tree (parent ++ [name]) = some .dir := by
    rw [lstat_append_one (walk_of_arrived (arrived systemLinkLimit)) parentDir]
    exact real.isDir
  have whole : stop tree [] false evalLinkLimit [] (parent ++ [name]) =
    .arrived (parent ++ [name]) := by
    have literal := @stop_literal tree [] [] false evalLinkLimit [] (parent ++ [name]) real.entries
      (by simpa using real.isDir)
    rw [append_nil, stop_nil] at literal
    exact literal
  have regroup : (parent ++ [name]).reverse = name :: parent.reverse := by simp
  rw [regroup, resolveProbe, ← regroup, reverse_reverse, isDir, whole] at found
  exact (Except.ok.inj found).symm

variable (few : links ≤ systemLinkLimit)
include few

theorem RealRoot.resolve_link (later : ∀ fewer < links, Resolves tree root fewer)
    (entries : ∀ other ∈ front ++ name :: suffix, IsEntry other)
    (walks : PlainWalk tree root true [] (front ++ name :: suffix))
    (ends : (stop tree root true links [] (front ++ name :: suffix)).prospect = some final)
    (absent : Absent tree root (stop tree root true links [] (front ++ [name])) suffix)
    (isLink : lstat tree (root ++ (front ++ [name])) = some (.link target))
    (found : followDepth tree depth (targetStart (root ++ front) target ++ targetNames target) =
      .ok resolved) :
    resolved ++ suffix = root ++ final := by
  have entry : IsEntry name := entries name (by simp)
  have frontEntries : ∀ name ∈ front, IsEntry name := fun other isName =>
    entries other (mem_append_left _ isName)
  have suffixEntries : ∀ name ∈ suffix, IsEntry name := fun other isName =>
    entries other (mem_append_right front (mem_cons_of_mem _ isName))
  obtain ⟨place, arrived, isDir, linked⟩ := real.link_of_lstat few (real.reached ends) isLink
  have getsThere : (stop tree root true links [] (front ++ name :: suffix)).prospect.isSome := by
    rw [ends]
    rfl
  obtain ⟨isRelative, fewer, less, follows⟩ := stop_link_eq entry arrived isDir linked getsThere
  have plainTarget : Plain (targetNames target) :=
    walks target ((meets_append_iff arrived).mpr (.inr (.here entry linked)))
  -- the walk through the link, without the dots of its target
  have undotted : Undotted (front ++ targetNames target)
      (front ++ (targetNames target).filter (!isDot ·)) :=
    (undotted_filter (targetNames target)).append_left front
  rw [follows, ← append_assoc] at ends
  have ends' := prospect_undotted (undotted.append_right suffix) ends
  have absent' : Absent tree root
      (stop tree root true fewer [] (front ++ (targetNames target).filter (!isDot ·))) suffix := by
    intro inner arrivedThere innerDir
    apply absent inner ?_ innerDir
    have through := follows []
    rw [append_nil] at through
    have reached := real.reached ends
    have same := stop_undotted undotted reached.prospect_isSome
    rw [arrivedThere] at same
    rw [through]
    cases stopped : stop tree root true fewer [] (front ++ targetNames target) with
    | arrived other =>
      rw [stopped] at same
      exact same.symm
    | _ =>
      rw [stopped] at same
      simp [undot] at same
  obtain ⟨inner, innerEnds, rfl⟩ := real.prospect_append suffixEntries absent' ends'
  cases depth with
  | zero => simp [followDepth] at found
  | succ depth =>
    have found' : resolveExistingPrefixDepth tree depth
        (root ++ (front ++ (targetNames target).filter (!isDot ·))) = .ok resolved := by
      rw [← found, targetStart, if_neg isRelative]
      show _ = resolveExistingPrefixDepth tree depth _
      rw [resolveDepth_eq, resolveDepth_eq, append_assoc,
        real.cleanNames_append ((plain_of_entries frontEntries).append plainTarget),
        real.cleanNames_append ((plain_of_entries frontEntries).append fun other isName =>
          plainTarget other (mem_of_mem_filter isName))]
      simp
    have innerEntries : ∀ name ∈ front ++ (targetNames target).filter (!isDot ·), IsEntry name := by
      intro other isName
      rcases mem_append.mp isName with inFront | inTarget
      · exact frontEntries other inFront
      · obtain ⟨isName', notDot⟩ := mem_filter.mp inTarget
        exact ⟨by simpa using notDot, plainTarget other isName'⟩
    have innerWalks : PlainWalk tree root true []
      (front ++ (targetNames target).filter (!isDot ·)) := by
      intro other met
      apply walks
      rw [meets_append_iff arrived] at met ⊢
      refine met.imp_right fun inTarget => ?_
      have isMet := (inTarget.of_undotted (undotted_filter _)).append suffix
      exact .beyond entry linked (by simp [isRelative]) (by rwa [targetStart, if_neg isRelative])
    rw [later fewer less depth _ _ _ innerEntries innerWalks innerEnds found', append_assoc]

theorem RealRoot.resolveProbe_eq (later : ∀ fewer < links, Resolves tree root fewer)
    (entries : ∀ name ∈ front ++ suffix, IsEntry name)
    (walks : PlainWalk tree root true [] (front ++ suffix))
    (ends : (stop tree root true links [] (front ++ suffix)).prospect = some final)
    (absent : Absent tree root (stop tree root true links [] front) suffix)
    (found : resolveProbe tree (followDepth tree depth) (root ++ front).reverse suffix =
      .ok resolved) :
    resolved = root ++ final := by
  have suffixEntries : ∀ name ∈ suffix, IsEntry name := fun name isName =>
    entries name (mem_append_right front isName)
  induction front using reverseRecOn generalizing suffix with
  | nil =>
    rw [append_nil] at found
    obtain ⟨place, atRoot, rfl⟩ := real.prospect_append suffixEntries absent ends
    rw [stop_nil] at atRoot
    cases atRoot
    exact real.resolveProbe_root found
  | append_singleton front name ih =>
    have entry : IsEntry name := entries name (by simp)
    have regroup : (root ++ (front ++ [name])).reverse = name :: (root ++ front).reverse := by simp
    have regroup' : front ++ [name] ++ suffix = front ++ name :: suffix := by simp
    rw [regroup, resolveProbe, ← regroup, reverse_reverse, reverse_reverse] at found
    have reached := real.reached ends
    rw [regroup'] at ends entries walks
    split at found
    · next target isLink =>
      cases followed : followDepth tree depth
          (targetStart (root ++ front) target ++ targetNames target) with
      | error => rw [followed] at found; simp [Except.map] at found
      | ok inner =>
        rw [followed] at found
        rw [← Except.ok.inj found]
        exact real.resolve_link few later entries walks ends absent isLink followed
    next notLink =>
    rw [real.stop_of_reached (few_eval few) reached] at found
    cases stopped : stop tree root true links [] (front ++ [name]) with
    | arrived place =>
      rw [stopped] at found
      obtain ⟨place', atEnd, rfl⟩ := real.prospect_append suffixEntries absent (regroup' ▸ ends)
      rw [stopped] at atEnd
      cases atEnd
      rw [← Except.ok.inj found, append_assoc]
    | missing place missing rest =>
      rw [stopped] at found
      refine ih entries walks ends ?_ found (fun other isName => entries other
        (mem_append_right front isName))
      intro inner arrived innerDir first others isSuffix
      obtain ⟨rfl, rfl⟩ := cons.inj isSuffix
      obtain ⟨used, enough, goesOn⟩ := stop_append arrived innerDir
      have last := goesOn (links - used) [name]
      rw [Nat.add_sub_cancel' enough, stopped] at last
      cases kind : tree.kind (root ++ (inner ++ [name])) with
      | none => rfl
      | some kind' =>
        cases kind' with
        | dir =>
          rw [stop_dir entry kind, stop_nil] at last
          cases last
        | file =>
          rw [stop_file entry kind] at last
          cases last
        | link target =>
          have isLink := (real.lstat_eq few arrived innerDir).trans kind
          exact absurd isLink (notLink target)
    | notDirectory | tooManyLinks | escaped => rw [stopped] at reached; cases reached

/-- Where no link of a walk leads over a parent directory, the resolver finds where the walk
below the root would end. -/
theorem RealRoot.resolves : Resolves tree root links := by
  induction links using Nat.strongRecOn with
  | _ links ih =>
  intro depth names place resolved entries walks ends found
  rw [resolveDepth_eq, real.cleanNames_append (plain_of_entries entries), filter_entries entries]
    at found
  refine real.resolveProbe_eq few
    (fun fewer less => ih fewer less (Nat.le_trans (Nat.le_of_lt less) few))
      (by simpa using entries)
    (by simpa using walks) (by simpa using ends) ?_ found
  intro _ _ _ _ _ empty
  cases empty

end OpenExec.WorkspaceTools
