import OpenExec.LinkedTrees
import Mathlib.Data.List.Induction

/-!
# Where a walk stops

A walk over names either arrives, or stops at a missing entry with the names that are
still to come, or fails.
-/

namespace OpenExec.LinkedTrees

open List

variable {create : Bool} {first names fewer : List Name}

inductive Stop
  | arrived (place : Place)
  | missing (place : Place) (name : Name) (rest : List Name)
  | notDirectory
  | tooManyLinks
  | escaped
  deriving DecidableEq

/-- Walk below a root; `follow` goes on where a link leads. -/
def stopWith (tree : FileTree) (root : Place) (contained : Bool)
    (follow : Place → List Name → Stop) : Place → List Name → Stop
  | place, [] => .arrived place
  | place, name :: rest =>
    if isDot name then stopWith tree root contained follow place rest
    else if isDotDot name then
      if contained = true ∧ place = [] then .escaped
      else stopWith tree root contained follow place.dropLast rest
    else
      match tree.kind (root ++ (place ++ [name])) with
      | none => .missing place name rest
      | some .dir => stopWith tree root contained follow (place ++ [name]) rest
      | some .file => if rest = [] then .arrived (place ++ [name]) else .notDirectory
      | some (.link target) =>
        if contained = true ∧ target.head? = some '/' then .escaped
        else follow (targetStart place target) (targetNames target ++ rest)

/-- Walk below a root and follow at most so many links. -/
def stop (tree : FileTree) (root : Place) (contained : Bool) : Nat → Place → List Name → Stop
  | 0 => stopWith tree root contained fun _ _ => .tooManyLinks
  | links + 1 => stopWith tree root contained (stop tree root contained links)

def stopFollowed (tree : FileTree) (root : Place) (contained : Bool) :
    Nat → Place → List Name → Stop
  | 0 => fun _ _ => .tooManyLinks
  | links + 1 => stop tree root contained links

def Stop.prospect : Stop → Option Place
  | .arrived place => some place
  | .missing place name rest => some (place ++ name :: rest.filter (!isDot ·))
  | .notDirectory => none
  | .tooManyLinks => none
  | .escaped => none

def Stop.above (root : Place) : Stop → Stop
  | .arrived place => .arrived (root ++ place)
  | .missing place name rest => .missing (root ++ place) name rest
  | .notDirectory => .notDirectory
  | .tooManyLinks => .tooManyLinks
  | .escaped => .escaped

/-- Induction along a walk: over the links that are left, then over the names. -/
@[elab_as_elim]
theorem walk_induction {motive : Nat → Place → List Name → Prop}
    (nil : ∀ links place, motive links place [])
    (dot : ∀ links place name rest, isDot name → motive links place rest →
      motive links place (name :: rest))
    (dotDot : ∀ links place name rest, isDot name = false → isDotDot name →
      motive links place.dropLast rest → motive links place (name :: rest))
    (entry : ∀ links place name rest, IsEntry name → motive links (place ++ [name]) rest →
      (∀ fewer < links, ∀ place rest, motive fewer place rest) → motive links place (name :: rest))
    (links : Nat) (place : Place) (rest : List Name) : motive links place rest := by
  induction links using Nat.strongRecOn generalizing place rest with
  | _ links outer =>
  induction rest generalizing place with
  | nil => exact nil links place
  | cons name rest inner =>
    rcases isEntry_or name with isDot | ⟨notDot, isDotDot⟩ | isEntry
    · exact dot links place name rest isDot (inner place)
    · exact dotDot links place name rest notDot isDotDot (inner place.dropLast)
    · exact entry links place name rest isEntry (inner (place ++ [name])) outer

variable {tree next : FileTree} {root place middle final : Place} {contained : Bool} {links : Nat}
  {rest : List Name} {name : Name}

theorem stop_eq_stopWith : stop tree root contained links =
      stopWith tree root contained (stopFollowed tree root contained links) := by
  cases links <;> rfl

theorem stop_nil : stop tree root contained links place [] = .arrived place := by
  rw [stop_eq_stopWith]
  rfl

theorem stop_dot (dot : isDot name) : stop tree root contained links place (name :: rest) =
      stop tree root contained links place rest := by
  rw [stop_eq_stopWith, stopWith, if_pos dot]

theorem stop_dotDot (notDot : isDot name = false) (dotDot : isDotDot name) :
    stop tree root contained links place (name :: rest) = if contained ∧ place = [] then .escaped
      else stop tree root contained links place.dropLast rest := by
  rw [stop_eq_stopWith, stopWith, if_neg (by simp [notDot]), if_pos dotDot]

section

variable (entry : IsEntry name)
include entry

theorem stop_missing (missing : tree.kind (root ++ (place ++ [name])) = none) :
    stop tree root contained links place (name :: rest) = .missing place name rest := by
  rw [stop_eq_stopWith, stopWith, if_neg (by simp [entry.1]), if_neg (by simp [entry.2]), missing]

theorem stop_dir (isDir : tree.kind (root ++ (place ++ [name])) = some .dir) :
    stop tree root contained links place (name :: rest) =
      stop tree root contained links (place ++ [name]) rest := by
  rw [stop_eq_stopWith, stopWith, if_neg (by simp [entry.1]), if_neg (by simp [entry.2]), isDir]

theorem stop_file (isFile : tree.kind (root ++ (place ++ [name])) = some .file) :
    stop tree root contained links place (name :: rest) =
      if rest = [] then .arrived (place ++ [name]) else .notDirectory := by
  rw [stop_eq_stopWith, stopWith, if_neg (by simp [entry.1]), if_neg (by simp [entry.2]), isFile]

theorem stop_link {target : List Char}
    (isLink : tree.kind (root ++ (place ++ [name])) = some (.link target)) :
    stop tree root contained links place (name :: rest) =
      if contained ∧ target.head? = some '/' then .escaped
      else stopFollowed tree root contained links (targetStart place target)
        (targetNames target ++ rest) := by
  rw [stop_eq_stopWith, stopWith, if_neg (by simp [entry.1]), if_neg (by simp [entry.2]), isLink]

end

/-- What a walk makes of a stop. -/
def Stop.reach (create : Bool) : Stop → Option Place
  | .arrived place => some place
  | .missing place name rest => if create = true ∧ rest = [] then some (place ++ [name]) else none
  | .notDirectory => none
  | .tooManyLinks => none
  | .escaped => none

theorem walkWith_eq_reach {follow : Place → List Name → Option Place}
    {follow' : Place → List Name → Stop}
    (follows : ∀ place rest, follow place rest = (follow' place rest).reach create) :
    walkWith tree create follow place rest =
      (stopWith tree [] false follow' place rest).reach create := by
  induction rest generalizing place with
  | nil => rfl
  | cons name rest ih =>
    unfold walkWith stopWith
    split
    · exact ih
    split
    · rw [if_neg (by simp)]
      exact ih
    rw [nil_append]
    cases tree.kind (place ++ [name]) with
    | none => rfl
    | some kind =>
      cases kind with
      | dir => exact ih
      | file =>
        simp only
        split
        · rfl
        · rfl
      | link target =>
        simp only
        exact follows _ _

theorem walk_eq_reach :
    walk tree create links place rest = (stop tree [] false links place rest).reach create := by
  induction links generalizing place rest with
  | zero => exact walkWith_eq_reach fun _ _ => rfl
  | succ links ih => exact walkWith_eq_reach fun _ _ => ih

theorem walk_of_arrived (arrived : stop tree [] false links place rest = .arrived final) :
    walk tree create links place rest = some final := by
  rw [walk_eq_reach, arrived]
  rfl

theorem stop_above (inside : stop tree root true links place rest ≠ .escaped) :
    stop tree [] false links (root ++ place) rest =
      (stop tree root true links place rest).above root := by
  induction links, place, rest using walk_induction with
  | nil links place =>
    rw [stop_nil, stop_nil]
    rfl
  | dot links place name rest isDot ih =>
    rw [stop_dot isDot] at inside
    rw [stop_dot isDot, stop_dot isDot]
    exact ih inside
  | dotDot links place name rest notDot isDotDot ih =>
    rw [stop_dotDot notDot isDotDot] at inside
    rw [stop_dotDot notDot isDotDot, stop_dotDot notDot isDotDot, if_neg (by simp)]
    split at inside
    · exact absurd rfl inside
    · next notRoot =>
      have nonempty : place ≠ [] := by simpa using notRoot
      rw [if_neg notRoot, dropLast_append_of_ne_nil nonempty]
      exact ih inside
  | entry links place name rest isEntry ih outer =>
    have regroup : [] ++ (root ++ place ++ [name]) = root ++ (place ++ [name]) := by simp
    cases found : tree.kind (root ++ (place ++ [name])) with
    | none =>
      rw [stop_missing isEntry found, stop_missing isEntry (regroup ▸ found)]
      rfl
    | some kind =>
      cases kind with
      | dir =>
        rw [stop_dir isEntry found] at inside
        rw [stop_dir isEntry found, stop_dir isEntry (regroup ▸ found), append_assoc]
        exact ih inside
      | file =>
        rw [stop_file isEntry found, stop_file isEntry (regroup ▸ found), append_assoc]
        split
        · rfl
        · rfl
      | link target =>
        rw [stop_link isEntry found] at inside
        rw [stop_link isEntry found, stop_link isEntry (regroup ▸ found), if_neg (by simp)]
        split at inside
        · exact absurd rfl inside
        next relative =>
        have isRelative : target.head? ≠ some '/' := by simpa using relative
        rw [if_neg relative]
        simp only [targetStart, if_neg isRelative] at inside ⊢
        cases links with
        | zero => rfl
        | succ links => exact outer links (Nat.lt_succ_self links) _ _ inside

/-- The start of a walk: a directory, in a root that is one. -/
structure Start (tree : FileTree) (root place : Place) : Prop where
  rootDir : tree.kind root = some .dir
  isDir : tree.kind (root ++ place) = some .dir

theorem Start.dropLast (start : Start tree root place) : Start tree root place.dropLast := by
  refine ⟨start.rootDir, ?_⟩
  by_cases empty : place = []
  · rw [empty, dropLast_nil, append_nil]
    exact start.rootDir
  · rw [← dropLast_append_of_ne_nil empty]
    exact FileTree.dropLast_dir start.isDir

theorem Start.target (start : Start tree root place) (target : List Char) :
    Start tree root (targetStart place target) := by
  refine ⟨start.rootDir, ?_⟩
  unfold targetStart
  split
  · rw [append_nil]
    exact start.rootDir
  · exact start.isDir

/-- The stop of a walk that would go on with more names. -/
def Stop.later (second : List Name) : Stop → Stop
  | .arrived place => .arrived place
  | .missing place name rest => .missing place name (rest ++ second)
  | .notDirectory => .notDirectory
  | .tooManyLinks => .tooManyLinks
  | .escaped => .escaped

/-- What becomes of a walk with this stop when more names follow.  From a directory it goes on,
and has used a number of links that depends on the first names only. -/
def GoesOn (tree : FileTree) (root : Place) (contained : Bool) (links : Nat) (place : Place)
    (first : List Name) : Stop → Prop
  | .arrived middle =>
    ((Start tree root place → tree.kind (root ++ middle) = some .dir) ∧ ∃ used ≤ links,
        ∀ more second, stop tree root contained (used + more) place (first ++ second) =
          stop tree root contained more middle second) ∨
      (tree.kind (root ++ middle) = some .file ∧ ∀ second, second ≠ [] →
        stop tree root contained links place (first ++ second) = .notDirectory)
  | stopped => ∀ second,
      stop tree root contained links place (first ++ second) = stopped.later second

theorem GoesOn.step {onward : Place} {stopped : Stop} (extra : Nat)
    (same : ∀ more second, stop tree root contained (more + extra) place (first ++ second) =
      stop tree root contained more onward (names ++ second))
    (starts : Start tree root place → Start tree root onward)
    (goesOn : GoesOn tree root contained links onward names stopped) :
    GoesOn tree root contained (links + extra) place first stopped := by
  cases stopped with
  | arrived middle =>
    rcases goesOn with ⟨isDir, used, fewer, goesOn⟩ | ⟨isFile, last⟩
    · refine .inl ⟨isDir ∘ starts, used + extra, Nat.add_le_add_right fewer extra, ?_⟩
      intro more second
      rw [Nat.add_right_comm, same, goesOn]
    · exact .inr ⟨isFile, fun second more => (same links second).trans (last second more)⟩
  | _ => exact fun second => (same links second).trans (goesOn second)

theorem stop_goesOn :
    GoesOn tree root contained links place first
      (stop tree root contained links place first) := by
  induction links, place, first using walk_induction with
  | nil links place =>
    rw [stop_nil]
    exact .inl ⟨Start.isDir, 0, Nat.zero_le _,
      fun more second => by rw [Nat.zero_add, nil_append]⟩
  | dot links place name first isDot ih =>
    rw [stop_dot isDot]
    exact .step 0 (fun _ _ => stop_dot isDot) id ih
  | dotDot links place name first notDot isDotDot ih =>
    rw [stop_dotDot notDot isDotDot]
    split
    · next escapes =>
      exact fun second => (stop_dotDot notDot isDotDot).trans (if_pos escapes)
    · next inside =>
      exact .step 0 (fun _ _ => (stop_dotDot notDot isDotDot).trans (if_neg inside))
        Start.dropLast ih
  | entry links place name first isEntry ih outer =>
    cases found : tree.kind (root ++ (place ++ [name])) with
    | none =>
      rw [stop_missing isEntry found]
      exact fun second => stop_missing isEntry found
    | some kind =>
      cases kind with
      | dir =>
        rw [stop_dir isEntry found]
        exact .step 0 (fun _ _ => stop_dir isEntry found) (fun start => ⟨start.rootDir, found⟩) ih
      | file =>
        rw [stop_file isEntry found]
        split
        · next last =>
          subst last
          exact .inr ⟨found, fun second more => (stop_file isEntry found).trans (if_neg more)⟩
        · next notLast =>
          exact fun second => (stop_file isEntry found).trans (if_neg (by simp [notLast]))
      | link target =>
        rw [stop_link isEntry found]
        split
        · next escapes => exact fun second => (stop_link isEntry found).trans (if_pos escapes)
        next inside =>
        cases links with
        | zero => exact fun second => (stop_link isEntry found).trans (if_neg inside)
        | succ links =>
          refine .step 1 (fun more second => ?_) (·.target target)
            (outer links (Nat.lt_succ_self links) _ _)
          rw [cons_append, stop_link isEntry found, if_neg inside, append_assoc]
          rfl

theorem goesOn_of_stop {stopped : Stop}
    (stops : stop tree root contained links place first = stopped) :
    GoesOn tree root contained links place first stopped :=
  stops ▸ stop_goesOn

theorem stop_append (arrived : stop tree root contained links place first = .arrived middle)
    (isDir : tree.kind (root ++ middle) = some .dir) :
    ∃ used ≤ links, ∀ more second, stop tree root contained (used + more) place (first ++ second) =
      stop tree root contained more middle second := by
  rcases goesOn_of_stop arrived with ⟨_, goesOn⟩ | ⟨isFile, _⟩
  · exact goesOn
  · exact absurd (isFile.symm.trans isDir) (by simp)

theorem arrived_of_walk (reached : walk tree false links place first = some middle) :
    stop tree [] false links place first = .arrived middle := by
  rw [walk_eq_reach] at reached
  cases stopped : stop tree [] false links place first <;> simp_all [Stop.reach]

theorem walk_append (reached : walk tree false links place first = some middle)
    (isDir : tree.kind middle = some .dir) : ∃ left ≤ links, ∀ create second,
      walk tree create links place (first ++ second) = walk tree create left middle second := by
  obtain ⟨used, fewer, goesOn⟩ := stop_append (arrived_of_walk reached) isDir
  refine ⟨links - used, Nat.sub_le _ _, fun create second => ?_⟩
  have later := goesOn (links - used) second
  rw [Nat.add_sub_cancel' fewer] at later
  rw [walk_eq_reach, walk_eq_reach, later]

theorem stop_append_stopped
    (stopped : ∀ final, stop tree root contained links place rest ≠ .arrived final)
    (second : List Name) : stop tree root contained links place (rest ++ second) =
      (stop tree root contained links place rest).later second := by
  cases stops : stop tree root contained links place rest with
  | arrived final => exact absurd stops (stopped final)
  | _ => exact goesOn_of_stop stops second

theorem stop_of_links {more : Nat} (enough : links ≤ more)
    (finished : stop tree root contained links place rest ≠ .tooManyLinks) :
    stop tree root contained more place rest = stop tree root contained links place rest := by
  induction links, place, rest using walk_induction generalizing more with
  | nil links place => rw [stop_nil, stop_nil]
  | dot links place name rest isDot ih =>
    rw [stop_dot isDot] at finished
    rw [stop_dot isDot, stop_dot isDot]
    exact ih enough finished
  | dotDot links place name rest notDot isDotDot ih =>
    rw [stop_dotDot notDot isDotDot] at finished
    rw [stop_dotDot notDot isDotDot, stop_dotDot notDot isDotDot]
    split
    · rfl
    · next inside =>
      rw [if_neg inside] at finished
      exact ih enough finished
  | entry links place name rest isEntry ih outer =>
    cases found : tree.kind (root ++ (place ++ [name])) with
    | none => rw [stop_missing isEntry found, stop_missing isEntry found]
    | some kind =>
      cases kind with
      | dir =>
        rw [stop_dir isEntry found] at finished
        rw [stop_dir isEntry found, stop_dir isEntry found]
        exact ih enough finished
      | file => rw [stop_file isEntry found, stop_file isEntry found]
      | link target =>
        rw [stop_link isEntry found] at finished
        rw [stop_link isEntry found, stop_link isEntry found]
        split
        · rfl
        next inside =>
        rw [if_neg inside] at finished
        cases links with
        | zero => exact absurd rfl finished
        | succ links =>
          cases more with
          | zero => omega
          | succ more =>
            exact outer links (Nat.lt_succ_self links) _ _
              (Nat.le_of_succ_le_succ enough) finished

theorem walk_of_links {more : Nat} (enough : links ≤ more)
    (reached : walk tree create links place rest = some final) :
    walk tree create more place rest = some final := by
  rw [walk_eq_reach] at reached ⊢
  rw [stop_of_links enough, reached]
  intro tooMany
  rw [tooMany] at reached
  cases reached

theorem FileTree.dir_of_append {front back : Place}
    (isDir : tree.kind (front ++ back) = some .dir) : tree.kind front = some .dir := by
  induction back using reverseRecOn with
  | nil => simpa using isDir
  | append_singleton back name ih =>
    apply ih
    apply tree.parent
    rw [append_assoc, isDir]
    rfl

theorem stop_literal {front : Place} (entries : ∀ name ∈ front, IsEntry name)
    (isDir : tree.kind (root ++ (place ++ front)) = some .dir) :
    stop tree root contained links place (front ++ rest) =
      stop tree root contained links (place ++ front) rest := by
  induction front generalizing place with
  | nil => simp
  | cons name front ih =>
    have regroup : root ++ (place ++ name :: front) = root ++ (place ++ [name]) ++ front := by simp
    rw [cons_append, stop_dir (entries name mem_cons_self)
      (FileTree.dir_of_append (regroup ▸ isDir)),
      ih (fun other isName => entries other (mem_cons_of_mem _ isName))
        (by simpa using isDir)]
    simp

/-- A walk over the names of a place that was reached comes there again. -/
theorem walk_reached {more : Nat} (entries : ∀ name ∈ final, IsEntry name)
    (reached : walk tree false links [] rest = some final) :
    walk tree create more [] final = some final := by
  apply walk_of_arrived
  rcases goesOn_of_stop (arrived_of_walk reached) with ⟨isDir, _⟩ | ⟨isFile, _⟩
  · have literal := @stop_literal tree [] [] false more [] final entries
      (isDir ⟨tree.root, tree.root⟩)
    rwa [append_nil, stop_nil] at literal
  rcases eq_nil_or_concat final with rfl | ⟨parent, name, rfl⟩
  · exact absurd (isFile.symm.trans tree.root) (by simp)
  rw [concat_eq_append] at entries isFile ⊢
  have parentDir : tree.kind parent = some .dir := by
    apply tree.parent
    rw [show tree.kind (parent ++ [name]) = _ from isFile]
    rfl
  rw [stop_literal (fun other isName => entries other (mem_append_left _ isName)) parentDir,
    nil_append, stop_file (entries name (by simp)) isFile, if_pos rfl]

/-- The second list is the first without some of its dots. -/
inductive Undotted : List Name → List Name → Prop
  | nil : Undotted [] []
  | skip {name : Name} {names fewer : List Name} : isDot name = true → Undotted names fewer →
      Undotted (name :: names) fewer
  | keep {names fewer : List Name} (name : Name) : Undotted names fewer →
      Undotted (name :: names) (name :: fewer)

theorem Undotted.refl (names : List Name) : Undotted names names := by
  induction names with
  | nil => exact .nil
  | cons name names ih => exact .keep name ih

theorem Undotted.append_left (undotted : Undotted names fewer) (front : List Name) :
    Undotted (front ++ names) (front ++ fewer) := by
  induction front with
  | nil => exact undotted
  | cons name front ih => exact .keep name ih

theorem Undotted.append_right (undotted : Undotted names fewer) (back : List Name) :
    Undotted (names ++ back) (fewer ++ back) := by
  induction undotted with
  | nil => exact .refl back
  | skip dot _ ih => exact .skip dot ih
  | keep name _ ih => exact .keep name ih

theorem undotted_filter (names : List Name) : Undotted names (names.filter (!isDot ·)) := by
  induction names with
  | nil => exact .nil
  | cons name names ih =>
    cases dot : isDot name with
    | true => simpa [dot] using Undotted.skip dot ih
    | false => simpa [dot] using Undotted.keep name ih

theorem Undotted.filter_eq (undotted : Undotted names fewer) :
    names.filter (!isDot ·) = fewer.filter (!isDot ·) := by
  induction undotted with
  | nil => rfl
  | skip dot _ ih => simpa [dot] using ih
  | keep name _ ih => simp only [filter_cons, ih]

/-- The stop with the dots left out of the names to come. -/
def Stop.undot : Stop → Stop
  | .arrived place => .arrived place
  | .missing place name rest => .missing place name (rest.filter (!isDot ·))
  | .notDirectory => .notDirectory
  | .tooManyLinks => .tooManyLinks
  | .escaped => .escaped

theorem Stop.prospect_undot (stopped : Stop) : stopped.undot.prospect = stopped.prospect := by
  cases stopped with
  | missing place name rest => simp [undot, prospect]
  | _ => rfl

theorem stop_undotted (undotted : Undotted rest fewer)
    (ends : (stop tree root contained links place rest).prospect.isSome) :
    (stop tree root contained links place fewer).undot =
      (stop tree root contained links place rest).undot := by
  induction links, place, rest using walk_induction generalizing fewer with
  | nil links place =>
    cases undotted
    rfl
  | dot links place name rest isDot ih =>
    rw [stop_dot isDot] at ends ⊢
    cases undotted with
    | skip _ undotted => exact ih undotted ends
    | keep _ undotted =>
      rw [stop_dot isDot]
      exact ih undotted ends
  | dotDot links place name rest notDot isDotDot ih =>
    cases undotted with
    | skip dot _ => exact absurd (notDot.symm.trans dot) (by simp)
    | keep _ undotted =>
      rw [stop_dotDot notDot isDotDot] at ends
      rw [stop_dotDot notDot isDotDot, stop_dotDot notDot isDotDot]
      split
      · rfl
      · next inside =>
        rw [if_neg inside] at ends
        exact ih undotted ends
  | entry links place name rest isEntry ih outer =>
    cases undotted with
    | skip dot _ => exact absurd (isEntry.1.symm.trans dot) (by simp)
    | @keep _ fewer _ undotted =>
      cases found : tree.kind (root ++ (place ++ [name])) with
      | none =>
        rw [stop_missing isEntry found, stop_missing isEntry found, Stop.undot, Stop.undot,
          undotted.filter_eq]
      | some kind =>
        cases kind with
        | dir =>
          rw [stop_dir isEntry found] at ends
          rw [stop_dir isEntry found, stop_dir isEntry found]
          exact ih undotted ends
        | file =>
          rw [stop_file isEntry found] at ends
          by_cases last : rest = []
          · subst last
            cases undotted
            rfl
          · rw [if_neg last] at ends
            simp [Stop.prospect] at ends
        | link target =>
          rw [stop_link isEntry found] at ends
          rw [stop_link isEntry found, stop_link isEntry found]
          split
          · rfl
          next inside =>
          rw [if_neg inside] at ends
          cases links with
          | zero => rfl
          | succ links =>
            exact outer links (Nat.lt_succ_self links) _ _
              (undotted.append_left (targetNames target)) ends

theorem prospect_undotted (undotted : Undotted rest fewer)
    (ends : (stop tree root contained links place rest).prospect = some final) :
    (stop tree root contained links place fewer).prospect = some final := by
  rw [← Stop.prospect_undot, stop_undotted undotted (by simp [ends]), Stop.prospect_undot, ends]

/-- Names without a parent directory among them. -/
def Plain (names : List Name) : Prop := ∀ name ∈ names, isDotDot name = false

section

variable (tree : FileTree) (root : Place) (contained : Bool)

/-- The links a walk meets, by their targets.  What is missing is passed like a directory. -/
inductive Meets : Place → List Name → List Char → Prop
  | dot {place name rest target} (dot : isDot name) (later : Meets place rest target) :
      Meets place (name :: rest) target
  | dotDot {place name rest target} (notDot : isDot name = false) (dotDot : isDotDot name)
      (later : Meets place.dropLast rest target) : Meets place (name :: rest) target
  | pass {place name rest target} (entry : IsEntry name)
      (unlinked : ∀ link, tree.kind (root ++ (place ++ [name])) ≠ some (.link link))
      (later : Meets (place ++ [name]) rest target) : Meets place (name :: rest) target
  | here {place name rest target} (entry : IsEntry name)
      (isLink : tree.kind (root ++ (place ++ [name])) = some (.link target)) :
      Meets place (name :: rest) target
  | beyond {place name rest link target} (entry : IsEntry name)
      (isLink : tree.kind (root ++ (place ++ [name])) = some (.link link))
      (followed : ¬ (contained = true ∧ link.head? = some '/'))
      (later : Meets (targetStart place link) (targetNames link ++ rest) target) :
      Meets place (name :: rest) target

end

/-- Trees with the same links. -/
structure SameLinks (tree next : FileTree) : Prop where
  kept : ∀ {place target}, tree.kind place = some (.link target) →
    next.kind place = some (.link target)
  noNew : ∀ {place target}, next.kind place = some (.link target) →
    tree.kind place = some (.link target)

variable {target : List Char}

theorem Meets.of_sameLinks (same : SameLinks tree next)
    (meets : Meets next root contained place rest target) :
    Meets tree root contained place rest target := by
  induction meets with
  | dot dot _ ih => exact .dot dot ih
  | dotDot notDot dotDot _ ih => exact .dotDot notDot dotDot ih
  | pass entry unlinked _ ih =>
    exact .pass entry (fun link isLink => unlinked link (same.kept isLink)) ih
  | here entry isLink => exact .here entry (same.noNew isLink)
  | beyond entry isLink followed _ ih => exact .beyond entry (same.noNew isLink) followed ih

section

theorem meets_dot (dot : isDot name) : Meets tree root contained place (name :: rest) target ↔
    Meets tree root contained place rest target := by
  constructor
  · intro meets
    cases meets with
    | dot _ later => exact later
    | dotDot notDot _ _ => exact absurd (notDot.symm.trans dot) (by simp)
    | pass entry _ _ | here entry _ | beyond entry _ _ _ =>
      exact absurd (entry.1.symm.trans dot) (by simp)
  · exact .dot dot

theorem meets_dotDot (notDot : isDot name = false) (dotDot : isDotDot name) :
    Meets tree root contained place (name :: rest) target ↔
      Meets tree root contained place.dropLast rest target := by
  constructor
  · intro meets
    cases meets with
    | dot dot _ => exact absurd (notDot.symm.trans dot) (by simp)
    | dotDot _ _ later => exact later
    | pass entry _ _ | here entry _ | beyond entry _ _ _ =>
      exact absurd (entry.2.symm.trans dotDot) (by simp)
  · exact .dotDot notDot dotDot

variable (entry : IsEntry name)
include entry

theorem meets_pass (unlinked : ∀ link, tree.kind (root ++ (place ++ [name])) ≠ some (.link link)) :
    Meets tree root contained place (name :: rest) target ↔
      Meets tree root contained (place ++ [name]) rest target := by
  constructor
  · intro meets
    cases meets with
    | dot dot _ => exact absurd (entry.1.symm.trans dot) (by simp)
    | dotDot _ dotDot _ => exact absurd (entry.2.symm.trans dotDot) (by simp)
    | pass _ _ later => exact later
    | here _ isLink | beyond _ isLink _ _ => exact absurd isLink (unlinked _)
  · exact .pass entry unlinked

theorem meets_link {link : List Char}
    (isLink : tree.kind (root ++ (place ++ [name])) = some (.link link))
    (followed : ¬ (contained = true ∧ link.head? = some '/')) :
    Meets tree root contained place (name :: rest) target ↔ target = link ∨
      Meets tree root contained (targetStart place link) (targetNames link ++ rest) target := by
  constructor
  · intro meets
    cases meets with
    | dot dot _ => exact absurd (entry.1.symm.trans dot) (by simp)
    | dotDot _ dotDot _ => exact absurd (entry.2.symm.trans dotDot) (by simp)
    | pass _ unlinked _ => exact absurd isLink (unlinked link)
    | here _ isTarget =>
      rw [isLink] at isTarget
      cases isTarget
      exact .inl rfl
    | beyond _ isOther _ later =>
      rw [isLink] at isOther
      cases isOther
      exact .inr later
  · rintro (rfl | later)
    · exact .here entry isLink
    · exact .beyond entry isLink followed later

end

theorem Meets.append (second : List Name)
    (meets : Meets tree root contained place rest target) :
    Meets tree root contained place (rest ++ second) target := by
  induction meets with
  | dot dot _ ih => exact .dot dot ih
  | dotDot notDot dotDot _ ih => exact .dotDot notDot dotDot ih
  | pass entry unlinked _ ih => exact .pass entry unlinked ih
  | here entry isLink => exact .here entry isLink
  | beyond entry isLink followed _ ih =>
    rw [append_assoc] at ih
    exact .beyond entry isLink followed ih

theorem Undotted.cons_inv (undotted : Undotted rest (name :: fewer)) :
    ∃ later, Undotted later fewer ∧ ∀ place target,
      Meets tree root contained place (name :: later) target →
        Meets tree root contained place rest target := by
  induction rest with
  | nil => cases undotted
  | cons other rest ih =>
    cases undotted with
    | skip dot undotted =>
      obtain ⟨later, isUndotted, meets⟩ := ih undotted
      exact ⟨later, isUndotted, fun place target met => .dot dot (meets place target met)⟩
    | keep _ undotted => exact ⟨rest, undotted, fun _ _ met => met⟩

theorem Meets.of_undotted
    (meets : Meets tree root contained place fewer target) (undotted : Undotted rest fewer) :
    Meets tree root contained place rest target := by
  induction meets generalizing rest with
  | dot dot _ ih =>
    obtain ⟨later, isUndotted, met⟩ := undotted.cons_inv
    exact met _ _ (.dot dot (ih isUndotted))
  | dotDot notDot dotDot _ ih =>
    obtain ⟨later, isUndotted, met⟩ := undotted.cons_inv
    exact met _ _ (.dotDot notDot dotDot (ih isUndotted))
  | pass entry unlinked _ ih =>
    obtain ⟨later, isUndotted, met⟩ := undotted.cons_inv
    exact met _ _ (.pass entry unlinked (ih isUndotted))
  | here entry isLink =>
    obtain ⟨later, _, met⟩ := undotted.cons_inv
    exact met _ _ (.here entry isLink)
  | beyond entry isLink followed _ ih =>
    obtain ⟨later, isUndotted, met⟩ := undotted.cons_inv
    exact met _ _ (.beyond entry isLink followed (ih (isUndotted.append_left _)))

/-- A walk that arrives meets what its first names meet, and then what the others meet from
there. -/
theorem meets_append_iff
    (arrived : stop tree root contained links place first = .arrived middle) :
    Meets tree root contained place (first ++ rest) target ↔
      Meets tree root contained place first target ∨
        Meets tree root contained middle rest target := by
  induction links, place, first using walk_induction with
  | nil links place =>
    rw [stop_nil] at arrived
    cases arrived
    exact ⟨.inr, fun met => met.resolve_left nofun⟩
  | dot links place name first isDot ih =>
    rw [stop_dot isDot] at arrived
    rw [cons_append, meets_dot isDot, meets_dot isDot, ih arrived]
  | dotDot links place name first notDot isDotDot ih =>
    rw [stop_dotDot notDot isDotDot] at arrived
    split at arrived
    · cases arrived
    rw [cons_append, meets_dotDot notDot isDotDot, meets_dotDot notDot isDotDot, ih arrived]
  | entry links place name first isEntry ih outer =>
    rw [cons_append]
    cases found : tree.kind (root ++ (place ++ [name])) with
    | none =>
      rw [stop_missing isEntry found] at arrived
      cases arrived
    | some kind =>
      cases kind with
      | dir =>
        rw [stop_dir isEntry found] at arrived
        rw [meets_pass isEntry (by simp [found]), meets_pass isEntry (by simp [found]), ih arrived]
      | file =>
        rw [stop_file isEntry found] at arrived
        split at arrived
        · next last =>
          subst last
          cases arrived
          rw [nil_append, meets_pass isEntry (by simp [found]),
            meets_pass isEntry (by simp [found])]
          exact ⟨.inr, fun met => met.resolve_left nofun⟩
        · cases arrived
      | link link =>
        rw [stop_link isEntry found] at arrived
        split at arrived
        · cases arrived
        next followed =>
        cases links with
        | zero => cases arrived
        | succ links =>
          rw [meets_link isEntry found followed, meets_link isEntry found followed, ← append_assoc,
            outer links (Nat.lt_succ_self links) _ _ arrived, or_assoc]

/-- A name of a link that the walk meets. -/
def MeetsName (tree : FileTree) (place : Place) (rest : List Name) (name : Name) : Prop :=
  ∃ target, Meets tree [] false place rest target ∧ name ∈ targetNames target

/-- Where the names of a place that a walk reaches come from. -/
structure Composed (tree : FileTree) (place : Place) (rest : List Name) (final : Place) : Prop where
  names : ∀ name ∈ final, name ∈ place ∨ name ∈ rest ∨ MeetsName tree place rest name
  inner : ∀ name ∈ final.dropLast,
    name ∈ place ∨ name ∈ rest.dropLast ∨ MeetsName tree place rest name
  last : tree.kind final ≠ some .dir → ∀ name, final.getLast? = some name →
    rest.getLast? = some name ∨ MeetsName tree place rest name

theorem composed_concat (place : Place) (name : Name) :
    Composed tree place [name] (place ++ [name]) where
  names := by
    intro other isName
    rcases mem_append.mp isName with earlier | last
    · exact .inl earlier
    · exact .inr (.inl last)
  inner := by
    intro other isName
    rw [dropLast_concat] at isName
    exact .inl isName
  last := by
    intro _ other isLast
    rw [getLast?_concat] at isLast
    exact .inl isLast

theorem mem_dropLast_cons {other : Name} (isName : other ∈ rest.dropLast) :
    other ∈ (name :: rest).dropLast := by
  cases rest with
  | nil => simp at isName
  | cons first rest => exact mem_cons_of_mem _ isName

theorem getLast?_cons {other : Name} (isLast : rest.getLast? = some other) :
    (name :: rest).getLast? = some other := by
  cases rest with
  | nil => simp at isLast
  | cons first rest => exact isLast

theorem Composed.step {onward : Place} (composed : Composed tree onward names final)
    (met : ∀ {other}, MeetsName tree onward names other → MeetsName tree place rest other)
    (start : ∀ {other}, other ∈ onward → other ∈ place ∨ other ∈ rest.dropLast)
    (inner : ∀ {other}, other ∈ names.dropLast →
      other ∈ rest.dropLast ∨ MeetsName tree place rest other)
    (last : ∀ {other}, names.getLast? = some other →
      rest.getLast? = some other ∨ MeetsName tree place rest other) :
    Composed tree place rest final where
  names := by
    intro other isName
    rcases composed.names other isName with started | given | isMet
    · exact (start started).imp_right fun inRest => .inl (dropLast_subset _ inRest)
    · refine .inr ?_
      rcases eq_nil_or_concat names with rfl | ⟨front, ending, rfl⟩
      · cases given
      rw [concat_eq_append] at given inner last
      rcases mem_append.mp given with inFront | isEnding
      · rw [dropLast_concat] at inner
        exact (inner inFront).imp_left (dropLast_subset _ ·)
      · obtain rfl := mem_singleton.mp isEnding
        rw [getLast?_concat] at last
        exact (last rfl).imp_left mem_of_getLast?
    · exact .inr (.inr (met isMet))
  inner := by
    intro other isName
    rcases composed.inner other isName with started | given | isMet
    · exact (start started).imp_right .inl
    · exact .inr (inner given)
    · exact .inr (.inr (met isMet))
  last := by
    intro notDir other isLast
    rcases composed.last notDir other isLast with given | isMet
    · exact last given
    · exact .inr (met isMet)

theorem walk_composed (start : tree.kind place = some .dir)
    (reached : walk tree create links place rest = some final) :
    Composed tree place rest final := by
  induction links, place, rest using walk_induction with
  | nil links place =>
    rw [walk_nil] at reached
    cases reached
    exact ⟨fun _ => .inl, fun _ isName => .inl (dropLast_subset _ isName),
      fun notDir => absurd start notDir⟩
  | dot links place name rest isDot ih =>
    rw [walk_dot isDot] at reached
    exact (ih start reached).step (fun ⟨target, meets, isName⟩ =>
      ⟨target, .dot isDot meets, isName⟩)
      .inl (.inl ∘ mem_dropLast_cons) (.inl ∘ getLast?_cons)
  | dotDot links place name rest notDot isDotDot ih =>
    rw [walk_dotDot notDot isDotDot] at reached
    exact (ih (FileTree.dropLast_dir start) reached).step
      (fun ⟨target, meets, isName⟩ => ⟨target, .dotDot notDot isDotDot meets, isName⟩)
      (.inl ∘ (dropLast_subset _ ·)) (.inl ∘ mem_dropLast_cons) (.inl ∘ getLast?_cons)
  | entry links place name rest isEntry ih outer =>
    rw [walk_entry isEntry] at reached
    split at reached
    · obtain ⟨⟨_, rfl⟩, ⟨⟩⟩ := Option.ite_none_right_eq_some.mp reached
      exact composed_concat place name
    · next isDir =>
      cases rest with
      | nil =>
        rw [walk_nil] at reached
        cases reached
        exact composed_concat place name
      | cons first rest =>
        refine (ih isDir reached).step
          (fun ⟨target, meets, isName⟩ => ⟨target, .pass isEntry (by simp [isDir]) meets, isName⟩)
          ?_ (.inl ∘ mem_dropLast_cons) (.inl ∘ getLast?_cons)
        intro other isName
        exact (mem_append.mp isName).imp_right fun isFirst => by
          rw [mem_singleton.mp isFirst]
          exact mem_cons_self
    · obtain ⟨rfl, ⟨⟩⟩ := Option.ite_none_right_eq_some.mp reached
      exact composed_concat place name
    · next target isLink =>
      have named : ∀ {other}, other ∈ targetNames target →
          MeetsName tree place (name :: rest) other := fun isName =>
        ⟨target, .here isEntry isLink, isName⟩
      cases links with
      | zero => cases reached
      | succ links =>
        refine (outer links (Nat.lt_succ_self links) _ _ ?_ reached).step
          (fun ⟨other, meets, isName⟩ => ⟨other, .beyond isEntry isLink (by simp) meets, isName⟩)
          ?_ ?_ ?_
        · unfold targetStart
          split
          · exact tree.root
          · exact start
        · intro other isName
          unfold targetStart at isName
          split at isName
          · cases isName
          · exact .inl isName
        · intro other isName
          cases rest with
          | nil =>
            rw [append_nil] at isName
            exact .inr (named (dropLast_subset _ isName))
          | cons first rest =>
            rw [dropLast_append_of_ne_nil (by simp)] at isName
            exact (mem_append.mp isName).symm.imp mem_dropLast_cons named
        · intro other isLast
          cases rest with
          | nil =>
            rw [append_nil] at isLast
            exact .inr (named (mem_of_getLast? isLast))
          | cons first rest =>
            rw [getLast?_append_of_ne_nil _ (by simp)] at isLast
            exact .inl (getLast?_cons isLast)

/-- No link that the walk meets leads over a parent directory. -/
def PlainWalk (tree : FileTree) (root : Place) (contained : Bool) (place : Place)
    (rest : List Name) : Prop :=
  ∀ target, Meets tree root contained place rest target → Plain (targetNames target)

theorem Plain.tail {names : List Name} (plain : Plain (name :: names)) : Plain names :=
  fun other isName => plain other (mem_cons_of_mem _ isName)

theorem Plain.append {second : List Name} (plain : Plain first) (plain' : Plain second) :
    Plain (first ++ second) := by
  intro name isName
  rcases mem_append.mp isName with inFirst | inSecond
  · exact plain name inFirst
  · exact plain' name inSecond

section

variable (walks : PlainWalk tree root contained place (name :: rest))
include walks

theorem PlainWalk.dot (dot : isDot name) : PlainWalk tree root contained place rest :=
  fun target met => walks target (.dot dot met)

variable (entry : IsEntry name)
include entry

theorem PlainWalk.pass
    (unlinked : ∀ link, tree.kind (root ++ (place ++ [name])) ≠ some (.link link)) :
    PlainWalk tree root contained (place ++ [name]) rest :=
  fun target met => walks target (.pass entry unlinked met)

variable (isLink : tree.kind (root ++ (place ++ [name])) = some (.link target))
include isLink

theorem PlainWalk.plain : Plain (targetNames target) := walks target (.here entry isLink)

theorem PlainWalk.beyond (followed : ¬ (contained = true ∧ target.head? = some '/')) :
    PlainWalk tree root contained (targetStart place target) (targetNames target ++ rest) :=
  fun other met => walks other (.beyond entry isLink followed met)

end

theorem PlainWalk.of_sameLinks (same : SameLinks tree next)
    (walks : PlainWalk tree root contained place rest) :
    PlainWalk next root contained place rest :=
  fun target met => walks target (met.of_sameLinks same)

theorem prospect_of_empty (empty : ∀ name, tree.kind (root ++ (place ++ [name])) = none)
    (plain : Plain rest) :
    (stop tree root contained links place rest).prospect =
      some (place ++ rest.filter (!isDot ·)) := by
  induction rest with
  | nil => simp [stop_nil, Stop.prospect]
  | cons name rest ih =>
    rcases isEntry_or name with dot | ⟨_, dotDot⟩ | entry
    · rw [stop_dot dot, ih plain.tail]
      simp [dot]
    · exact absurd (plain name mem_cons_self) (by simp [dotDot])
    · rw [stop_missing entry (empty name)]
      simp [Stop.prospect, entry.1]

theorem prospect_addDir {parent : Place} {added : Name}
    {isDir : tree.kind (root ++ parent) = some .dir}
    (missing : tree.kind (root ++ (parent ++ [added])) = none)
    (walks : PlainWalk tree root contained place rest) (plain : Plain rest) :
    (stop (tree.addDir (root ++ parent) added isDir) root contained links place rest).prospect =
      (stop tree root contained links place rest).prospect := by
  have kinds : ∀ place, (tree.addDir (root ++ parent) added isDir).kind (root ++ place) =
      if place = parent ++ [added] then some .dir else tree.kind (root ++ place) := by
    intro place
    show (if root ++ place = root ++ parent ++ [added] then some Kind.dir else _) = _
    simp only [append_assoc, append_right_inj]
  have empty : ∀ name, (tree.addDir (root ++ parent) added isDir).kind
      (root ++ (parent ++ [added] ++ [name])) = none := by
    intro name
    rw [kinds, if_neg (by simp)]
    cases found : tree.kind (root ++ (parent ++ [added] ++ [name])) with
    | none => rfl
    | some kind =>
      rw [← append_assoc root] at found
      have isParent := tree.parent (show (tree.kind _).isSome by rw [found]; rfl)
      exact absurd (missing.symm.trans isParent) (by simp)
  induction links, place, rest using walk_induction with
  | nil links place => rw [stop_nil, stop_nil]
  | dot links place name rest isDot ih =>
    rw [stop_dot isDot, stop_dot isDot]
    exact ih (walks.dot isDot) plain.tail
  | dotDot links place name rest notDot isDotDot ih =>
    exact absurd (plain name mem_cons_self) (by simp [isDotDot])
  | entry links place name rest isEntry ih outer =>
    by_cases same : place ++ [name] = parent ++ [added]
    · have isNew : (tree.addDir (root ++ parent) added isDir).kind (root ++ (place ++ [name])) =
          some .dir := by rw [kinds, if_pos same]
      rw [stop_dir isEntry isNew, stop_missing isEntry (same ▸ missing),
        prospect_of_empty (same ▸ empty) plain.tail]
      simp [Stop.prospect]
    have unchanged : (tree.addDir (root ++ parent) added isDir).kind (root ++ (place ++ [name])) =
        tree.kind (root ++ (place ++ [name])) := by rw [kinds, if_neg same]
    cases found : tree.kind (root ++ (place ++ [name])) with
    | none =>
      rw [stop_missing isEntry found, stop_missing isEntry (unchanged.trans found)]
    | some kind =>
      cases kind with
      | dir =>
        rw [stop_dir isEntry found, stop_dir isEntry (unchanged.trans found)]
        exact ih (walks.pass isEntry (by simp [found])) plain.tail
      | file =>
        rw [stop_file isEntry found, stop_file isEntry (unchanged.trans found)]
      | link target =>
        rw [stop_link isEntry found, stop_link isEntry (unchanged.trans found)]
        split
        · rfl
        next followed =>
        cases links with
        | zero => rfl
        | succ links =>
          exact outer links (Nat.lt_succ_self links) _ _ (walks.beyond isEntry found followed)
            ((walks.plain isEntry found).append plain.tail)

end OpenExec.LinkedTrees
