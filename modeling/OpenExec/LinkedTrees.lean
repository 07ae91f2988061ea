import OpenExec.SeparatedText
import Mathlib.Data.List.Basic

/-!
# File trees with symbolic links

A tree gives the kind of what is found at each real path.
-/

namespace OpenExec.LinkedTrees

open List

abbrev Name := List Char

abbrev Place := List Name

variable {create' : Bool} {final : Place} {more : Nat}

inductive Kind
  | dir
  | file
  | link (target : List Char)
  deriving DecidableEq

structure FileTree where
  kind : Place → Option Kind
  root : kind [] = some .dir
  parent : ∀ {place : Place} {name : Name}, (kind (place ++ [name])).isSome → kind place = some .dir

def FileTree.ofEntries (entries : List (Place × Kind)) (root : entries.lookup [] = some .dir)
    (closed : ∀ entry ∈ entries, entry.1 = [] ∨ entries.lookup entry.1.dropLast = some .dir) :
    FileTree where
  kind := fun place => entries.lookup place
  root := root
  parent := by
    intro place name found
    obtain ⟨kind, listed⟩ := Option.isSome_iff_exists.mp found
    obtain ⟨before, after, isEntry, _⟩ := List.lookup_eq_some_iff.mp listed
    have parentDir := closed (place ++ [name], kind) (by rw [isEntry]; simp)
    simpa using parentDir

def targetNames (target : List Char) : List Name := target.splitOn '/'

def targetStart (place : Place) (target : List Char) : Place :=
  if target.head? = some '/' then [] else place

def isDot (name : Name) : Bool := name == [] || name == ['.']

def isDotDot (name : Name) : Bool := name == ['.', '.']

def IsEntry (name : Name) : Prop := isDot name = false ∧ isDotDot name = false

/-- Walk from a directory; `follow` goes on where a link leads. -/
def walkWith (tree : FileTree) (create : Bool) (follow : Place → List Name → Option Place) :
    Place → List Name → Option Place
  | place, [] => some place
  | place, name :: rest =>
    if isDot name then walkWith tree create follow place rest
    else if isDotDot name then walkWith tree create follow place.dropLast rest
    else
      match tree.kind (place ++ [name]) with
      | none => if create = true ∧ rest = [] then some (place ++ [name]) else none
      | some .dir => walkWith tree create follow (place ++ [name]) rest
      | some .file => if rest = [] then some (place ++ [name]) else none
      | some (.link target) => follow (targetStart place target) (targetNames target ++ rest)

/-- Walk and follow at most so many links. -/
def walk (tree : FileTree) (create : Bool) : Nat → Place → List Name → Option Place
  | 0 => walkWith tree create fun _ _ => none
  | links + 1 => walkWith tree create (walk tree create links)

def followed (tree : FileTree) (create : Bool) : Nat → Place → List Name → Option Place
  | 0 => fun _ _ => none
  | links + 1 => walk tree create links

variable {tree next third : FileTree} {create : Bool} {links : Nat} {place : Place}
  {rest : List Name} {name : Name} {follow : Place → List Name → Option Place}

theorem walk_eq_walkWith :
    walk tree create links = walkWith tree create (followed tree create links) := by
  cases links <;> rfl

theorem walk_nil : walk tree create links place [] = some place := by
  rw [walk_eq_walkWith]
  rfl

theorem walk_dot (dot : isDot name) :
    walk tree create links place (name :: rest) = walk tree create links place rest := by
  rw [walk_eq_walkWith, walkWith, if_pos dot]

theorem walk_dotDot (notDot : isDot name = false) (dotDot : isDotDot name) :
    walk tree create links place (name :: rest) = walk tree create links place.dropLast rest := by
  rw [walk_eq_walkWith, walkWith, if_neg (by simp [notDot]), if_pos dotDot]

theorem walk_entry (entry : IsEntry name) : walk tree create links place (name :: rest) =
      match tree.kind (place ++ [name]) with
      | none => if create ∧ rest = [] then some (place ++ [name]) else none
      | some .dir => walk tree create links (place ++ [name]) rest
      | some .file => if rest = [] then some (place ++ [name]) else none
      | some (.link target) =>
        followed tree create links (targetStart place target) (targetNames target ++ rest) := by
  rw [walk_eq_walkWith, walkWith, if_neg (by simp [entry.1]), if_neg (by simp [entry.2])]

theorem isEntry_or (name : Name) :
    isDot name = true ∨ (isDot name = false ∧ isDotDot name) ∨ IsEntry name := by
  cases dot : isDot name with
  | true => exact .inl rfl
  | false =>
    cases dotDot : isDotDot name with
    | true => exact .inr (.inl ⟨rfl, rfl⟩)
    | false => exact .inr (.inr ⟨dot, dotDot⟩)

theorem FileTree.dropLast_dir (isDir : tree.kind place = some .dir) :
    tree.kind place.dropLast = some .dir := by
  cases empty : place.isEmpty with
  | true =>
    rw [isEmpty_iff.mp empty]
    exact tree.root
  | false =>
    have nonempty : place ≠ [] := by simpa using empty
    apply tree.parent
    rw [dropLast_append_getLast nonempty, isDir]
    rfl

/-- The second tree has everything the first has. -/
def FileTree.Extends (next tree : FileTree) : Prop :=
  ∀ place kind, tree.kind place = some kind → next.kind place = some kind

theorem FileTree.Extends.refl (tree : FileTree) : tree.Extends tree := fun _ _ found => found

theorem FileTree.Extends.trans (second : third.Extends next)
    (first : next.Extends tree) : third.Extends tree := fun _ _ found =>
  second _ _ (first _ _ found)

def FileTree.addDir (tree : FileTree) (place : Place) (name : Name)
    (isDir : tree.kind place = some .dir) : FileTree where
  kind := fun other => if other = place ++ [name] then some .dir else tree.kind other
  root := by
    rw [if_neg (by simp)]
    exact tree.root
  parent := by
    intro other entry found
    split at found
    · next same =>
      obtain ⟨rfl, _⟩ := List.append_inj' same rfl
      rw [if_neg (by simp)]
      exact isDir
    · split
      · rfl
      · exact tree.parent found

theorem FileTree.addDir_kind {isDir : tree.kind place = some .dir} :
    (tree.addDir place name isDir).kind (place ++ [name]) = some .dir :=
  if_pos rfl

def FileTree.addFile (tree : FileTree) (place : Place) (name : Name)
    (isDir : tree.kind place = some .dir) (missing : tree.kind (place ++ [name]) = none) :
    FileTree where
  kind := fun other => if other = place ++ [name] then some .file else tree.kind other
  root := by
    rw [if_neg (by simp)]
    exact tree.root
  parent := by
    intro other entry found
    split at found
    · next same =>
      obtain ⟨rfl, _⟩ := List.append_inj' same rfl
      rw [if_neg (by simp)]
      exact isDir
    · split
      · next same =>
        have isParent := tree.parent found
        rw [same, missing] at isParent
        cases isParent
      · exact tree.parent found

/-- The second tree has more directories and files, and no new links. -/
structure Added (tree next : FileTree) : Prop where
  extends_ : next.Extends tree
  noLink : ∀ {place target}, next.kind place = some (.link target) →
    tree.kind place = some (.link target)

theorem Added.refl (tree : FileTree) : Added tree tree := ⟨.refl tree, fun found => found⟩

theorem Added.trans (first : Added tree next) (second : Added next third) : Added tree third :=
  ⟨second.extends_.trans first.extends_, fun found => first.noLink (second.noLink found)⟩

theorem Added.of_put {kind : Kind} (missing : tree.kind (place ++ [name]) = none)
    (noLink : ∀ target, kind ≠ .link target)
    (put : ∀ other,
      next.kind other = if other = place ++ [name] then some kind else tree.kind other) :
    Added tree next := by
  refine ⟨?_, ?_⟩
  · intro other kind found
    rw [put]
    split
    · next same =>
      rw [same, missing] at found
      cases found
    · exact found
  · intro other target found
    rw [put] at found
    split at found
    · exact absurd found (by simpa using noLink target)
    · exact found

theorem added_addDir {isDir : tree.kind place = some .dir}
    (missing : tree.kind (place ++ [name]) = none) : Added tree (tree.addDir place name isDir) :=
  .of_put missing (by simp) fun _ => rfl

theorem added_addFile (isDir : tree.kind place = some .dir)
    (missing : tree.kind (place ++ [name]) = none) :
    Added tree (tree.addFile place name isDir missing) :=
  .of_put missing (by simp) fun _ => rfl

theorem walkWith_extends {follow' : Place → List Name → Option Place}
    (extends_ : next.Extends tree)
    (follows : ∀ {place rest final}, follow place rest = some final →
      follow' place rest = some final)
    (reached : walkWith tree false follow place rest = some final) :
    walkWith next create' follow' place rest = some final := by
  induction rest generalizing place with
  | nil => exact reached
  | cons name rest ih =>
    unfold walkWith at reached ⊢
    split at reached
    · next dot =>
      rw [if_pos dot]
      exact ih reached
    next notDot =>
    rw [if_neg notDot]
    split at reached
    · next dotDot =>
      rw [if_pos dotDot]
      exact ih reached
    next notDotDot =>
    rw [if_neg notDotDot]
    split at reached
    · simp at reached
    · next isDir =>
      rw [extends_ _ _ isDir]
      exact ih reached
    · next isFile =>
      rw [extends_ _ _ isFile]
      exact reached
    · next target isLink =>
      rw [extends_ _ _ isLink]
      exact follows reached

theorem walk_of_extends (extends_ : next.Extends tree) (enough : links ≤ more)
    (reached : walk tree false links place rest = some final) :
    walk next create' more place rest = some final := by
  induction links generalizing more place rest final with
  | zero =>
    rw [walk_eq_walkWith] at reached ⊢
    exact walkWith_extends extends_ (fun stopped => absurd stopped (by simp [followed])) reached
  | succ links ih =>
    cases more with
    | zero => omega
    | succ more =>
      exact walkWith_extends extends_ (fun later => ih (Nat.le_of_succ_le_succ enough) later)
        reached

/-- A place whose names can stand in a path: no dots, no slash. -/
def Proper (place : Place) : Prop := ∀ name ∈ place, IsEntry name ∧ '/' ∉ name

theorem Proper.dropLast (proper : Proper place) : Proper place.dropLast := fun name isName =>
  proper name (dropLast_subset place isName)

theorem Proper.concat (proper : Proper place) (entry : IsEntry name) (slashless : '/' ∉ name) :
    Proper (place ++ [name]) := by
  intro other isName
  rcases mem_append.mp isName with earlier | last
  · exact proper other earlier
  · obtain rfl := mem_singleton.mp last
    exact ⟨entry, slashless⟩

theorem targetStart_proper (proper : Proper place) (target : List Char) :
    Proper (targetStart place target) := by
  unfold targetStart
  split
  · nofun
  · exact proper

theorem walkWith_proper
    (follows : ∀ {place rest final}, Proper place → (∀ name ∈ rest, '/' ∉ name) →
      follow place rest = some final → Proper final) (proper : Proper place)
    (slashless : ∀ name ∈ rest, '/' ∉ name)
    (reached : walkWith tree create follow place rest = some final) : Proper final := by
  induction rest generalizing place with
  | nil => exact Option.some.inj reached ▸ proper
  | cons name rest ih =>
    have later : ∀ name ∈ rest, '/' ∉ name := fun other isRest =>
      slashless other (mem_cons_of_mem _ isRest)
    unfold walkWith at reached
    split at reached
    · exact ih proper later reached
    next notDot =>
    split at reached
    · exact ih proper.dropLast later reached
    next notDotDot =>
    have entry : IsEntry name := ⟨by simpa using notDot, by simpa using notDotDot⟩
    have entered : Proper (place ++ [name]) :=
      proper.concat entry (slashless name mem_cons_self)
    split at reached
    · split at reached
      · exact Option.some.inj reached ▸ entered
      · cases reached
    · exact ih entered later reached
    · split at reached
      · exact Option.some.inj reached ▸ entered
      · cases reached
    · next target _ =>
      apply follows (targetStart_proper proper target) ?_ reached
      intro other isName
      rcases mem_append.mp isName with inTarget | isRest
      · exact SeparatedText.not_mem_of_mem_splitOn inTarget
      · exact later other isRest

theorem walk_proper (proper : Proper place) (slashless : ∀ name ∈ rest, '/' ∉ name)
    (reached : walk tree create links place rest = some final) : Proper final := by
  induction links generalizing place rest final with
  | zero =>
    exact walkWith_proper (fun _ _ stopped => absurd stopped (by simp)) proper slashless reached
  | succ links ih => exact walkWith_proper ih proper slashless reached

theorem walk_unlinked (entries : ∀ name ∈ rest, IsEntry name)
    (unlinked : ∀ front,
      front <+: rest → ∀ target, tree.kind (place ++ front) ≠ some (.link target))
    (reached : walk tree create links place rest = some final) : final = place ++ rest := by
  induction rest generalizing place with
  | nil =>
    rw [walk_nil] at reached
    simpa using (Option.some.inj reached).symm
  | cons name rest ih =>
    rw [walk_entry (entries name mem_cons_self)] at reached
    split at reached
    · split at reached
      · next created => simpa [created.2] using (Option.some.inj reached).symm
      · cases reached
    · have later := ih (fun other isRest => entries other (mem_cons_of_mem _ isRest))
        (fun front isFront target => by
          simpa using unlinked (name :: front) ((prefix_cons_inj name).mpr isFront) target)
        reached
      simpa using later
    · split at reached
      · next last => simpa [last] using (Option.some.inj reached).symm
      · cases reached
    · next target isLink =>
      exact absurd isLink (unlinked [name] (by simp) target)

end OpenExec.LinkedTrees
