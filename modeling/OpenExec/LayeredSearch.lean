import Mathlib.Data.List.Basic
import Mathlib.Data.Nat.Find
import Mathlib.Tactic.TypeStar

/-!
# Layered searches against the edges of a graph

A search starts at a root and goes against the edges, one layer of nodes after the
other.  Every node it finds comes with a path of edges from the node to the root.
-/

namespace OpenExec.LayeredSearch

open List

variable {α ε : Type*} (source target : ε → α) (allowed : ε → Prop)

/-- A chain of allowed edges from one node to another. -/
inductive IsPath : α → List ε → α → Prop
  | here (node : α) : IsPath node [] node
  | step {edge : ε} {path : List ε} {last : α} (isAllowed : allowed edge)
      (rest : IsPath (target edge) path last) : IsPath (source edge) (edge :: path) last

def IsDistance (first : α) (length : Nat) (last : α) : Prop :=
  (∃ path, IsPath source target allowed first path last ∧ path.length = length) ∧
    ∀ path, IsPath source target allowed first path last → length ≤ path.length

structure Trail (α ε : Type*) where
  node : α
  path : List ε

structure Layer (α ε : Type*) where
  seen : List α
  found : List (Trail α ε)

variable {incoming : α → List ε}

section

variable [DecidableEq α]

/-- An edge into a node of the last layer leads to a new node unless that one was seen. -/
def Layer.discover (path : List ε) (layer : Layer α ε) (edge : ε) : Layer α ε :=
  if source edge ∈ layer.seen then layer
  else ⟨source edge :: layer.seen, layer.found ++ [⟨source edge, edge :: path⟩]⟩

variable (incoming : α → List ε)

def Layer.expand (layer : Layer α ε) (trail : Trail α ε) : Layer α ε :=
  (incoming trail.node).foldl (Layer.discover source trail.path) layer

def nextLayer (seen : List α) (frontier : List (Trail α ε)) : Layer α ε :=
  frontier.foldl (Layer.expand source incoming) ⟨seen, []⟩

/-- The trails that `fuel` more layers find, each with the number of its layer. -/
def search (incoming : α → List ε) : Nat → Nat → List α → List (Trail α ε) → List (Nat × Trail α ε)
  | 0, _, _, _ => []
  | fuel + 1, depth, seen, frontier =>
    let layer := nextLayer source incoming seen frontier
    layer.found.map (depth, ·) ++ search incoming fuel (depth + 1) layer.seen layer.found

def searchFrom (fuel : Nat) (root : α) : List (Nat × Trail α ε) :=
  search source incoming fuel 0 [root] [⟨root, []⟩]

theorem search_nil {fuel depth : Nat} {seen : List α} :
    search source incoming fuel depth seen [] = [] := by
  induction fuel generalizing depth seen with
  | zero => rfl
  | succ fuel ih =>
    exact ih

end

variable {source target allowed} {path : List ε}

/-- What a layer holds once the edges that satisfy `offered` were followed, each with the path
it was reached by. -/
structure Layer.Holds (source : ε → α) (seen : List α) (offered : List ε → ε → Prop)
    (layer : Layer α ε) : Prop where
  mem_seen : ∀ node, node ∈ layer.seen ↔
    node ∈ seen ∨ ∃ path edge, offered path edge ∧ source edge = node
  found_offered : ∀ trail ∈ layer.found, trail.node ∉ seen ∧
    ∃ path edge, offered path edge ∧ trail = ⟨source edge, edge :: path⟩
  found_all : ∀ node ∈ layer.seen, node ∈ seen ∨ ∃ trail ∈ layer.found, trail.node = node

section

variable {seen : List α} {offered : List ε → ε → Prop} {layer : Layer α ε}

theorem Layer.Holds.congr {other : List ε → ε → Prop} (holds : layer.Holds source seen offered)
    (same : ∀ path edge, offered path edge ↔ other path edge) : layer.Holds source seen other := by
  have equal : offered = other := by
    funext path edge
    exact propext (same path edge)
  exact equal ▸ holds

variable [DecidableEq α]

section

variable (holds : layer.Holds source seen offered)
include holds

theorem Layer.Holds.discover {edge : ε} :
    (Layer.discover source path layer edge).Holds source seen fun followed crossed =>
      offered followed crossed ∨ followed = path ∧ crossed = edge := by
  unfold Layer.discover
  split
  · next known =>
    constructor
    case mem_seen =>
      intro node
      rw [holds.mem_seen node]
      constructor
      · rintro (old | ⟨followed, crossed, isOffered, isNode⟩)
        · exact .inl old
        · exact .inr ⟨followed, crossed, .inl isOffered, isNode⟩
      · rintro (old | ⟨followed, crossed, isOffered | ⟨rfl, rfl⟩, isNode⟩)
        · exact .inl old
        · exact .inr ⟨followed, crossed, isOffered, isNode⟩
        · rw [← holds.mem_seen, ← isNode]
          exact known
    case found_offered =>
      intro trail isFound
      obtain ⟨fresh, followed, crossed, isOffered, isTrail⟩ := holds.found_offered trail isFound
      exact ⟨fresh, followed, crossed, .inl isOffered, isTrail⟩
    case found_all => exact holds.found_all
  · next unknown =>
    constructor
    case mem_seen =>
      intro node
      rw [mem_cons, holds.mem_seen node]
      constructor
      · rintro (rfl | old | ⟨followed, crossed, isOffered, isNode⟩)
        · exact .inr ⟨path, edge, .inr ⟨rfl, rfl⟩, rfl⟩
        · exact .inl old
        · exact .inr ⟨followed, crossed, .inl isOffered, isNode⟩
      · rintro (old | ⟨followed, crossed, isOffered | ⟨rfl, rfl⟩, isNode⟩)
        · exact .inr (.inl old)
        · exact .inr (.inr ⟨followed, crossed, isOffered, isNode⟩)
        · exact .inl isNode.symm
    case found_offered =>
      intro trail isFound
      rcases mem_append.mp isFound with old | isNew
      · obtain ⟨fresh, followed, crossed, isOffered, isTrail⟩ := holds.found_offered trail old
        exact ⟨fresh, followed, crossed, .inl isOffered, isTrail⟩
      · obtain rfl := mem_singleton.mp isNew
        refine ⟨fun old => unknown ((holds.mem_seen _).mpr (.inl old)), ?_⟩
        exact ⟨path, edge, .inr ⟨rfl, rfl⟩, rfl⟩
    case found_all =>
      intro node isSeen
      rcases mem_cons.mp isSeen with rfl | earlier
      · exact .inr ⟨_, mem_append_right _ (mem_singleton_self _), rfl⟩
      · rcases holds.found_all node earlier with old | ⟨trail, isFound, isNode⟩
        · exact .inl old
        · exact .inr ⟨trail, mem_append_left _ isFound, isNode⟩

theorem Layer.Holds.discoverAll {edges : List ε} :
    (edges.foldl (Layer.discover source path) layer).Holds source seen fun followed crossed =>
      offered followed crossed ∨ followed = path ∧ crossed ∈ edges := by
  induction edges generalizing layer offered with
  | nil =>
    refine holds.congr fun followed crossed => ?_
    simp
  | cons edge edges ih =>
    refine (ih holds.discover).congr fun followed crossed => ?_
    rw [mem_cons]
    tauto

theorem Layer.Holds.expandAll {frontier : List (Trail α ε)} :
    (frontier.foldl (Layer.expand source incoming) layer).Holds source seen fun followed crossed =>
      offered followed crossed ∨
        ∃ trail ∈ frontier, followed = trail.path ∧ crossed ∈ incoming trail.node := by
  induction frontier generalizing layer offered with
  | nil =>
    refine holds.congr fun followed crossed => ?_
    simp
  | cons trail frontier ih =>
    refine (ih holds.discoverAll).congr fun followed crossed => ?_
    rw [exists_mem_cons_iff]
    tauto

end

theorem nextLayer_holds {incoming : α → List ε} {frontier : List (Trail α ε)} :
    (nextLayer source incoming seen frontier).Holds source seen fun followed crossed =>
      ∃ trail ∈ frontier, followed = trail.path ∧ crossed ∈ incoming trail.node := by
  have empty : (⟨seen, []⟩ : Layer α ε).Holds source seen fun _ _ => False :=
    ⟨fun node => by simp, fun trail isFound => by simp at isFound, fun node isSeen => .inl isSeen⟩
  refine empty.expandAll.congr fun followed crossed => ?_
  rw [false_or]

end

/-- The nodes seen are those within a distance of the root, and the frontier has those at
that distance, each with a shortest path. -/
structure Covers (source target : ε → α) (allowed : ε → Prop) (root : α) (depth : Nat)
    (seen : List α) (frontier : List (Trail α ε)) : Prop where
  mem_seen : ∀ node, node ∈ seen ↔
    ∃ path, IsPath source target allowed node path root ∧ path.length ≤ depth
  frontier_path : ∀ trail ∈ frontier, IsPath source target allowed trail.node trail.path root ∧
    trail.path.length = depth ∧
    ∀ path, IsPath source target allowed trail.node path root → depth ≤ path.length
  frontier_all : ∀ node, IsDistance source target allowed node depth root →
    ∃ trail ∈ frontier, trail.node = node

variable {root last first node : α} {trail : Trail α ε} {layer : Nat}

theorem isPath_nil (isPath : IsPath source target allowed first [] last) : first = last := by
  cases isPath
  rfl

theorem IsPath.single
    (isPath : IsPath source target allowed first path last) (isLength : path.length = 1) :
    ∃ edge, allowed edge ∧ source edge = first ∧ target edge = last := by
  cases isPath with
  | here => cases isLength
  | @step edge rest _ isAllowed isRest =>
    obtain rfl : rest = [] := eq_nil_of_length_eq_zero (Nat.succ.inj isLength)
    exact ⟨edge, isAllowed, rfl, isPath_nil isRest⟩

theorem covers_root : Covers source target allowed root 0 [root] [⟨root, []⟩] where
  mem_seen node := by
    constructor
    · intro isSeen
      obtain rfl := mem_singleton.mp isSeen
      exact ⟨[], .here _, Nat.le_refl _⟩
    · rintro ⟨path, isPath, short⟩
      obtain rfl := eq_nil_of_length_eq_zero (Nat.le_zero.mp short)
      exact mem_singleton.mpr (isPath_nil isPath)
  frontier_path trail isFrontier := by
    obtain rfl := mem_singleton.mp isFrontier
    exact ⟨.here _, rfl, fun _ _ => Nat.zero_le _⟩
  frontier_all node isDistance := by
    obtain ⟨⟨path, isPath, isShort⟩, _⟩ := isDistance
    obtain rfl := eq_nil_of_length_eq_zero isShort
    exact ⟨_, mem_singleton_self _, (isPath_nil isPath).symm⟩

section

variable [DecidableEq α] {incoming : α → List ε} {depth : Nat} {seen : List α}
  {frontier : List (Trail α ε)}

variable (isIncoming : ∀ node edge, edge ∈ incoming node ↔ allowed edge ∧ target edge = node)
include isIncoming

variable (covers : Covers source target allowed root depth seen frontier)
include covers

theorem Covers.step :
    Covers source target allowed root (depth + 1) (nextLayer source incoming seen frontier).seen
      (nextLayer source incoming seen frontier).found := by
  have holds := @nextLayer_holds _ _ source seen _ incoming frontier
  -- A node one edge from the frontier has a path that is one edge longer.
  have offeredPath : ∀ path edge,
      (∃ trail ∈ frontier, path = trail.path ∧ edge ∈ incoming trail.node) →
      IsPath source target allowed (source edge) (edge :: path) root ∧ path.length = depth := by
    rintro path edge ⟨trail, isFrontier, rfl, isInto⟩
    obtain ⟨isAllowed, isTarget⟩ := (isIncoming _ _).mp isInto
    obtain ⟨isPath, isShort, _⟩ := covers.frontier_path trail isFrontier
    exact ⟨.step isAllowed (isTarget ▸ isPath), isShort⟩
  have mem_seen : ∀ node, node ∈ (nextLayer source incoming seen frontier).seen ↔
      ∃ path, IsPath source target allowed node path root ∧ path.length ≤ depth + 1 := by
    intro node
    rw [holds.mem_seen node]
    constructor
    · rintro (old | ⟨path, edge, isOffered, rfl⟩)
      · obtain ⟨path, isPath, short⟩ := (covers.mem_seen node).mp old
        exact ⟨path, isPath, Nat.le_succ_of_le short⟩
      · obtain ⟨isPath, isShort⟩ := offeredPath path edge isOffered
        exact ⟨edge :: path, isPath, by simp [isShort]⟩
    · rintro ⟨path, isPath, short⟩
      by_cases shorter : ∃ path, IsPath source target allowed node path root ∧ path.length ≤ depth
      · exact .inl ((covers.mem_seen node).mpr shorter)
      have long : ∀ other, IsPath source target allowed node other root → depth < other.length :=
        fun other isOther => Nat.lt_of_not_le fun short => shorter ⟨other, isOther, short⟩
      have isLong := long path isPath
      cases isPath with
      | here => simp at isLong
      | @step edge rest _ isAllowed isRest =>
        rw [length_cons] at short isLong
        -- The rest of a shortest path is a shortest path, so the next node is in the frontier.
        have isDistance : IsDistance source target allowed (target edge) depth root := by
          refine ⟨⟨rest, isRest, by omega⟩, fun other isOther => ?_⟩
          have := long _ (.step isAllowed isOther)
          rw [length_cons] at this
          omega
        obtain ⟨trail, isFrontier, isTarget⟩ := covers.frontier_all _ isDistance
        exact .inr ⟨trail.path, edge, ⟨trail, isFrontier, rfl,
          (isIncoming _ _).mpr ⟨isAllowed, isTarget.symm⟩⟩, rfl⟩
  constructor
  case mem_seen => exact mem_seen
  case frontier_path =>
    intro trail isFound
    obtain ⟨fresh, path, edge, isOffered, rfl⟩ := holds.found_offered trail isFound
    obtain ⟨isPath, isShort⟩ := offeredPath path edge isOffered
    refine ⟨isPath, by rw [length_cons, isShort], fun other isOther => ?_⟩
    by_contra short
    exact fresh ((covers.mem_seen _).mpr ⟨other, isOther, by omega⟩)
  case frontier_all =>
    rintro node ⟨⟨path, isPath, isShort⟩, shortest⟩
    have isSeen := (mem_seen node).mpr ⟨path, isPath, Nat.le_of_eq isShort⟩
    rcases holds.found_all node isSeen with old | found
    · obtain ⟨other, isOther, short⟩ := (covers.mem_seen node).mp old
      have := shortest other isOther
      omega
    · exact found

/-- Every trail that is found is a shortest path, found in the layer of its length. -/
theorem Covers.search_path {fuel : Nat}
    (isFound : (layer, trail) ∈ search source incoming fuel depth seen frontier) :
    IsPath source target allowed trail.node trail.path root ∧ trail.path.length = layer + 1 ∧
      layer < depth + fuel ∧
      ∀ path,
        IsPath source target allowed trail.node path root → trail.path.length ≤ path.length := by
  induction fuel generalizing depth seen frontier with
  | zero => simp [search] at isFound
  | succ fuel ih =>
    rcases mem_append.mp isFound with isNext | later
    · obtain ⟨found, inLayer, same⟩ := mem_map.mp isNext
      obtain ⟨rfl, rfl⟩ := Prod.mk.inj same
      obtain ⟨isPath, isShort, shortest⟩ := (covers.step isIncoming).frontier_path _ inLayer
      exact ⟨isPath, isShort, by omega, fun path isPath => isShort ▸ shortest path isPath⟩
    · obtain ⟨isPath, isShort, bounded, shortest⟩ := ih (covers.step isIncoming) later
      exact ⟨isPath, isShort, by omega, shortest⟩

/-- Every node within the distance that the layers cover is found. -/
theorem Covers.exists_search {fuel distance : Nat}
    (isDistance : IsDistance source target allowed node distance root)
    (further : depth < distance) (near : distance ≤ depth + fuel) :
    ∃ layer trail,
      (layer, trail) ∈ search source incoming fuel depth seen frontier ∧ trail.node = node := by
  induction fuel generalizing depth seen frontier with
  | zero => omega
  | succ fuel ih =>
    by_cases isNext : distance = depth + 1
    · obtain ⟨trail, isFound, isNode⟩ :=
        (covers.step isIncoming).frontier_all node (isNext ▸ isDistance)
      exact ⟨depth, trail, mem_append_left _ (mem_map_of_mem isFound), isNode⟩
    · obtain ⟨layer, trail, isFound, isNode⟩ :=
        ih (covers.step isIncoming) (by omega) (by omega)
      exact ⟨layer, trail, mem_append_right _ isFound, isNode⟩

end

theorem exists_isDistance (isPath : IsPath source target allowed first path last) :
    ∃ distance, IsDistance source target allowed first distance last ∧ distance ≤ path.length := by
  classical
  have exists_length : ∃ length, ∃ path, IsPath source target allowed first path last ∧
      path.length = length := ⟨_, path, isPath, rfl⟩
  refine ⟨Nat.find exists_length, ⟨Nat.find_spec exists_length, fun other isOther => ?_⟩, ?_⟩
  · exact Nat.find_min' exists_length ⟨other, isOther, rfl⟩
  · exact Nat.find_min' exists_length ⟨path, isPath, rfl⟩

variable [DecidableEq α] {incoming : α → List ε} {fuel : Nat}

/-- A node that is found is not the root, and its path is a shortest one. -/
theorem searchFrom_path
    (isIncoming : ∀ node edge, edge ∈ incoming node ↔ allowed edge ∧ target edge = node)
    (isFound : (layer, trail) ∈ searchFrom source incoming fuel root) :
    trail.node ≠ root ∧ IsPath source target allowed trail.node trail.path root ∧
      trail.path.length = layer + 1 ∧ layer < fuel ∧
      ∀ path,
        IsPath source target allowed trail.node path root → trail.path.length ≤ path.length := by
  obtain ⟨isPath, isShort, bounded, shortest⟩ := covers_root.search_path isIncoming isFound
  refine ⟨?_, isPath, isShort, by omega, shortest⟩
  intro isRoot
  have := shortest [] (isRoot ▸ .here _)
  rw [isShort] at this
  simp at this

/-- Every other node with a path to the root that is short enough is found. -/
theorem exists_searchFrom
    (isIncoming : ∀ node edge, edge ∈ incoming node ↔ allowed edge ∧ target edge = node)
    (isPath : IsPath source target allowed node path root)
    (notRoot : node ≠ root) (short : path.length ≤ fuel) :
    ∃ layer trail, (layer, trail) ∈ searchFrom source incoming fuel root ∧ trail.node = node := by
  obtain ⟨distance, isDistance, near⟩ := exists_isDistance isPath
  have further : 0 < distance := by
    obtain ⟨⟨path, isPath, isShort⟩, _⟩ := isDistance
    by_contra zero
    obtain rfl := eq_nil_of_length_eq_zero (isShort.trans (Nat.eq_zero_of_not_pos zero))
    exact notRoot (isPath_nil isPath)
  exact covers_root.exists_search isIncoming isDistance further (by omega)

end OpenExec.LayeredSearch
