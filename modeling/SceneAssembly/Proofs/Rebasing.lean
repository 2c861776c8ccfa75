/-
  SceneAssembly/Proofs/Rebasing.lean
  ==================================
  **Subtrees that are placed anew.**

  Placing a subtree anew gives its nodes other worlds and leaves it as it is in
  every other respect: the two trees are the same once all their nodes have one
  and the same world (`inWorld_rebase`).  What the worlds were before does not
  matter (`rebase_inWorld`), so placing a tree anew twice is placing it anew once
  (`rebase_rebase`).  The new worlds are those of a tree that hangs below the
  given world, as a walk through a document makes them (`rebases_rebase`).
-/
import SceneAssembly.Proofs.Pictures
import SceneAssembly.Proofs.Worlds

namespace SceneAssembly.SceneNode

variable {K : Type}

/-! ## 1. Trees without their worlds -/

mutual

/-- The subtree with one world on all its nodes. -/
def inWorld (world : Shared (Affine K)) : SceneNode K → SceneNode K
  | ⟨name, placement, _, mesh, light, none, children, cast, receive⟩ =>
    ⟨name, placement, world, mesh, light, none, inWorldAll world children, cast, receive⟩
  | ⟨name, placement, _, mesh, light, some ⟨levels⟩, children, cast, receive⟩ =>
    ⟨name, placement, world, mesh, light, some ⟨inWorldLevels world levels⟩,
      inWorldAll world children, cast, receive⟩

def inWorldAll (world : Shared (Affine K)) : List (SceneNode K) → List (SceneNode K)
  | [] => []
  | n :: rest => inWorld world n :: inWorldAll world rest

def inWorldLevels (world : Shared (Affine K)) :
    List (Level K (SceneNode K)) → List (Level K (SceneNode K))
  | [] => []
  | ⟨distance, n⟩ :: rest => ⟨distance, inWorld world n⟩ :: inWorldLevels world rest

end

section InWorld

variable (world : Shared (Affine K))

theorem inWorldAll_eq (ns : List (SceneNode K)) : inWorldAll world ns = ns.map (inWorld world) := by
  induction ns with
  | nil => rfl
  | cons n rest ih => rw [inWorldAll, ih, List.map_cons]

theorem inWorldLevels_eq (ls : List (Level K (SceneNode K))) :
    (inWorldLevels world ls).map Level.node = (ls.map Level.node).map (inWorld world) := by
  induction ls with
  | nil => rfl
  | cons l rest ih => rw [inWorldLevels, List.map_cons, ih, List.map_cons, List.map_cons]

theorem inWorld_branches (n : SceneNode K) :
    (n.inWorld world).branches = n.branches.map (inWorld world) := by
  obtain ⟨name, placement, _, mesh, light, lod, children, cast, receive⟩ := n
  rcases lod with _ | ⟨⟨levels⟩⟩
  · simp [inWorld, branches, SceneNode.levels, inWorldAll_eq]
  · simp [inWorld, branches, SceneNode.levels, inWorldAll_eq, inWorldLevels_eq]

theorem inWorld_placement (n : SceneNode K) : (n.inWorld world).placement = n.placement := by
  obtain ⟨name, placement, _, mesh, light, lod, children, cast, receive⟩ := n
  rcases lod with _ | ⟨levels⟩ <;> rw [inWorld]

theorem placementsTo_inWorld (n : SceneNode K) (address : List Nat) :
    (n.inWorld world).placementsTo address = n.placementsTo address := by
  induction address generalizing n with
  | nil => rw [placementsTo, placementsTo, inWorld_placement]
  | cons i rest ih =>
    rw [placementsTo, placementsTo, inWorld_placement, inWorld_branches, List.getElem?_map]
    cases n.branches[i]? with
    | none => rfl
    | some m => rw [Option.map_some, Option.elim_some, Option.elim_some, ih]

end InWorld

/-! ## 2. What placing anew leaves as it is -/

variable [Scalar K]

section Unchanged

variable (world : Shared (Affine K))

mutual

/-- Placing a tree anew changes nothing but its worlds. -/
theorem inWorld_rebase :
    ∀ (n : SceneNode K) (a : Arena) (parent : Shared (Affine K)),
      (n.rebase parent a).1.inWorld world = n.inWorld world
  | ⟨name, placement, _, mesh, light, none, children, cast, receive⟩, a, parent => by
    rw [rebase, inWorld]
    have hchildren := inWorldAll_rebaseAll children (placeIn parent placement a).2
      (placeIn parent placement a).1
    exact congrArg (SceneNode.mk name placement world mesh light none · cast receive) hchildren
  | ⟨name, placement, _, mesh, light, some ⟨levels⟩, children, cast, receive⟩, a, parent => by
    rw [rebase, inWorld]
    have hchildren := inWorldAll_rebaseAll children (placeIn parent placement a).2
      (placeIn parent placement a).1
    have hlevels := inWorldLevels_rebaseLevels levels
      (rebaseAll (placeIn parent placement a).1 children (placeIn parent placement a).2).2
      (placeIn parent placement a).1
    exact congrArg₂ (fun levels children =>
      SceneNode.mk name placement world mesh light (some ⟨levels⟩) children cast receive)
      hlevels hchildren

theorem inWorldAll_rebaseAll :
    ∀ (ns : List (SceneNode K)) (a : Arena) (parent : Shared (Affine K)),
      inWorldAll world (rebaseAll parent ns a).1 = inWorldAll world ns
  | [], _, _ => rfl
  | n :: rest, a, parent =>
    congrArg₂ List.cons (inWorld_rebase n a parent)
      (inWorldAll_rebaseAll rest (n.rebase parent a).2 parent)

theorem inWorldLevels_rebaseLevels :
    ∀ (ls : List (Level K (SceneNode K))) (a : Arena) (parent : Shared (Affine K)),
      inWorldLevels world (rebaseLevels parent ls a).1 = inWorldLevels world ls
  | [], _, _ => rfl
  | ⟨distance, n⟩ :: rest, a, parent =>
    congrArg₂ (fun m rest => Level.mk distance m :: rest) (inWorld_rebase n a parent)
      (inWorldLevels_rebaseLevels rest (n.rebase parent a).2 parent)

end

mutual

/-- Placing a tree anew does not ask for the worlds that it had. -/
theorem rebase_inWorld :
    ∀ (n : SceneNode K) (parent : Shared (Affine K)),
      (n.inWorld world).rebase parent = n.rebase parent
  | ⟨_, placement, _, _, _, none, children, _, _⟩, parent => by
    rw [inWorld, rebase, rebase]
    simp only [rebaseAll_inWorldAll children]
  | ⟨_, placement, _, _, _, some ⟨levels⟩, children, _, _⟩, parent => by
    rw [inWorld, rebase, rebase]
    simp only [rebaseAll_inWorldAll children, rebaseLevels_inWorldLevels levels]

theorem rebaseAll_inWorldAll :
    ∀ (ns : List (SceneNode K)) (parent : Shared (Affine K)),
      rebaseAll parent (inWorldAll world ns) = rebaseAll parent ns
  | [], _ => rfl
  | n :: rest, parent => by
    rw [inWorldAll, rebaseAll, rebaseAll, rebase_inWorld n, rebaseAll_inWorldAll rest]

theorem rebaseLevels_inWorldLevels :
    ∀ (ls : List (Level K (SceneNode K))) (parent : Shared (Affine K)),
      rebaseLevels parent (inWorldLevels world ls) = rebaseLevels parent ls
  | [], _ => rfl
  | ⟨_, n⟩ :: rest, parent => by
    rw [inWorldLevels, rebaseLevels, rebaseLevels, rebase_inWorld n,
      rebaseLevels_inWorldLevels rest]

end

end Unchanged

/-- Trees that differ in nothing but worlds are the same when they are placed anew. -/
theorem rebase_congr {n m : SceneNode K} {world : Shared (Affine K)}
    (h : n.inWorld world = m.inWorld world) (parent : Shared (Affine K)) :
    n.rebase parent = m.rebase parent := by
  rw [← rebase_inWorld world n, h, rebase_inWorld]

theorem rebase_rebase (n : SceneNode K) (first parent : Shared (Affine K)) (a : Arena) :
    (n.rebase first a).1.rebase parent = n.rebase parent :=
  rebase_congr (inWorld_rebase first n a first) parent

theorem placementsTo_rebase (n : SceneNode K) (parent : Shared (Affine K)) (a : Arena)
    (address : List Nat) : (n.rebase parent a).1.placementsTo address = n.placementsTo address := by
  rw [← placementsTo_inWorld parent, inWorld_rebase, placementsTo_inWorld]

/-! ## 3. The worlds of a tree placed anew -/

/-- A tree `m` is `n` placed below a world, with numbers given out from `a` to `b`. -/
structure Rebases (n : SceneNode K) (parent : Shared (Affine K)) (a : Arena) (m : SceneNode K)
    (b : Arena) : Prop where
  /-- The world of a node is the product of the placements on the way to it. -/
  world_value : ∀ address x, m.at? address = some x →
    x.world.value = (n.placementsTo address).foldl (· * ·) parent.value
  /-- Without a placement it is the object of the node above, -/
  world_top : m.placement = none → m.world = parent
  world_branch : ∀ x ∈ m.preorder, ∀ y ∈ x.branches, y.placement = none → y.world = x.world
  /-- and with one a new object. -/
  fresh : NewNumbers a.next b.next m.numbers
  /-- Nothing but worlds has changed. -/
  unchanged : ∀ world, m.inWorld world = n.inWorld world
  sources_eq : b.sources = a.sources

theorem rebases_rebase (n : SceneNode K) (parent : Shared (Affine K)) (a : Arena) :
    Rebases n parent a (n.rebase parent a).1 (n.rebase parent a).2 := by
  have hhang := hangAll_rebase n parent a
  have hbelow := hhang.each _ (List.mem_singleton_self _)
  have hnumbers := hhang.numbers
  rw [List.flatMap_singleton] at hnumbers
  constructor
  case world_value =>
    intro address x hx
    rw [hbelow.world_value hx, placementsTo_rebase]
  case world_top =>
    intro hplacement
    have hown := hbelow.own
    unfold HangsFrom at hown
    rwa [hplacement] at hown
  case world_branch =>
    intro x hx y hy hplacement
    have hown := hbelow.below x hx y hy
    unfold HangsFrom at hown
    rwa [hplacement] at hown
  case fresh => exact hnumbers
  case unchanged => exact fun world => inWorld_rebase world n a parent
  case sources_eq => exact rebase_sources n parent a

/-- A world of a tree placed anew is the given one, or its number is new. -/
theorem world_rebase {n x : SceneNode K} {parent : Shared (Affine K)} {a : Arena}
    (hx : x ∈ (n.rebase parent a).1.preorder) :
    x.world = parent ∨
      a.next ≤ x.world.id ∧ x.world.id < (n.rebase parent a).2.next := by
  obtain ⟨address, hat⟩ := exists_at?_of_mem_preorder hx
  have hhang := hangAll_rebase n parent a
  have hbelow := hhang.each _ (List.mem_singleton_self _)
  rcases hbelow.world_eq_of_anchor? hat with ⟨-, hworld⟩ | ⟨p, z, -, hz, hplaced, hworld⟩
  · exact .inl hworld
  · rw [hworld]
    exact .inr ((rebases_rebase n parent a).fresh.within _ (mem_numbers_of_at? hz hplaced))

end SceneAssembly.SceneNode
