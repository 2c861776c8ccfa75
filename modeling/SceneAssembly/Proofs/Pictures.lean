/-
  SceneAssembly/Proofs/Pictures.lean
  ==================================
  **Trees, read back without the identities of what they share.**

  The picture of a tree has the looks of its nodes, each with the value of its
  world.  Trees with one picture have equal names, matrices, meshes, materials,
  textures, lights, levels of detail and flags, and differ at most in which
  numbers their objects have.

  Placing a tree anew, adding flags to it and gathering flags can be done to the
  picture as well (`rebase_picture`, `addShadows_picture`,
  `gatherShadows_picture`).
-/
import SceneAssembly.Proofs.Branches
import SceneAssembly.Proofs.Looks

namespace SceneAssembly

variable {K : Type}

/-! ## 1. Looks of meshes and nodes -/

structure MeshLook (K : Type) where
  name : String
  geometry : Geometry K
  material : MaterialLook K
  groupMaterials : List (MaterialLook K)
  visible : Bool
  castShadows : Bool
  receiveShadows : Bool

def Mesh.look (m : Mesh K) (a : Arena) : MeshLook K where
  name := m.name
  geometry := m.geometry.value
  material := m.material.value.look a
  groupMaterials := m.groupMaterials.map (·.value.look a)
  visible := m.visible
  castShadows := m.castShadows
  receiveShadows := m.receiveShadows

/-- A node without what is below it. -/
structure NodeLook (K : Type) where
  name : String
  placement : Option (Affine K)
  world : Affine K
  mesh : Option (MeshLook K)
  light : Option (Light K)
  /-- The distances of the levels of detail, if there are any; their nodes are the last branches. -/
  distances : Option (List K)
  castShadow : Bool
  receiveShadow : Bool

/-- A tree of nodes, with children and then levels as branches. -/
inductive Picture (K : Type) where
  | node (own : NodeLook K) (branches : List (Picture K))

namespace Picture

def own : Picture K → NodeLook K
  | node own _ => own

/-- A node with the flags of its branches added to its own. -/
def gather (own : NodeLook K) (branches : List (Picture K)) : Picture K :=
  .node { own with
    castShadow := own.castShadow || branches.any (·.own.castShadow)
    receiveShadow := own.receiveShadow || branches.any (·.own.receiveShadow) } branches

end Picture

namespace SceneNode

def look (n : SceneNode K) (a : Arena) : NodeLook K where
  name := n.name
  placement := n.placement
  world := n.world.value
  mesh := n.mesh.map (·.look a)
  light := n.light
  distances := n.lod.map fun lod => lod.levels.map Level.minDistance
  castShadow := n.castShadow
  receiveShadow := n.receiveShadow

mutual

/-- The tree below a node, read back from an arena. -/
def picture (a : Arena) : SceneNode K → Picture K
  | ⟨name, placement, world, mesh, light, none, children, cast, receive⟩ =>
    .node (look ⟨name, placement, world, mesh, light, none, [], cast, receive⟩ a)
      (pictureAll a children)
  | ⟨name, placement, world, mesh, light, some ⟨levels⟩, children, cast, receive⟩ =>
    .node (look ⟨name, placement, world, mesh, light, some ⟨levels⟩, [], cast, receive⟩ a)
      (pictureAll a children ++ pictureLevels a levels)

def pictureAll (a : Arena) : List (SceneNode K) → List (Picture K)
  | [] => []
  | n :: rest => picture a n :: pictureAll a rest

def pictureLevels (a : Arena) : List (Level K (SceneNode K)) → List (Picture K)
  | [] => []
  | ⟨_, n⟩ :: rest => picture a n :: pictureLevels a rest

end

theorem pictureAll_eq (a : Arena) (ns : List (SceneNode K)) :
    pictureAll a ns = ns.map (picture a) := by
  induction ns with
  | nil => rfl
  | cons n rest ih => rw [pictureAll, ih, List.map_cons]

theorem pictureLevels_eq (a : Arena) (ls : List (Level K (SceneNode K))) :
    pictureLevels a ls = (ls.map Level.node).map (picture a) := by
  induction ls with
  | nil => rfl
  | cons l rest ih => rw [pictureLevels, ih, List.map_cons, List.map_cons]

theorem picture_eq (a : Arena) (n : SceneNode K) :
    n.picture a = .node (n.look a) (n.branches.map (picture a)) := by
  obtain ⟨name, placement, world, mesh, light, lod, children, cast, receive⟩ := n
  rcases lod with _ | ⟨⟨levels⟩⟩
  · rw [picture, pictureAll_eq]
    simp [branches, SceneNode.levels, look]
  · rw [picture, pictureAll_eq, pictureLevels_eq]
    simp [branches, SceneNode.levels, look]

@[simp] theorem own_picture (a : Arena) (n : SceneNode K) : (n.picture a).own = n.look a := by
  rw [picture_eq, Picture.own]

theorem gatherShadows_picture (a : Arena) (n : SceneNode K) :
    n.gatherShadows.picture a = .gather (n.look a) (n.branches.map (picture a)) := by
  rw [picture_eq, gatherShadows_branches, Picture.gather]
  simp [look, gatherShadows, List.any_map, Function.comp_def]

/-- A tree has a picture from an arena on. -/
def Shows (n : SceneNode K) (a : Arena) (P : Picture K) : Prop := ∀ b, a.Stays b → n.picture b = P

theorem Shows.mono {n : SceneNode K} {a b : Arena} {P : Picture K} (h : n.Shows a P)
    (hab : a.Stays b) : n.Shows b P :=
  fun c hc => h c (hab.trans hc)

end SceneNode

/-! ## 2. Placing anew -/

/-- The node below another world. -/
def NodeLook.under [Scalar K] (n : NodeLook K) (parent : Affine K) : NodeLook K :=
  { n with world := n.placement.elim parent (parent * ·) }

namespace Picture

variable [Scalar K]

mutual

def rebase (parent : Affine K) : Picture K → Picture K
  | node own branches => .node (own.under parent) (rebaseAll (own.under parent).world branches)

def rebaseAll (parent : Affine K) : List (Picture K) → List (Picture K)
  | [] => []
  | n :: rest => rebase parent n :: rebaseAll parent rest

end

end Picture

namespace SceneNode

section Rebasing

variable [Scalar K]

theorem placeIn_value (parent : Shared (Affine K)) (placement : Option (Affine K)) (a : Arena) :
    (placeIn parent placement a).1.value = placement.elim parent.value (parent.value * ·) := by
  cases placement <;> rfl

theorem placeIn_sources (parent : Shared (Affine K)) (placement : Option (Affine K)) (a : Arena) :
    (placeIn parent placement a).2.sources = a.sources := by
  cases placement <;> rfl

/-- Placing a tree anew makes no pixel source. -/
theorem rebase_sources (n : SceneNode K) (parent : Shared (Affine K)) (a : Arena) :
    (n.rebase parent a).2.sources = a.sources := by
  induction n using branches_induction generalizing parent a with
  | h n ih =>
    obtain ⟨world, a', hworld, -, -, harena⟩ := rebase_branches parent n a
    have hplaced := placeIn_sources parent n.placement a
    rw [hworld] at hplaced
    have hall : ∀ (ns : List (SceneNode K)) (a : Arena), (∀ m ∈ ns, m ∈ n.branches) →
        (rebaseAll world ns a).2.sources = a.sources := by
      intro ns
      induction ns with
      | nil => exact fun a _ => rfl
      | cons m rest ihrest =>
        intro a hsub
        rw [rebaseAll_cons, ihrest _ fun m' hm' => hsub m' (List.mem_cons_of_mem m hm'),
          ih m (hsub m List.mem_cons_self)]
    rw [harena, hall _ _ fun m hm => hm, hplaced]

theorem rebaseLevels_distances (parent : Shared (Affine K)) (ls : List (Level K (SceneNode K)))
    (a : Arena) :
    (rebaseLevels parent ls a).1.map Level.minDistance = ls.map Level.minDistance := by
  induction ls generalizing a with
  | nil => rfl
  | cons l rest ih => exact congrArg (List.cons l.minDistance) (ih (l.node.rebase parent a).2)

theorem rebase_look (parent : Shared (Affine K)) (n : SceneNode K) (a b : Arena) :
    (n.rebase parent a).1.look b = (n.look b).under parent.value := by
  obtain ⟨name, placement, world, mesh, light, lod, children, cast, receive⟩ := n
  rw [NodeLook.under]
  rcases lod with _ | ⟨⟨levels⟩⟩
  · rw [rebase, look, look]
    simp only [← placeIn_value parent placement a]
    rfl
  · rw [rebase, look, look]
    simp only [← placeIn_value parent placement a, Option.map_some,
      ← rebaseLevels_distances (placeIn parent placement a).1 levels
        (rebaseAll (placeIn parent placement a).1 children (placeIn parent placement a).2).2]
    rfl

theorem rebase_picture (n : SceneNode K) (parent : Shared (Affine K)) (a b : Arena) :
    (n.rebase parent a).1.picture b = (n.picture b).rebase parent.value := by
  induction n using branches_induction generalizing parent a with
  | h n ih =>
    obtain ⟨world, a', -, hown, hbranches, -⟩ := rebase_branches parent n a
    have hall : ∀ (ns : List (SceneNode K)) (a : Arena), (∀ m ∈ ns, m ∈ n.branches) →
        (rebaseAll world ns a).1.map (picture b) =
          Picture.rebaseAll world.value (ns.map (picture b)) := by
      intro ns
      induction ns with
      | nil => exact fun a _ => rfl
      | cons m rest ihrest =>
        intro a hsub
        rw [rebaseAll_cons, List.map_cons, List.map_cons, Picture.rebaseAll,
          ih m (hsub m List.mem_cons_self),
          ihrest _ fun m' hm' => hsub m' (List.mem_cons_of_mem m hm')]
    have hlook := rebase_look parent n a b
    have hworld : world.value = ((n.look b).under parent.value).world := by
      rw [← hlook, ← hown]
      rfl
    rw [picture_eq, picture_eq b n, Picture.rebase, hlook, hbranches, hall _ _ fun m hm => hm,
      hworld]

end Rebasing

end SceneNode

/-! ## 3. Adding shadow flags -/

def MeshLook.addShadows (m : MeshLook K) (cast receive : Bool) : MeshLook K :=
  { m with castShadows := m.castShadows || cast, receiveShadows := m.receiveShadows || receive }

def NodeLook.addShadows (n : NodeLook K) (cast receive : Bool) : NodeLook K :=
  { n with
    mesh := n.mesh.map (·.addShadows cast receive)
    castShadow := n.castShadow || cast
    receiveShadow := n.receiveShadow || receive }

namespace Picture

mutual

def addShadows (cast receive : Bool) : Picture K → Picture K
  | node own branches => .node (own.addShadows cast receive) (addShadowsAll cast receive branches)

def addShadowsAll (cast receive : Bool) : List (Picture K) → List (Picture K)
  | [] => []
  | n :: rest => addShadows cast receive n :: addShadowsAll cast receive rest

end

theorem addShadowsAll_eq (cast receive : Bool) (ns : List (Picture K)) :
    addShadowsAll cast receive ns = ns.map (addShadows cast receive) := by
  induction ns with
  | nil => rfl
  | cons n rest ih => rw [addShadowsAll, ih, List.map_cons]

end Picture

namespace SceneNode

theorem addShadowsLevels_distances (cast receive : Bool) (ls : List (Level K (SceneNode K))) :
    (addShadowsLevels cast receive ls).map Level.minDistance = ls.map Level.minDistance := by
  induction ls with
  | nil => rfl
  | cons l rest ih => rw [addShadowsLevels, List.map_cons, ih, List.map_cons]

theorem addShadows_look (cast receive : Bool) (n : SceneNode K) (a : Arena) :
    (n.addShadows cast receive).look a = (n.look a).addShadows cast receive := by
  have hmesh : ∀ m : Option (Mesh K), (m.map (·.addShadows cast receive)).map (·.look a) =
      (m.map (·.look a)).map (·.addShadows cast receive) := by
    intro m
    cases m <;> rfl
  obtain ⟨name, placement, world, mesh, light, lod, children, c, r⟩ := n
  rcases lod with _ | ⟨⟨levels⟩⟩
  · simp only [addShadows, look, NodeLook.addShadows, hmesh, Option.map_none]
  · simp only [addShadows, look, NodeLook.addShadows, hmesh, Option.map_some,
      addShadowsLevels_distances]

theorem addShadows_picture (cast receive : Bool) (n : SceneNode K) (a : Arena) :
    (n.addShadows cast receive).picture a = (n.picture a).addShadows cast receive := by
  induction n using branches_induction with
  | h n ih =>
    rw [picture_eq, picture_eq a n, Picture.addShadows, Picture.addShadowsAll_eq,
      addShadows_look, addShadows_branches, List.map_map, List.map_map]
    exact congrArg _ (List.map_congr_left ih)

end SceneNode

end SceneAssembly
