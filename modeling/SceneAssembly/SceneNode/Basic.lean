/-
  SceneAssembly/SceneNode/Basic.lean
  ==================================
  **Nodes of an assembled scene.**

  A node has a placement of its own or shares the world matrix of the node above
  it.  Below it are its children and the levels of its levels of detail.
-/
import SceneAssembly.Light
import SceneAssembly.Lod
import SceneAssembly.Mesh
import SceneAssembly.Transform

namespace SceneAssembly

structure SceneNode (K : Type) where
  name : String
  /-- The matrix relative to the node above, if the node has one of its own. -/
  placement : Option (Affine K)
  world : Shared (Affine K)
  mesh : Option (Mesh K)
  light : Option (Light K)
  lod : Option (Lod K (SceneNode K))
  children : List (SceneNode K)
  castShadow : Bool
  receiveShadow : Bool

namespace SceneNode

variable {K : Type}

/-- A node with a name and a place, and nothing in it. -/
def bare (name : String) (placement : Option (Affine K)) (world : Shared (Affine K)) :
    SceneNode K :=
  { name, placement, world, mesh := none, light := none, lod := none, children := [],
    castShadow := false, receiveShadow := false }

/-- The levels below a node; none without levels of detail. -/
def levels (n : SceneNode K) : List (Level K (SceneNode K)) :=
  match n.lod with
  | some lod => lod.levels
  | none => []

/-- The nodes directly below: children, then levels. -/
def branches (n : SceneNode K) : List (SceneNode K) := n.children ++ n.levels.map Level.node

variable [Scalar K]

/-- A node at the origin, with a world matrix of its own. -/
def atOrigin (name : String) : StateM Arena (SceneNode K) := do
  return bare name none (← Arena.share Affine.identity)

/-- A node placed below a parent's world. -/
def placed (name : String) (parent : Shared (Affine K)) (placement : Option (Affine K)) :
    StateM Arena (SceneNode K) := do
  return bare name placement (← placeIn parent placement)

/-! ## 1. Rebasing -/

mutual

/-- The subtree below another world: every node is placed anew, and nothing else changes. -/
def rebase (parent : Shared (Affine K)) : SceneNode K → StateM Arena (SceneNode K)
  | ⟨name, placement, _, mesh, light, none, children, cast, receive⟩ => do
    let world ← placeIn parent placement
    let children ← rebaseAll world children
    return ⟨name, placement, world, mesh, light, none, children, cast, receive⟩
  | ⟨name, placement, _, mesh, light, some ⟨levels⟩, children, cast, receive⟩ => do
    let world ← placeIn parent placement
    let children ← rebaseAll world children
    let levels ← rebaseLevels world levels
    return ⟨name, placement, world, mesh, light, some ⟨levels⟩, children, cast, receive⟩

def rebaseAll (parent : Shared (Affine K)) : List (SceneNode K) → StateM Arena (List (SceneNode K))
  | [] => return []
  | n :: rest => do return (← rebase parent n) :: (← rebaseAll parent rest)

def rebaseLevels (parent : Shared (Affine K)) :
    List (Level K (SceneNode K)) → StateM Arena (List (Level K (SceneNode K)))
  | [] => return []
  | ⟨distance, n⟩ :: rest => do
    return ⟨distance, ← rebase parent n⟩ :: (← rebaseLevels parent rest)

end

end SceneNode

/-! ## 2. Shadows -/

/-- The mesh with flags added to its own. -/
def Mesh.addShadows {K : Type} (m : Mesh K) (cast receive : Bool) : Mesh K :=
  { m with castShadows := m.castShadows || cast, receiveShadows := m.receiveShadows || receive }

namespace SceneNode

variable {K : Type}

mutual

/-- The subtree with flags added to every node and mesh. -/
def addShadows (cast receive : Bool) : SceneNode K → SceneNode K
  | ⟨name, placement, world, mesh, light, none, children, c, r⟩ =>
    ⟨name, placement, world, mesh.map (·.addShadows cast receive), light, none,
      addShadowsAll cast receive children, c || cast, r || receive⟩
  | ⟨name, placement, world, mesh, light, some ⟨levels⟩, children, c, r⟩ =>
    ⟨name, placement, world, mesh.map (·.addShadows cast receive), light,
      some ⟨addShadowsLevels cast receive levels⟩,
      addShadowsAll cast receive children, c || cast, r || receive⟩

def addShadowsAll (cast receive : Bool) : List (SceneNode K) → List (SceneNode K)
  | [] => []
  | n :: rest => addShadows cast receive n :: addShadowsAll cast receive rest

def addShadowsLevels (cast receive : Bool) :
    List (Level K (SceneNode K)) → List (Level K (SceneNode K))
  | [] => []
  | ⟨distance, n⟩ :: rest =>
    ⟨distance, addShadows cast receive n⟩ :: addShadowsLevels cast receive rest

end

/-- The node with the flags of the nodes directly below added to its own. -/
def gatherShadows (n : SceneNode K) : SceneNode K :=
  { n with
    castShadow := n.castShadow || n.branches.any SceneNode.castShadow
    receiveShadow := n.receiveShadow || n.branches.any SceneNode.receiveShadow }

end SceneNode

end SceneAssembly
