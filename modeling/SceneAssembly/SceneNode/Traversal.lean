/-
  SceneAssembly/SceneNode/Traversal.lean
  ======================================
  **Searching and walking through a tree.**

  All walks take a node first, then its children, then its levels, each with
  what is below it.
-/
import SceneAssembly.SceneNode.Basic

namespace SceneAssembly.SceneNode

variable {K : Type}

/-! ## 1. Walking -/

mutual

/-- The nodes of a subtree. -/
def preorder : SceneNode K → List (SceneNode K)
  | n@⟨_, _, _, _, _, none, children, _, _⟩ => n :: preorderAll children
  | n@⟨_, _, _, _, _, some ⟨levels⟩, children, _, _⟩ =>
    n :: (preorderAll children ++ preorderLevels levels)

def preorderAll : List (SceneNode K) → List (SceneNode K)
  | [] => []
  | n :: rest => preorder n ++ preorderAll rest

def preorderLevels : List (Level K (SceneNode K)) → List (SceneNode K)
  | [] => []
  | ⟨_, n⟩ :: rest => preorder n ++ preorderLevels rest

end

/-- How many nodes a subtree has. -/
def size (n : SceneNode K) : Nat := n.preorder.length

/-- The box around the meshes of a subtree, in the world. -/
def bounds [Scalar K] (n : SceneNode K) : Bounds K :=
  n.preorder.foldl (fun acc n =>
    match n.mesh with
    | some mesh => acc.union (mesh.bounds.transform n.world.value)
    | none => acc) .empty

/-! ## 2. Searching -/

mutual

/-- The first node of a name. -/
def find? (name : String) : SceneNode K → Option (SceneNode K)
  | n@⟨own, _, _, _, _, none, children, _, _⟩ =>
    if own = name then some n else findAll? name children
  | n@⟨own, _, _, _, _, some ⟨levels⟩, children, _, _⟩ =>
    if own = name then some n
    else match findAll? name children with
      | some m => some m
      | none => findLevels? name levels

def findAll? (name : String) : List (SceneNode K) → Option (SceneNode K)
  | [] => none
  | n :: rest =>
    match find? name n with
    | some m => some m
    | none => findAll? name rest

def findLevels? (name : String) : List (Level K (SceneNode K)) → Option (SceneNode K)
  | [] => none
  | ⟨_, n⟩ :: rest =>
    match find? name n with
    | some m => some m
    | none => findLevels? name rest

end

/-! ## 3. Changing one node -/

mutual

/-- The subtree with its first node of a name changed, or `none` if there is no such node. -/
def modify? (name : String) (f : SceneNode K → SceneNode K) : SceneNode K → Option (SceneNode K)
  | n@⟨own, placement, world, mesh, light, none, children, cast, receive⟩ =>
    if own = name then some (f n)
    else match modifyAll? name f children with
      | some children =>
        some ⟨own, placement, world, mesh, light, none, children, cast, receive⟩
      | none => none
  | n@⟨own, placement, world, mesh, light, some ⟨levels⟩, children, cast, receive⟩ =>
    if own = name then some (f n)
    else match modifyAll? name f children with
      | some children =>
        some ⟨own, placement, world, mesh, light, some ⟨levels⟩, children, cast, receive⟩
      | none =>
        match modifyLevels? name f levels with
        | some levels =>
          some ⟨own, placement, world, mesh, light, some ⟨levels⟩, children, cast, receive⟩
        | none => none

def modifyAll? (name : String) (f : SceneNode K → SceneNode K) :
    List (SceneNode K) → Option (List (SceneNode K))
  | [] => none
  | n :: rest =>
    match modify? name f n with
    | some n => some (n :: rest)
    | none =>
      match modifyAll? name f rest with
      | some rest => some (n :: rest)
      | none => none

def modifyLevels? (name : String) (f : SceneNode K → SceneNode K) :
    List (Level K (SceneNode K)) → Option (List (Level K (SceneNode K)))
  | [] => none
  | ⟨distance, n⟩ :: rest =>
    match modify? name f n with
    | some n => some (⟨distance, n⟩ :: rest)
    | none =>
      match modifyLevels? name f rest with
      | some rest => some (⟨distance, n⟩ :: rest)
      | none => none

end

end SceneAssembly.SceneNode
