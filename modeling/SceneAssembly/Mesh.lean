/-
  SceneAssembly/Mesh.lean
  =======================
  **Meshes: a geometry drawn with materials.**
-/
import SceneAssembly.Geometry.Basic
import SceneAssembly.Material.Basic

namespace SceneAssembly

structure Mesh (K : Type) where
  name : String
  geometry : Shared (Geometry K)
  material : Shared (Material K)
  /-- Materials of the groups of the geometry, by number. -/
  groupMaterials : List (Shared (Material K))
  visible : Bool
  castShadows : Bool
  receiveShadows : Bool

namespace Mesh

variable {K : Type}

/-- A visible mesh without shadows. -/
def ofParts (geometry : Shared (Geometry K)) (material : Shared (Material K)) : Mesh K :=
  { name := "Mesh", geometry, material, groupMaterials := [], visible := true,
    castShadows := false, receiveShadows := false }

/-- The material of a group; a group without one has that of the mesh. -/
def materialForGroup (m : Mesh K) (group : Nat) : Shared (Material K) :=
  m.groupMaterials[group]?.getD m.material

def bounds (m : Mesh K) : Bounds K := m.geometry.value.bounds

end Mesh

end SceneAssembly
