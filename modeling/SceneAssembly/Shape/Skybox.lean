/-
  SceneAssembly/Shape/Skybox.lean
  ===============================
  **Sky boxes.**

  Six faces around a centre, seen from within, each with its own group of
  indices so that it can have its own material.
-/
import SceneAssembly.Document.Shape
import SceneAssembly.Geometry.Basic

namespace SceneAssembly.SkyboxSpec

variable {K : Type} [Scalar K]

/-- The names of the faces, in order. -/
def faceNames : List String := ["front", "back", "up", "down", "left", "right"]

/-- A face by the direction it lies in and the directions of its texture. -/
structure Face (K : Type) where
  towards : Vec3 K
  u : Vec3 K
  v : Vec3 K

/-- The faces in the order of their names. -/
def faceAxes : List (Face K) :=
  [⟨⟨0, 0, -1⟩, Vec3.unitX, Vec3.unitY⟩,
   ⟨Vec3.unitZ, ⟨-1, 0, 0⟩, Vec3.unitY⟩,
   ⟨Vec3.unitY, Vec3.unitX, Vec3.unitZ⟩,
   ⟨⟨0, -1, 0⟩, Vec3.unitX, ⟨0, 0, -1⟩⟩,
   ⟨⟨-1, 0, 0⟩, ⟨0, 0, -1⟩, Vec3.unitY⟩,
   ⟨Vec3.unitX, Vec3.unitZ, Vec3.unitY⟩]

/-- The corners of a face by their place in the texture. -/
def corners : List (K × K × Vec2 K) :=
  [(-1, -1, ⟨0, 0⟩), (1, -1, ⟨1, 0⟩), (1, 1, ⟨1, 1⟩), (-1, 1, ⟨0, 1⟩)]

/-- A face, its four vertices numbered from `base`. -/
def faceBuffers (s : SkyboxSpec K) (f : Face K) (base : Nat) : Buffers K :=
  let half := s.size.abs.scale 0.5
  { positions := corners.map fun ((su, sv, _) : K × K × Vec2 K) =>
      s.center + (f.towards + f.u.scale su + f.v.scale sv) * half
    normals := corners.map fun (_ : K × K × Vec2 K) => -f.towards
    uvs := corners.map fun ((_, _, uv) : K × K × Vec2 K) => uv
    indices := [base, base + 1, base + 2, base, base + 2, base + 3] }

/-- The cube, facing inwards. -/
def build (s : SkyboxSpec K) : Geometry K :=
  let buffers := faceAxes.foldl
    (fun acc face => acc.append (s.faceBuffers face acc.positions.length)) .empty
  (List.range 6).foldl (fun g face => g.addGroup ⟨face * 6, 6, face⟩) (.ofBuffers buffers)

end SceneAssembly.SkyboxSpec
