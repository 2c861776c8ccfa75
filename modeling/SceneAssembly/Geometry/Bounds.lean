/-
  SceneAssembly/Geometry/Bounds.lean
  ==================================
  **Axis-parallel bounding boxes.**

  The box of a list of points is the least one around them.  The empty box runs
  from the greatest value down to the least one, so a union with it on the left
  gives the other box; a box is taken for empty when it runs backwards on some
  axis.
-/
import SceneAssembly.Matrix

namespace SceneAssembly

variable {K : Type} [Scalar K]

@[ext] structure Bounds (K : Type) where
  min : Vec3 K
  max : Vec3 K

namespace Bounds

def empty : Bounds K := ⟨Vec3.splat Scalar.infinity, Vec3.splat (-Scalar.infinity)⟩

/-- The box stretched to hold a point. -/
def extend (b : Bounds K) (p : Vec3 K) : Bounds K := ⟨b.min.lesser p, b.max.greater p⟩

/-- The least box around some points. -/
def ofPoints : List (Vec3 K) → Bounds K
  | [] => empty
  | p :: ps => ps.foldl extend ⟨p, p⟩

def isEmpty (b : Bounds K) : Bool :=
  decide (b.max.x < b.min.x) || decide (b.max.y < b.min.y) || decide (b.max.z < b.min.z)

def center (b : Bounds K) : Vec3 K := (b.min + b.max).scale 0.5

def size (b : Bounds K) : Vec3 K := b.max - b.min

def union (a b : Bounds K) : Bounds K := ⟨a.min.lesser b.min, a.max.greater b.max⟩

def corners (b : Bounds K) : List (Vec3 K) :=
  [⟨b.min.x, b.min.y, b.min.z⟩, ⟨b.min.x, b.min.y, b.max.z⟩,
   ⟨b.min.x, b.max.y, b.min.z⟩, ⟨b.min.x, b.max.y, b.max.z⟩,
   ⟨b.max.x, b.min.y, b.min.z⟩, ⟨b.max.x, b.min.y, b.max.z⟩,
   ⟨b.max.x, b.max.y, b.min.z⟩, ⟨b.max.x, b.max.y, b.max.z⟩]

/-- The box around the images of the corners; an empty box stays as it is. -/
def transform (b : Bounds K) (m : Affine K) : Bounds K :=
  if b.isEmpty then b else ofPoints (b.corners.map m.apply)

end Bounds

end SceneAssembly
