/-
  SceneAssembly/Shape/Triangle.lean
  =================================
  **Single triangles.**

  A triangle is drawn from both sides.  Its texture is laid out flat: the first
  edge runs along U, and the third corner follows from the angle at the first.
  Corners on one line span no triangle.
-/
import SceneAssembly.Diagnostic
import SceneAssembly.Document.Shape
import SceneAssembly.Geometry.Basic

namespace SceneAssembly.TriangleSpec

variable {K : Type} [Scalar K]

/-- The corners in the plane of the texture, at their true distances. -/
def uvs (t : TriangleSpec K) : List (Vec2 K) :=
  let a := t.corner1.distance t.corner2
  let b := t.corner2.distance t.corner3
  let c := t.corner1.distance t.corner3
  let cosine := Scalar.clamp (-1) 1 ((a * a - b * b + c * c) / (2 * a * c))
  let sine := Scalar.sqrt (1 - cosine * cosine)
  [⟨0, 0⟩, ⟨a, 0⟩, ⟨a * cosine, a * sine⟩]

/-- The triangle where its corners put it. -/
def build (t : TriangleSpec K) : Except (Diagnostic K) (Geometry K) :=
  match ((t.corner2 - t.corner1).cross (t.corner3 - t.corner1)).unit? with
  | none => .error (.degenerate (.triangle t.corner1 t.corner2 t.corner3))
  | some normal => .ok (.ofBuffers {
      positions := [t.corner1, t.corner2, t.corner3]
      normals := [normal, normal, normal]
      uvs := t.uvs
      indices := [0, 1, 2, 2, 1, 0] })

end SceneAssembly.TriangleSpec
