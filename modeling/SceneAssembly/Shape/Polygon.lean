/-
  SceneAssembly/Shape/Polygon.lean
  ================================
  **Coloured fans.**

  Rings of vertices around the origin, blended from the colour of the centre to
  that of the rim.  The innermost ring is a point, so only the outer triangle of
  its cells is drawn.
-/
import SceneAssembly.Document.Shape
import SceneAssembly.Shape.Grid

namespace SceneAssembly.PolygonSpec

variable {K : Type} [Scalar K]

/-- Rings around the centre; at least one. -/
def rings (p : PolygonSpec K) : Nat := max p.layers 1

/-- Segments of a ring; at least three. -/
def around (p : PolygonSpec K) : Nat := max p.slices 3

/-- The triangles, ring by ring. -/
def indices (rings around : Nat) : List Nat :=
  (List.range rings).flatMap fun j => (List.range around).flatMap fun i =>
    let k := j * (around + 1) + i
    (if 0 < j then [k, k + around + 1, k + 1] else []) ++
      [k + 1, k + around + 1, k + around + 2]

/-- The fan around the origin, facing +Z. -/
def build (p : PolygonSpec K) : Geometry K :=
  let share (j : Nat) : K := (j : K) / (p.rings : K)
  let angle (i : Nat) : K := (i : K) / (p.around : K) * Scalar.tau
  let plain : Geometry K := .ofBuffers {
    positions := Grid.vertices p.around p.rings fun i j =>
      let ring := p.radius * share j
      ⟨ring * Scalar.cos (angle i), ring * Scalar.sin (angle i), 0⟩
    normals := Grid.vertices p.around p.rings fun _ _ => Vec3.unitZ
    uvs := Grid.vertices p.around p.rings fun i j => ⟨(i : K) / (p.around : K), share j⟩
    indices := indices p.rings p.around }
  plain.setAttribute "color" (.ofTriples (Grid.vertices p.around p.rings fun _ j =>
    p.centerColor.lerp p.rimColor (share j)))

end SceneAssembly.PolygonSpec
