/-
  SceneAssembly/Shape/Rectangle.lean
  ==================================
  **Rectangles in the XY plane.**

  The rectangle spans its two corners, is moved so that its centre becomes the
  origin, and faces +Z.  Corners that share a coordinate enclose no area.
-/
import SceneAssembly.Diagnostic
import SceneAssembly.Document.Shape
import SceneAssembly.Shape.Grid

namespace SceneAssembly

variable {K : Type} [Scalar K]

namespace RectangleSpec

/-- How far the rectangle extends along X and Y. -/
def size (r : RectangleSpec K) : Vec2 K :=
  r.corner1.greater r.corner2 - r.corner1.lesser r.corner2

/-- The middle of the corners. -/
def center (r : RectangleSpec K) : Vec2 K := (r.corner1 + r.corner2).scale 0.5

/-- The way from the middle of the corners to the origin. -/
def offset (r : RectangleSpec K) : Vec3 K := -⟨r.center.x, r.center.y, 0⟩

/-- The rectangle where its corners put it; its rows run from the top down. -/
def buffers (r : RectangleSpec K) : Buffers K :=
  let low := r.corner1.lesser r.corner2
  let high := r.corner1.greater r.corner2
  let cols := max r.partsX 1
  let rows := max r.partsY 1
  let stepX := r.size.x / (cols : K)
  let stepY := r.size.y / (rows : K)
  { positions := Grid.vertices cols rows fun ix iy =>
      ⟨low.x + (ix : K) * stepX, high.y - (iy : K) * stepY, 0⟩
    normals := Grid.vertices cols rows fun _ _ => Vec3.unitZ
    uvs := Grid.vertices cols rows fun ix iy =>
      ⟨(ix : K) / (cols : K), 1 - (iy : K) / (rows : K)⟩
    indices := Grid.indices 0 cols rows }

/-- The rectangle moved to the origin. -/
def build (r : RectangleSpec K) : Except (Diagnostic K) (Geometry K) :=
  if r.size.x ≤ 0 ∨ r.size.y ≤ 0 then
    .error (.degenerate (.rectangle r.corner1 r.corner2))
  else
    .ok (((Geometry.ofBuffers r.buffers).translate? r.offset).get
      (Geometry.isSome_translate?_ofBuffers r.buffers r.offset))

theorem build_eq_ok_iff {r : RectangleSpec K} {g : Geometry K} : r.build = .ok g ↔
    ¬ (r.size.x ≤ 0 ∨ r.size.y ≤ 0) ∧
      (Geometry.ofBuffers r.buffers).translate? r.offset = some g := by
  unfold build
  split
  next h => exact iff_of_false nofun fun hok => hok.1 h
  next h => rw [Except.ok.injEq, ← Option.some_inj, Option.some_get, and_iff_right h]

end RectangleSpec

end SceneAssembly
