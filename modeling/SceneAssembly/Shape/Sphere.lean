/-
  SceneAssembly/Shape/Sphere.lean
  ===============================
  **Spheres and sections of spheres.**

  Rows run from the polar angle where the section starts.  In a row at a pole
  all vertices coincide, so the triangle that would collapse there is left out
  and the texture is shifted by half a segment.
-/
import SceneAssembly.Document.Shape
import SceneAssembly.Shape.Grid

namespace SceneAssembly.SphereSpec

variable {K : Type} [Scalar K]

/-- Segments around the axis; at least three. -/
def around (s : SphereSpec K) : Nat := max s.slices 3

/-- Segments from pole to pole; at least two. -/
def along (s : SphereSpec K) : Nat := max s.layers 2

/-- The polar angle where the section ends, at most half a turn. -/
def thetaEnd (s : SphereSpec K) : K := Scalar.lesser (s.thetaStart + s.thetaLength) Scalar.pi

/-- The shift of the texture in a row: towards the middle of a segment at a pole. -/
def poleShift (s : SphereSpec K) (row : Nat) : K :=
  if row = 0 ∧ Scalar.same s.thetaStart 0 then 0.5 / (s.around : K)
  else if row = s.along ∧ Scalar.pi ≤ s.thetaEnd then -0.5 / (s.around : K)
  else 0

/-- The outward direction at a vertex. -/
def direction (s : SphereSpec K) (x y : Nat) : Vec3 K :=
  let theta := s.thetaStart + (y : K) / (s.along : K) * s.thetaLength
  let phi := s.phiStart + (x : K) / (s.around : K) * s.phiLength
  ⟨-Scalar.cos phi * Scalar.sin theta, Scalar.cos theta, Scalar.sin phi * Scalar.sin theta⟩

/-- Is the upper triangle of the cells in a row drawn? -/
def drawsUpper (s : SphereSpec K) (row : Nat) : Bool := row ≠ 0 || decide (0 < s.thetaStart)

/-- Is the lower triangle of the cells in a row drawn? -/
def drawsLower (s : SphereSpec K) (row : Nat) : Bool :=
  row + 1 ≠ s.along || decide (s.thetaEnd < Scalar.pi)

/-- The triangles of a cell. -/
def cell (s : SphereSpec K) (x y : Nat) : List Nat :=
  let stride := s.around + 1
  let a := y * stride + (x + 1)
  let b := y * stride + x
  let c := (y + 1) * stride + x
  let d := (y + 1) * stride + (x + 1)
  (if s.drawsUpper y then [a, b, d] else []) ++ if s.drawsLower y then [b, c, d] else []

/-- The sphere around the origin. -/
def build (s : SphereSpec K) : Geometry K :=
  .ofBuffers {
    positions := Grid.vertices s.around s.along fun x y => (s.direction x y).scale s.radius
    normals := Grid.vertices s.around s.along s.direction
    uvs := Grid.vertices s.around s.along fun x y =>
      ⟨(x : K) / (s.around : K) + s.poleShift y, 1 - (y : K) / (s.along : K)⟩
    indices := (List.range s.along).flatMap fun y => (List.range s.around).flatMap fun x =>
      s.cell x y }

end SceneAssembly.SphereSpec
