/-
  SceneAssembly/Shape/Cylinder.lean
  =================================
  **Cylinders and truncated cones.**

  The side is a grid around the Y axis from the top down; its triangles are
  listed strip by strip.  A cap closes an end whose radius is positive: it has a
  centre vertex of its own for every segment and a rim.
-/
import SceneAssembly.Document.Shape
import SceneAssembly.Shape.Grid

namespace SceneAssembly.CylinderSpec

variable {K : Type} [Scalar K]

/-- Segments around the axis; at least three. -/
def around (c : CylinderSpec K) : Nat := max c.slices 3

/-- Segments along the axis; at least one. -/
def along (c : CylinderSpec K) : Nat := max c.layers 1

/-- The angle at which a segment starts. -/
def angle (c : CylinderSpec K) (segment : Nat) : K :=
  (segment : K) / (c.around : K) * c.thetaLength + c.thetaStart

/-- Triangles of the side, from top to bottom in every segment. -/
def sideIndices (around along : Nat) : List Nat :=
  (List.range around).flatMap fun x => (List.range along).flatMap fun y =>
    let a := y * (around + 1) + x
    let b := (y + 1) * (around + 1) + x
    let c := (y + 1) * (around + 1) + (x + 1)
    let d := y * (around + 1) + (x + 1)
    [a, b, d, b, c, d]

/-- The side. -/
def side (c : CylinderSpec K) : Buffers K :=
  let slope := (c.base - c.top) / c.height
  let share (y : Nat) : K := (y : K) / (c.along : K)
  { positions := Grid.vertices c.around c.along fun x y =>
      let v := share y
      let radius := v * (c.base - c.top) + c.top
      ⟨radius * Scalar.sin (c.angle x), -v * c.height + c.height / 2,
        radius * Scalar.cos (c.angle x)⟩
    normals := Grid.vertices c.around c.along fun x _ =>
      let n : Vec3 K := ⟨Scalar.sin (c.angle x), slope, Scalar.cos (c.angle x)⟩
      n.unit?.getD Vec3.zero
    uvs := Grid.vertices c.around c.along fun x y => ⟨(x : K) / (c.around : K), 1 - share y⟩
    indices := sideIndices c.around c.along }

/-- Triangles of a cap whose vertices are numbered from `base`: the centres first, then the rim. -/
def capIndices (base around : Nat) (top : Bool) : List Nat :=
  (List.range around).flatMap fun x =>
    let center := base + x
    let rim := base + around + x
    if top then [rim, rim + 1, center] else [rim + 1, rim, center]

/-- The cap of an end. -/
def cap (c : CylinderSpec K) (base : Nat) (top : Bool) : Buffers K :=
  let radius := if top then c.top else c.base
  let sign : K := if top then 1 else -1
  let y := c.height / 2 * sign
  let segments := List.range c.around
  let rim := List.range (c.around + 1)
  { positions := (segments.map fun _ => ⟨0, y, 0⟩) ++
      rim.map fun x => ⟨radius * Scalar.sin (c.angle x), y, radius * Scalar.cos (c.angle x)⟩
    normals := (segments.map fun _ => ⟨0, sign, 0⟩) ++ rim.map fun _ => ⟨0, sign, 0⟩
    uvs := (segments.map fun x =>
        ⟨(((x + 1 : Nat) : K) - 0.5) / (c.around : K), if top then 1 else 0⟩) ++
      rim.map fun x =>
        ⟨Scalar.cos (c.angle x) * 0.5 + 0.5, Scalar.sin (c.angle x) * 0.5 * sign + 0.5⟩
    indices := capIndices base c.around top }

/-- The buffers with a cap added where its radius is positive. -/
def withCap (c : CylinderSpec K) (top : Bool) (b : Buffers K) : Buffers K :=
  if 0 < (if top then c.top else c.base) then b.append (c.cap b.positions.length top) else b

/-- The cylinder, closed on request. -/
def build (c : CylinderSpec K) : Geometry K :=
  .ofBuffers (if c.capped then c.withCap false (c.withCap true c.side) else c.side)

end SceneAssembly.CylinderSpec
