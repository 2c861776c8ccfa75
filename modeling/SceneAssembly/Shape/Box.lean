/-
  SceneAssembly/Shape/Box.lean
  ============================
  **Boxes.**

  A box has the size its corners span and the origin as its centre.  Its six
  faces are separate grids: each face names the axes it runs along and the axis
  it faces, with the directions in which the grid runs.
-/
import SceneAssembly.Diagnostic
import SceneAssembly.Document.Shape
import SceneAssembly.Shape.Grid

namespace SceneAssembly

variable {K : Type} [Scalar K]

inductive Axis where
  | x
  | y
  | z
deriving DecidableEq, Repr

/-- The vector with one component replaced. -/
def Vec3.set {K : Type} (v : Vec3 K) (axis : Axis) (s : K) : Vec3 K :=
  match axis with
  | .x => { v with x := s }
  | .y => { v with y := s }
  | .z => { v with z := s }

/-- A face of a box: a grid along the axes `u` and `v`, half of `depth` away from the origin along
    `w`, whose sign is the side it faces. -/
structure BoxFace (K : Type) where
  u : Axis
  v : Axis
  w : Axis
  signU : K
  signV : K
  width : K
  height : K
  depth : K
  cols : Nat
  rows : Nat

/-- The grid of a face, its vertices numbered from `base`. -/
def BoxFace.buffers (f : BoxFace K) (base : Nat) : Buffers K :=
  let stepX := f.width / (f.cols : K)
  let stepY := f.height / (f.rows : K)
  { positions := Grid.vertices f.cols f.rows fun ix iy =>
      let x := (ix : K) * stepX - f.width / 2
      let y := (iy : K) * stepY - f.height / 2
      ((Vec3.zero.set f.u (x * f.signU)).set f.v (y * f.signV)).set f.w (f.depth / 2)
    normals := Grid.vertices f.cols f.rows fun _ _ => Vec3.zero.set f.w (Scalar.sign f.depth)
    uvs := Grid.vertices f.cols f.rows fun ix iy =>
      ⟨(ix : K) / (f.cols : K), 1 - (iy : K) / (f.rows : K)⟩
    indices := Grid.indices base f.cols f.rows }

namespace BoxSpec

/-- The extent along each axis. -/
def size (b : BoxSpec K) : Vec3 K := (b.corner2 - b.corner1).abs

/-- The faces towards +X, -X, +Y, -Y, +Z and -Z. -/
def faces (b : BoxSpec K) : List (BoxFace K) :=
  let s := b.size
  let nx := max b.partsX 1
  let ny := max b.partsY 1
  let nz := max b.partsZ 1
  [⟨.z, .y, .x, -1, -1, s.z, s.y, s.x, nz, ny⟩,
   ⟨.z, .y, .x, 1, -1, s.z, s.y, -s.x, nz, ny⟩,
   ⟨.x, .z, .y, 1, 1, s.x, s.z, s.y, nx, nz⟩,
   ⟨.x, .z, .y, 1, -1, s.x, s.z, -s.y, nx, nz⟩,
   ⟨.x, .y, .z, 1, -1, s.x, s.y, s.z, nx, ny⟩,
   ⟨.x, .y, .z, -1, -1, s.x, s.y, -s.z, nx, ny⟩]

/-- The faces one after the other. -/
def buffers (b : BoxSpec K) : Buffers K :=
  b.faces.foldl (fun acc face => acc.append (face.buffers acc.positions.length)) .empty

/-- The box around the origin. -/
def build (b : BoxSpec K) : Except (Diagnostic K) (Geometry K) :=
  if b.size.least ≤ 0 then .error (.degenerate (.box b.corner1 b.corner2))
  else .ok (.ofBuffers b.buffers)

end BoxSpec

end SceneAssembly
