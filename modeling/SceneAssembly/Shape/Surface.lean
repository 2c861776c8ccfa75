/-
  SceneAssembly/Shape/Surface.lean
  ================================
  **Rational tensor-product surfaces.**

  A point of the surface is the weighted mean of the control points, weighted
  by the products of two Bernstein bases; its normal is the cross product of
  the derivatives along U and V.
-/
import SceneAssembly.Diagnostic
import SceneAssembly.Document.Shape
import SceneAssembly.Shape.Bernstein
import SceneAssembly.Shape.Grid

namespace SceneAssembly

variable {K : Type} [Scalar K]

namespace SurfaceSpec

/-- A control point with the values and derivatives of its bases. -/
structure Term (K : Type) where
  bu : K
  du : K
  bv : K
  dv : K
  weight : K
  point : Vec3 K

/-- The control points with their bases at `(u, v)`, U-major. -/
def terms (s : SurfaceSpec K) (u v : K) : List (Term K) :=
  let weights := if s.weights.isEmpty then s.controlPoints.map fun _ => 1 else s.weights
  let along := (Bernstein.values s.degreeU u).zip (Bernstein.derivatives s.degreeU u)
  let across := (Bernstein.values s.degreeV v).zip (Bernstein.derivatives s.degreeV v)
  let bases := along.flatMap fun b => across.map fun c => (b, c)
  List.zipWith (fun (b, c) (weight, point) => ⟨b.1, b.2, c.1, c.2, weight, point⟩)
    bases (weights.zip s.controlPoints)

/-- The sum of the weighted points, each times a factor. -/
def pointSum (ts : List (Term K)) (factor : Term K → K) : Vec3 K :=
  ts.foldl (fun acc t => acc + (t.point.scale t.weight).scale (factor t)) Vec3.zero

/-- The sum of the weights, each times two factors. -/
def weightSum (ts : List (Term K)) (first second : Term K → K) : K :=
  ts.foldl (fun acc t => acc + t.weight * first t * second t) 0

/-- The point at `(u, v)` and the cross product of the derivatives there. -/
def evaluate (s : SurfaceSpec K) (u v : K) : Vec3 K × Vec3 K :=
  let ts := s.terms u v
  let w := weightSum ts Term.bu Term.bv
  let p := (pointSum ts fun t => t.bu * t.bv).divide w
  let pu := (pointSum ts (fun t => t.du * t.bv) - p.scale (weightSum ts Term.du Term.bv)).divide w
  let pv := (pointSum ts (fun t => t.bu * t.dv) - p.scale (weightSum ts Term.bu Term.dv)).divide w
  (p, pu.cross pv)

/-- How many control points the degrees ask for. -/
def expected (s : SurfaceSpec K) : Nat := (s.degreeU + 1) * (s.degreeV + 1)

/-- What is wrong with the control points or weights, if anything. -/
def fault? (s : SurfaceSpec K) : Option SurfaceFault :=
  if s.degreeU = 0 ∨ s.degreeV = 0 then some (.degrees s.degreeU s.degreeV)
  else if s.controlPoints.length ≠ s.expected then
    some (.controlPoints s.degreeU s.degreeV s.expected s.controlPoints.length)
  else if s.weights.isEmpty then none
  else if s.weights.length ≠ s.expected then some (.weights s.weights.length s.expected)
  else if s.weights.any fun w => decide (w ≤ 0) then some .weightSign
  else none

/-- Triangles between the samples, U-major. -/
def indices (partsU partsV : Nat) : List Nat :=
  (List.range partsU).flatMap fun iu => (List.range partsV).flatMap fun iv =>
    let a := iu * (partsV + 1) + iv
    let b := a + (partsV + 1)
    let c := b + 1
    let d := a + 1
    [a, b, d, b, c, d]

/-- The surface, sampled on a grid. -/
def build (s : SurfaceSpec K) : Except (Diagnostic K) (Geometry K) :=
  match s.fault? with
  | some fault => .error (.invalidSurface fault)
  | none =>
    let partsU := max s.partsU 1
    let partsV := max s.partsV 1
    let u (iu : Nat) : K := (iu : K) / (partsU : K)
    let v (iv : Nat) : K := (iv : K) / (partsV : K)
    let samples := Grid.vertices partsV partsU fun iv iu => s.evaluate (u iu) (v iv)
    if samples.all fun p => p.1.isFinite then
      .ok (.ofBuffers {
        positions := samples.map Prod.fst
        normals := samples.map fun p => p.2.unit?.getD Vec3.unitZ
        uvs := Grid.vertices partsV partsU fun iv iu => ⟨u iu, v iv⟩
        indices := indices partsU partsV })
    else .error (.invalidSurface .notFinite)

end SurfaceSpec

end SceneAssembly
