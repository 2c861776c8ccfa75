/-
  SceneAssembly/Shape/Curve.lean
  ==============================
  **Sampling a curve through control points.**

  Between two control points the curve is the Catmull-Rom cubic of these two and
  their outer neighbours.  A closed curve takes neighbours in a circle; beyond
  the end of an open one the last step is repeated.
-/
import SceneAssembly.Vector

namespace SceneAssembly.Curve

variable {K : Type} [Scalar K]

/-- The cubic from `p1` (at 0) to `p2` (at 1). -/
def catmullRom (p0 p1 p2 p3 : Vec3 K) (t : K) : Vec3 K :=
  let t2 := t * t
  let t3 := t2 * t
  (p1.scale 2 + (p2 - p0).scale t
    + (p0.scale 2 - p1.scale 5 + p2.scale 4 - p3).scale t2
    + (p1.scale 3 - p0 - p2.scale 3 + p3).scale t3).scale 0.5

/-- The control point at a position that may lie outside the list. -/
def control (points : List (Vec3 K)) (h : 2 ≤ points.length) (closed : Bool) (i : Int) : Vec3 K :=
  let n := points.length
  if closed then
    points.get ⟨(i % (n : Int)).toNat, by
      have := Int.emod_nonneg i (b := (n : Int)) (by omega)
      have := Int.emod_lt_of_pos i (b := (n : Int)) (by omega)
      omega⟩
  else if i < 0 then (points.get ⟨0, by omega⟩).scale 2 - points.get ⟨1, by omega⟩
  else if hi : i.toNat < n then points.get ⟨i.toNat, hi⟩
  else (points.get ⟨n - 1, by omega⟩).scale 2 - points.get ⟨n - 2, by omega⟩

/-- Samples of a curve, `samplesPerSpan` from each control point on and at least one; an open
    curve ends with its last control point. -/
def sample (points : List (Vec3 K)) (closed : Bool) (samplesPerSpan : Nat) : List (Vec3 K) :=
  if h : 2 ≤ points.length then
    let n := points.length
    let per := max samplesPerSpan 1
    let place := control points h closed
    let spans := if closed then n else n - 1
    ((List.range spans).flatMap fun (q : Nat) => (List.range per).map fun (r : Nat) =>
      catmullRom (place ((q : Int) - 1)) (place q) (place ((q : Int) + 1)) (place ((q : Int) + 2))
        ((r : K) / (per : K))) ++
      if closed then [] else [points.get ⟨n - 1, by omega⟩]
  else points

end SceneAssembly.Curve
