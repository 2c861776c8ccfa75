/-
  SceneAssembly/Shape/Track.lean
  ==============================
  **Ribbons along a curve.**

  Every sample gets a cross-section of four corners in its frame, and
  neighbouring sections are joined.  The frame comes from the step to the next
  sample; where that step has no direction, or runs straight up or down, the
  frame before is kept.
-/
import SceneAssembly.Diagnostic
import SceneAssembly.Document.Shape
import SceneAssembly.Geometry.Basic

namespace SceneAssembly

variable {K : Type} [Scalar K]

namespace Track

/-- The directions of width and depth at a sample. -/
structure Frame (K : Type) where
  normal : Vec3 K
  binormal : Vec3 K

/-- The frame before any step. -/
def Frame.start : Frame K := ⟨Vec3.unitX, Vec3.unitY⟩

/-- The frame of a step, unless the step has no direction or is vertical. -/
def Frame.ofStep? (step : Vec3 K) : Option (Frame K) := do
  let tangent ← step.unit?
  let normal ← (Vec3.unitY.cross tangent).unit?
  return ⟨normal, (tangent.cross normal).normalized⟩

/-- The step from each sample to the next; the last sample of an open track has none. -/
def steps (samples : List (Vec3 K)) (closed : Bool) : List (Option (Vec3 K)) :=
  let last := if closed then samples.head? else none
  List.zipWith (fun here next => next.map (· - here)) samples (samples.tail.map some ++ [last])

/-- One frame per step; a step without a frame keeps the one before. -/
def framesFrom (previous : Frame K) : List (Option (Vec3 K)) → List (Frame K)
  | [] => []
  | step :: rest =>
    let frame := (step.bind Frame.ofStep?).getD previous
    frame :: framesFrom frame rest

/-- The frames of a track. -/
def frames (samples : List (Vec3 K)) (closed : Bool) : List (Frame K) :=
  framesFrom .start (steps samples closed)

/-- The corners of a section: the signs of width and depth, and the place in the texture. -/
def corners : List (K × K × Vec2 K) :=
  [(-1, 1, ⟨0, 0⟩), (1, 1, ⟨1, 0⟩), (1, -1, ⟨1, 1⟩), (-1, -1, ⟨0, 1⟩)]

/-- Triangles of a segment, the corners of its sections numbered 0 to 3 and 4 to 7. -/
def segmentTemplate : List Nat :=
  [0, 1, 2, 2, 3, 0, 4, 5, 6, 6, 7, 4, 0, 4, 7, 7, 3, 0, 1, 5, 6, 6, 2, 1, 0, 1, 5, 5, 4, 0, 2,
    3, 7, 7, 6, 2]

/-- Triangles from section `i` to the next; after the last section comes the first. -/
def segment (sections i : Nat) : List Nat :=
  segmentTemplate.map fun k => if i + 1 = sections ∧ 3 < k then k - 4 else i * 4 + k

/-- Triangles of all segments; an open track has none from its last section on. -/
def indices (sections : Nat) (closed : Bool) : List Nat :=
  (List.range (if closed then sections else sections - 1)).flatMap (segment sections)

/-- The colour of a track. -/
def color : Vec3 K := Vec3.splat 0.8

end Track

namespace TrackSpec

/-- A corner of the section at a sample; it lies half the height above the sample. -/
def corner (t : TrackSpec K) (point : Vec3 K) (frame : Track.Frame K) (signs : K × K) : Vec3 K :=
  let spread := point + frame.normal.scale (signs.1 * (t.width / 2))
    + frame.binormal.scale (signs.2 * (t.depth / 2))
  { spread with y := point.y + t.height / 2 }

/-- The ribbon through the given samples, at least two. -/
def build (t : TrackSpec K) (samples : List (Vec3 K)) : Except (Diagnostic K) (Geometry K) :=
  if samples.length < 2 then .error (.degenerate (.track samples.length))
  else
    let framed := samples.zip (Track.frames samples t.closed)
    let positions := framed.flatMap fun (point, frame) =>
      Track.corners.map fun (ns, bs, _) => t.corner point frame (ns, bs)
    let plain : Geometry K := .ofBuffers {
      positions
      normals := framed.flatMap fun (_, frame) => Track.corners.map fun (_ : K × K × Vec2 K) =>
        frame.binormal
      uvs := framed.flatMap fun _ => Track.corners.map fun (_, _, uv) => uv
      indices := Track.indices samples.length t.closed }
    .ok (plain.setAttribute "color" (.ofTriples (positions.map fun _ => Track.color)))

end TrackSpec

end SceneAssembly
