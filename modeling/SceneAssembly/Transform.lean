/-
  SceneAssembly/Transform.lean
  ============================
  **Placements: the steps of an element put together.**

  Steps are gathered by type, whatever their order between types: the moves add
  up, the turns multiply from left to right, each about X, then Y, then Z, and
  the stretches multiply axis by axis.  The placement moves what is turned what
  is stretched.  Steps of an unknown type are left out and reported; without any
  other step there is no placement.
-/
import SceneAssembly.Diagnostic
import SceneAssembly.Document.Transform
import SceneAssembly.Matrix
import SceneAssembly.Shared

namespace SceneAssembly

variable {K : Type} [Scalar K]

/-- Steps gathered by type. -/
structure Placement (K : Type) where
  shift : Vec3 K
  rotation : Mat3 K
  scale : Vec3 K
  /-- Has any step been gathered? -/
  moved : Bool

namespace Placement

def start : Placement K := ⟨Vec3.zero, Mat3.identity, Vec3.one, false⟩

/-- Gathers one step. -/
def add (p : Placement K) : TransformStep K → Placement K
  | .translate t => { p with shift := p.shift + t, moved := true }
  | .rotate degrees =>
    { p with
      rotation := p.rotation * Mat3.rotationX (Scalar.radians degrees.x)
        * Mat3.rotationY (Scalar.radians degrees.y) * Mat3.rotationZ (Scalar.radians degrees.z)
      moved := true }
  | .scale s => { p with scale := p.scale * s, moved := true }
  | .unsupported _ => p

/-- The matrix that stretches, then turns, then moves. -/
def matrix (p : Placement K) : Affine K :=
  Affine.shift p.shift * Affine.ofLinear p.rotation * Affine.scaling p.scale

end Placement

namespace TransformStep

/-- The matrix of some steps, or `none` if no step is of a known type. -/
def placement? (steps : List (TransformStep K)) : Option (Affine K) :=
  let p := steps.foldl Placement.add .start
  if p.moved then some p.matrix else none

/-- A report of every step of an unknown type, in order. -/
def faults {K : Type} (steps : List (TransformStep K)) : List (Diagnostic K) :=
  steps.filterMap fun
    | .unsupported tag => some (.unsupportedTransform tag)
    | _ => none

end TransformStep

/-- The world matrix below a parent: the parent's own object where there is no placement. -/
def placeIn (parent : Shared (Affine K)) (placement : Option (Affine K)) :
    StateM Arena (Shared (Affine K)) :=
  match placement with
  | some m => Arena.share (parent.value * m)
  | none => return parent

end SceneAssembly
