/-
  SceneAssembly/Shape/Build.lean
  ==============================
  **The geometry of any shape.**

  Counts of zero are filled in from the settings where a shape takes them from
  there.  A model has no geometry of its own, and neither has a shape of an
  unknown subtype.
-/
import SceneAssembly.Settings
import SceneAssembly.Shape.Box
import SceneAssembly.Shape.Curve
import SceneAssembly.Shape.Cylinder
import SceneAssembly.Shape.Polygon
import SceneAssembly.Shape.Rectangle
import SceneAssembly.Shape.Skybox
import SceneAssembly.Shape.Sphere
import SceneAssembly.Shape.Surface
import SceneAssembly.Shape.Track
import SceneAssembly.Shape.Triangle

namespace SceneAssembly

variable {K : Type} [Scalar K]

/-- A count, or the usual one where it is zero. -/
def orUsual (count usual : Nat) : Nat := if count = 0 then usual else count

/-- The samples of a track: its points, or samples of the curve through its control points. -/
def TrackSpec.samples (t : TrackSpec K) (settings : Settings K) : List (Vec3 K) :=
  if t.controlPoints.isEmpty then t.points
  else Curve.sample t.controlPoints t.closed (orUsual t.samplesPerSpan settings.samplesPerSpan)

namespace ShapeSpec

/-- The geometry of a shape taken as it is written: no count is filled in, and a track runs through
    its points. -/
def buildAsWritten : ShapeSpec K → Except (Diagnostic K) (Geometry K)
  | rectangle r => r.build
  | box b => b.build
  | cylinder c => .ok c.build
  | sphere s => .ok s.build
  | triangle t => t.build
  | polygon p => .ok p.build
  | skybox s => .ok s.build
  | surface s => s.build
  | track t => t.build t.points
  | shape@(model _) | shape@(unsupported _) => .error (.unsupportedShape shape.subtype)

/-- The shape with its zero counts filled in, and a track with its samples as points. -/
def complete (settings : Settings K) : ShapeSpec K → ShapeSpec K
  | cylinder c => cylinder { c with slices := orUsual c.slices settings.cylinderSlices }
  | sphere s => sphere { s with
      slices := orUsual s.slices settings.sphereSlices
      layers := orUsual s.layers settings.sphereLayers }
  | track t => track { t with points := t.samples settings }
  | shape => shape

/-- The geometry of a shape. -/
def build (settings : Settings K) (shape : ShapeSpec K) : Except (Diagnostic K) (Geometry K) :=
  (shape.complete settings).buildAsWritten

end ShapeSpec

end SceneAssembly
