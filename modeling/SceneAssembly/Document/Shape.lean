/-
  SceneAssembly/Document/Shape.lean
  =================================
  **Descriptions of primitive shapes.**

  One structure of parameters per kind of shape, as a document gives them, and
  `ShapeSpec` for the choice between them.  Counts of segments may be zero;
  what a zero stands for is decided where the shape is built.
-/
import SceneAssembly.Vector

namespace SceneAssembly

variable {K : Type}

/-- An axis-parallel rectangle between two opposite corners. -/
structure RectangleSpec (K : Type) where
  corner1 : Vec2 K
  corner2 : Vec2 K
  partsX : Nat
  partsY : Nat

/-- An axis-parallel box between two opposite corners. -/
structure BoxSpec (K : Type) where
  corner1 : Vec3 K
  corner2 : Vec3 K
  partsX : Nat
  partsY : Nat
  partsZ : Nat

/-- A cylinder or truncated cone along the Y axis; the angles are in radians. -/
structure CylinderSpec (K : Type) where
  base : K
  top : K
  height : K
  slices : Nat
  layers : Nat
  capped : Bool
  thetaStart : K
  thetaLength : K

/-- A sphere around the origin, or a section of one; the angles are in radians. -/
structure SphereSpec (K : Type) where
  radius : K
  slices : Nat
  layers : Nat
  phiStart : K
  phiLength : K
  thetaStart : K
  thetaLength : K

structure TriangleSpec (K : Type) where
  corner1 : Vec3 K
  corner2 : Vec3 K
  corner3 : Vec3 K

/-- A fan around the origin, coloured from its centre to its rim. -/
structure PolygonSpec (K : Type) where
  radius : K
  layers : Nat
  slices : Nat
  centerColor : Vec3 K
  rimColor : Vec3 K

/-- A cube seen from within, with up to one texture per face: front, back, up, down, left,
    right. -/
structure SkyboxSpec (K : Type) where
  size : Vec3 K
  center : Vec3 K
  emissive : Vec3 K
  intensity : K
  faces : Vector (Option String) 6

/-- A rational tensor-product surface over a grid of control points, listed U-major.  An empty
    list of weights stands for weights of one. -/
structure SurfaceSpec (K : Type) where
  degreeU : Nat
  degreeV : Nat
  partsU : Nat
  partsV : Nat
  controlPoints : List (Vec3 K)
  weights : List K

/-- A ribbon along a curve, given by its samples or by control points to be sampled. -/
structure TrackSpec (K : Type) where
  points : List (Vec3 K)
  controlPoints : List (Vec3 K)
  samplesPerSpan : Nat
  width : K
  height : K
  depth : K
  closed : Bool

/-- What a primitive element shows. -/
inductive ShapeSpec (K : Type) where
  | rectangle (spec : RectangleSpec K)
  | box (spec : BoxSpec K)
  | cylinder (spec : CylinderSpec K)
  | sphere (spec : SphereSpec K)
  | triangle (spec : TriangleSpec K)
  | polygon (spec : PolygonSpec K)
  | skybox (spec : SkyboxSpec K)
  | surface (spec : SurfaceSpec K)
  | track (spec : TrackSpec K)
  /-- A model kept outside the document, by its path. -/
  | model (path : String)
  | unsupported (subtype : String)

/-- The subtype name of a shape. -/
def ShapeSpec.subtype : ShapeSpec K → String
  | rectangle _ => "rectangle"
  | box _ => "box"
  | cylinder _ => "cylinder"
  | sphere _ => "sphere"
  | triangle _ => "triangle"
  | polygon _ => "polygon"
  | skybox _ => "skybox"
  | surface _ => "nurbs"
  | track _ => "track"
  | model _ => "model3d"
  | unsupported subtype => subtype

/-! ## What a document may leave out -/

variable [Scalar K]

def CylinderSpec.standard : CylinderSpec K where
  base := 1
  top := 1
  height := 1
  slices := 32
  layers := 1
  capped := true
  thetaStart := 0
  thetaLength := Scalar.tau

def SphereSpec.standard : SphereSpec K where
  radius := 1
  slices := 32
  layers := 16
  phiStart := 0
  phiLength := Scalar.tau
  thetaStart := 0
  thetaLength := Scalar.pi

def SkyboxSpec.standard : SkyboxSpec K where
  size := Vec3.one
  center := Vec3.zero
  emissive := Vec3.zero
  intensity := 1
  faces := Vector.replicate 6 none

def TrackSpec.standard : TrackSpec K where
  points := []
  controlPoints := []
  samplesPerSpan := 0
  width := 7
  height := 0.01
  depth := 7
  closed := true

end SceneAssembly
