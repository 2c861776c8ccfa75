/-
  SceneAssembly/Diagnostic.lean
  =============================
  **What can be wrong with a scene, and how it is worded.**

  A diagnostic names a cause and the things involved.  Almost none of them
  stops an assembly: the reference, step or element concerned is left out and
  the diagnostic goes to the report.
-/
import SceneAssembly.Decimal
import SceneAssembly.Vector

namespace SceneAssembly

/-- Why a shape collapses. -/
inductive Degeneracy (K : Type) where
  | rectangle (corner1 corner2 : Vec2 K)
  | box (corner1 corner2 : Vec3 K)
  | triangle (corner1 corner2 corner3 : Vec3 K)
  | track (samples : Nat)

/-- Why control points span no surface. -/
inductive SurfaceFault where
  | degrees (u v : Nat)
  | controlPoints (u v expected given : Nat)
  | weights (given expected : Nat)
  | weightSign
  | notFinite
deriving DecidableEq, Repr

inductive Diagnostic (K : Type) where
  | unsupportedKind (element kind : String)
  | unsupportedShape (subtype : String)
  | unsupportedTransform (tag : String)
  | unsupportedLight (name : String)
  | unsupportedCamera (camera kind : String)
  | missingMaterial (id : String)
  | missingTexture (id : String)
  | missingElement (id : String)
  | missingRoot (id : String)
  | cycle (id : String)
  | tooDeep (id : String) (limit : Nat)
  | degenerate (cause : Degeneracy K)
  | invalidSurface (cause : SurfaceFault)
  | resource (path reason : String)
  | io
  | imageDecoding
  | malformedJson

/-- The name of a cause, without the things involved. -/
def Diagnostic.cause {K : Type} : Diagnostic K → String
  | unsupportedKind .. => "UnsupportedNodeKind"
  | unsupportedShape .. => "UnsupportedPrimitive"
  | unsupportedTransform .. => "UnsupportedTransform"
  | unsupportedLight .. => "UnsupportedLight"
  | unsupportedCamera .. => "UnsupportedCamera"
  | missingMaterial .. => "MissingMaterial"
  | missingTexture .. => "MissingTexture"
  | missingElement .. => "MissingNode"
  | missingRoot .. => "MissingRoot"
  | cycle .. => "CycleDetected"
  | tooDeep .. => "DepthExceeded"
  | degenerate .. => "DegenerateGeometry"
  | invalidSurface .. => "InvalidNurbs"
  | resource .. => "ResourceLoad"
  | io => "IoError"
  | imageDecoding => "ImageDecodeError"
  | malformedJson => "JsonError"

/-! ## Wording -/

def Vec2.text (v : Vec2 Float32) : String := s!"[{decimalText v.x}, {decimalText v.y}]"

def Vec3.text (v : Vec3 Float32) : String :=
  s!"[{decimalText v.x}, {decimalText v.y}, {decimalText v.z}]"

def Degeneracy.text : Degeneracy Float32 → String
  | rectangle a b => s!"rectangle with corners {a.text} and {b.text} has no area"
  | box a b => s!"box with corners {a.text} and {b.text} has no volume"
  | triangle a b c => s!"triangle {a.text}, {b.text}, {c.text} is collinear"
  | track n => s!"track needs at least 2 samples, got {n}"

def SurfaceFault.text : SurfaceFault → String
  | degrees u v => s!"degrees must be at least 1, got {u}x{v}"
  | controlPoints u v expected given =>
    s!"degree {u}x{v} needs {expected} control points, got {given}"
  | weights given expected => s!"{given} weights for {expected} control points"
  | weightSign => "weights must be positive"
  | notFinite => "surface evaluates to non-finite points"

/-- The wording of a diagnostic. -/
def Diagnostic.message : Diagnostic Float32 → String
  | unsupportedKind element kind => s!"Unsupported node kind '{kind}' on node '{element}'"
  | unsupportedShape subtype => s!"Unsupported primitive subtype '{subtype}'"
  | unsupportedTransform tag => s!"Unsupported transformation type '{tag}'"
  | unsupportedLight name => s!"Unsupported light type '{name}'"
  | unsupportedCamera camera kind => s!"Unsupported camera type '{kind}' on camera '{camera}'"
  | missingMaterial id => s!"Material '{id}' not found"
  | missingTexture id => s!"Texture '{id}' not found"
  | missingElement id => s!"Node '{id}' not found"
  | missingRoot id => s!"Root node '{id}' not found"
  | cycle id => s!"Cycle detected at node '{id}'"
  | tooDeep id limit => s!"Node '{id}' exceeds the maximum depth of {limit}"
  | degenerate cause => s!"Degenerate geometry: {cause.text}"
  | invalidSurface cause => s!"Invalid NURBS surface: {cause.text}"
  | resource path reason => s!"Failed to load resource '{path}': {reason}"
  | io => "IO error"
  | imageDecoding => "Image decode error"
  | malformedJson => "JSON parse error"

end SceneAssembly
