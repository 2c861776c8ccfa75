/-
  SceneAssembly/Document/Decoding/Shape.lean
  ==========================================
  **Transformation steps and shapes out of JSON.**

  A step or shape is an object with a tag that selects what else is read.  A
  tag that is not known selects nothing further: the value is accepted whatever
  its other members are, and keeps the tag.
-/
import SceneAssembly.Document.Shape
import SceneAssembly.Document.Transform
import SceneAssembly.Json.Decoder

namespace SceneAssembly

/-! ## 1. Transformation steps -/

/-- A member of an object that has to be there. -/
def Json.memberAs {α : Type} (j : Json) (name : String) (value : Decoder α) : Option α :=
  (j.member? name).bind value

/-- A step by its `type`; the empty tag is refused. -/
def TransformStep.ofJson (j : Json) : Option (TransformStep Float32) := do
  match ← j.tag? "type" with
  | "T" | "translate" => return .translate (← j.memberAs "translate" Decoder.vec3)
  | "R" | "rotate" => return .rotate (← j.memberAs "rotation" Decoder.vec3)
  | "S" | "scale" => return .scale (← j.memberAs "scale" Decoder.vec3)
  | "" => none
  | tag => return .unsupported tag

/-! ## 2. Parameters of shapes -/

def RectangleSpec.ofJson (j : Json) : Option (RectangleSpec Float32) := do
  let f ← Fields.ofJson ["xy1", "xy2", "partsX", "partsY"] j
  return {
    corner1 := ← f.required "xy1" Decoder.vec2
    corner2 := ← f.required "xy2" Decoder.vec2
    partsX := ← f.optional "partsX" Decoder.count 1
    partsY := ← f.optional "partsY" Decoder.count 1 }

def BoxSpec.ofJson (j : Json) : Option (BoxSpec Float32) := do
  let f ← Fields.ofJson ["xyz1", "xyz2", "partsX", "partsY", "partsZ"] j
  return {
    corner1 := ← f.required "xyz1" Decoder.vec3
    corner2 := ← f.required "xyz2" Decoder.vec3
    partsX := ← f.optional "partsX" Decoder.count 1
    partsY := ← f.optional "partsY" Decoder.count 1
    partsZ := ← f.optional "partsZ" Decoder.count 1 }

def CylinderSpec.ofJson (j : Json) : Option (CylinderSpec Float32) := do
  let f ← Fields.ofJson ["base", "top", "height", "slices", "stacks", "capsClose", "thetaStart",
    "thetaLength"] j
  let d : CylinderSpec Float32 := .standard
  return {
    base := ← f.optional "base" Decoder.single d.base
    top := ← f.optional "top" Decoder.single d.top
    height := ← f.optional "height" Decoder.single d.height
    slices := ← f.optional "slices" Decoder.count d.slices
    layers := ← f.optional "stacks" Decoder.count d.layers
    capped := ← f.optional "capsClose" Decoder.bool d.capped
    thetaStart := ← f.optional "thetaStart" Decoder.single d.thetaStart
    thetaLength := ← f.optional "thetaLength" Decoder.single d.thetaLength }

def SphereSpec.ofJson (j : Json) : Option (SphereSpec Float32) := do
  let f ← Fields.ofJson ["radius", "slices", "stacks", "phiStart", "phiLength", "thetaStart",
    "thetaLength"] j
  let d : SphereSpec Float32 := .standard
  return {
    radius := ← f.optional "radius" Decoder.single d.radius
    slices := ← f.optional "slices" Decoder.count d.slices
    layers := ← f.optional "stacks" Decoder.count d.layers
    phiStart := ← f.optional "phiStart" Decoder.single d.phiStart
    phiLength := ← f.optional "phiLength" Decoder.single d.phiLength
    thetaStart := ← f.optional "thetaStart" Decoder.single d.thetaStart
    thetaLength := ← f.optional "thetaLength" Decoder.single d.thetaLength }

def TriangleSpec.ofJson (j : Json) : Option (TriangleSpec Float32) := do
  let f ← Fields.ofJson ["xyz1", "xyz2", "xyz3"] j
  return {
    corner1 := ← f.required "xyz1" Decoder.vec3
    corner2 := ← f.required "xyz2" Decoder.vec3
    corner3 := ← f.required "xyz3" Decoder.vec3 }

def PolygonSpec.ofJson (j : Json) : Option (PolygonSpec Float32) := do
  let f ← Fields.ofJson ["radius", "stacks", "slices", "colorC", "colorP"] j
  return {
    radius := ← f.optional "radius" Decoder.single 1
    layers := ← f.optional "stacks" Decoder.count 1
    slices := ← f.optional "slices" Decoder.count 1
    centerColor := ← f.required "colorC" Decoder.vec3
    rimColor := ← f.required "colorP" Decoder.vec3 }

/-- Exactly six texture names, each of which may be null. -/
def skyboxFaces (j : Json) : Option (Vector (Option String) 6) := do
  let faces ← Decoder.list (Decoder.nullable Decoder.text) j
  if h : faces.length = 6 then return ⟨faces.toArray, by simpa using h⟩ else none

def SkyboxSpec.ofJson (j : Json) : Option (SkyboxSpec Float32) := do
  let f ← Fields.ofJson ["size", "center", "emissive", "intensity", "faces"] j
  let d : SkyboxSpec Float32 := .standard
  return {
    size := ← f.optional "size" Decoder.vec3 d.size
    center := ← f.optional "center" Decoder.vec3 d.center
    emissive := ← f.optional "emissive" Decoder.vec3 d.emissive
    intensity := ← f.optional "intensity" Decoder.single d.intensity
    faces := ← f.optional "faces" skyboxFaces d.faces }

def SurfaceSpec.ofJson (j : Json) : Option (SurfaceSpec Float32) := do
  let f ← Fields.ofJson ["degreeU", "degreeV", "partsU", "partsV", "controlPoints", "weights"] j
  return {
    degreeU := ← f.required "degreeU" Decoder.count
    degreeV := ← f.required "degreeV" Decoder.count
    partsU := ← f.optional "partsU" Decoder.count 1
    partsV := ← f.optional "partsV" Decoder.count 1
    controlPoints := ← f.required "controlPoints" (Decoder.list Decoder.vec3)
    weights := ← f.optional "weights" (Decoder.list Decoder.single) [] }

def TrackSpec.ofJson (j : Json) : Option (TrackSpec Float32) := do
  let f ← Fields.ofJson ["points", "controlPoints", "samplesPerSpan", "width", "height", "depth",
    "closed"] j
  let d : TrackSpec Float32 := .standard
  return {
    points := ← f.optional "points" (Decoder.list Decoder.vec3) d.points
    controlPoints := ← f.optional "controlPoints" (Decoder.list Decoder.vec3) d.controlPoints
    samplesPerSpan := ← f.optional "samplesPerSpan" Decoder.count d.samplesPerSpan
    width := ← f.optional "width" Decoder.single d.width
    height := ← f.optional "height" Decoder.single d.height
    depth := ← f.optional "depth" Decoder.single d.depth
    closed := ← f.optional "closed" Decoder.bool d.closed }

/-! ## 3. The choice of a shape -/

/-- A shape by its `subtype`. -/
def ShapeSpec.ofJson (j : Json) : Option (ShapeSpec Float32) := do
  match ← j.tag? "subtype" with
  | "rectangle" => return .rectangle (← RectangleSpec.ofJson j)
  | "box" => return .box (← BoxSpec.ofJson j)
  | "cylinder" => return .cylinder (← CylinderSpec.ofJson j)
  | "sphere" => return .sphere (← SphereSpec.ofJson j)
  | "triangle" => return .triangle (← TriangleSpec.ofJson j)
  | "polygon" => return .polygon (← PolygonSpec.ofJson j)
  | "skybox" => return .skybox (← SkyboxSpec.ofJson j)
  | "nurbs" => return .surface (← SurfaceSpec.ofJson j)
  | "track" | "tube" => return .track (← TrackSpec.ofJson j)
  | "model3d" | "model" => return .model (← j.memberAs "filepath" Decoder.text)
  | subtype => return .unsupported subtype

end SceneAssembly
