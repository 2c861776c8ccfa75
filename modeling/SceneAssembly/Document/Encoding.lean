/-
  SceneAssembly/Document/Encoding.lean
  ====================================
  **Records as JSON.**

  A record is written with all its fields under the names by which it is read,
  a missing value as null.  Numbers are widened to double precision, which
  changes none of them.
-/
import SceneAssembly.Document.Decoding.Basic
import SceneAssembly.Settings

namespace SceneAssembly

namespace Encoder

def text (s : String) : Json := .text (some s)

/-- A number; what is not finite has no number in JSON and becomes null. -/
def single (x : Float32) : Json := if x.isFinite then .number (.double x.toFloat) else .null

def count (n : Nat) : Json := .number (.natural n)

def nullable {α : Type} (value : α → Json) : Option α → Json
  | some x => value x
  | none => .null

def vec2 (v : Vec2 Float32) : Json := .array (v.toList.map single)

def vec3 (v : Vec3 Float32) : Json := .array (v.toList.map single)

def record (fields : List (String × Json)) : Json := .object (fields.map fun f => (some f.1, f.2))

end Encoder

open Encoder

/-! ## 1. Materials and textures -/

/-- The name of a way of shading. -/
def Shading.name : Shading → String
  | flat => "flat"
  | smooth => "smooth"
  | unlit => "none"

/-- The name of a way of wrapping. -/
def Wrap.name : Wrap → String
  | again => "repeat"
  | clamp => "clamp"
  | mirror => "mirror"

theorem Shading.named_name (s : Shading) : Shading.named s.name = some s := by
  cases s <;> rfl

theorem Wrap.named_name (w : Wrap) : Wrap.named w.name = some w := by
  cases w <;> rfl

def MaterialSpec.toJson (m : MaterialSpec Float32) : Json := record [
  ("id", text m.id), ("color", vec3 m.color), ("specular", vec3 m.specular),
  ("emissive", vec3 m.emissive), ("shininess", single m.shininess),
  ("shading", text m.shading.name), ("wireframe", .bool m.wireframe),
  ("twoSided", .bool m.twoSided), ("textureRef", nullable text m.texture),
  ("specularRef", nullable text m.specularMap), ("bumpRef", nullable text m.bumpMap),
  ("bumpScale", single m.bumpScale), ("texLengthS", nullable single m.texLengthS),
  ("texLengthT", nullable single m.texLengthT)]

def TextureSpec.toJson (t : TextureSpec) : Json := record [
  ("id", text t.id), ("filepath", text t.path), ("wrapS", text t.wrapS.name),
  ("wrapT", text t.wrapT.name), ("mipmaps", .array (t.mipmaps.map text)),
  ("isVideo", .bool t.video)]

/-! ## 2. The scene as a whole -/

def Camera.toJson (c : Camera Float32) : Json := record [
  ("id", text c.id), ("type", text c.type), ("location", vec3 c.location),
  ("target", vec3 c.target), ("near", single c.near), ("far", single c.far),
  ("angle", nullable single c.angle), ("left", nullable single c.left),
  ("right", nullable single c.right), ("top", nullable single c.top),
  ("bottom", nullable single c.bottom)]

def SceneOptions.toJson (o : SceneOptions Float32) : Json :=
  record [("background", vec3 o.background), ("ambient", vec3 o.ambient)]

def Fog.toJson (f : Fog Float32) : Json :=
  record [("color", vec3 f.color), ("near", single f.near), ("far", single f.far)]

def Settings.toJson (s : Settings Float32) : Json := record [
  ("asset_dir", text s.assetDir), ("default_material_color", vec3 s.fallbackColor),
  ("max_depth", count s.maxDepth), ("cylinder_segments", count s.cylinderSlices),
  ("sphere_segments", .array [count s.sphereSlices, count s.sphereLayers]),
  ("track_samples_per_span", count s.samplesPerSpan)]

/-! ## 3. Elements -/

def LevelSpec.toJson (l : LevelSpec Float32) : Json :=
  record [("node", text l.target), ("minDistance", single l.minDistance)]

def LightCommon.toJson (c : LightCommon Float32) : Json := record [
  ("color", vec3 c.color), ("intensity", single c.intensity), ("enabled", .bool c.enabled),
  ("position", vec3 c.position), ("castShadow", .bool c.castShadow),
  ("shadowMapSize", count c.shadowMapSize), ("shadowFar", single c.shadowFar)]

/-- The parameters of a shape; a shape of an unknown subtype has none. -/
def ShapeSpec.parameters : ShapeSpec Float32 → Option Json
  | rectangle r => some (record [
      ("xy1", vec2 r.corner1), ("xy2", vec2 r.corner2), ("partsX", count r.partsX),
      ("partsY", count r.partsY)])
  | box b => some (record [
      ("xyz1", vec3 b.corner1), ("xyz2", vec3 b.corner2), ("partsX", count b.partsX),
      ("partsY", count b.partsY), ("partsZ", count b.partsZ)])
  | cylinder c => some (record [
      ("base", single c.base), ("top", single c.top), ("height", single c.height),
      ("slices", count c.slices), ("stacks", count c.layers), ("capsClose", .bool c.capped),
      ("thetaStart", single c.thetaStart), ("thetaLength", single c.thetaLength)])
  | sphere s => some (record [
      ("radius", single s.radius), ("slices", count s.slices), ("stacks", count s.layers),
      ("phiStart", single s.phiStart), ("phiLength", single s.phiLength),
      ("thetaStart", single s.thetaStart), ("thetaLength", single s.thetaLength)])
  | triangle t => some (record [
      ("xyz1", vec3 t.corner1), ("xyz2", vec3 t.corner2), ("xyz3", vec3 t.corner3)])
  | polygon p => some (record [
      ("radius", single p.radius), ("stacks", count p.layers), ("slices", count p.slices),
      ("colorC", vec3 p.centerColor), ("colorP", vec3 p.rimColor)])
  | skybox s => some (record [
      ("size", vec3 s.size), ("center", vec3 s.center), ("emissive", vec3 s.emissive),
      ("intensity", single s.intensity), ("faces", .array (s.faces.toList.map (nullable text)))])
  | surface s => some (record [
      ("degreeU", count s.degreeU), ("degreeV", count s.degreeV), ("partsU", count s.partsU),
      ("partsV", count s.partsV), ("controlPoints", .array (s.controlPoints.map vec3)),
      ("weights", .array (s.weights.map single))])
  | track t => some (record [
      ("points", .array (t.points.map vec3)), ("controlPoints", .array (t.controlPoints.map vec3)),
      ("samplesPerSpan", count t.samplesPerSpan), ("width", single t.width),
      ("height", single t.height), ("depth", single t.depth), ("closed", .bool t.closed)])
  | model path => some (record [("path", text path)])
  | unsupported _ => none

end SceneAssembly
