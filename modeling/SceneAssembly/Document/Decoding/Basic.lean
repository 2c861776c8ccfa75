/-
  SceneAssembly/Document/Decoding/Basic.lean
  ==========================================
  **Documents out of JSON.**

  A document is a record of tables and settings.  Containers nest at most 127
  deep where a value is kept; below an element, the third level, that leaves
  124.  Identifiers that are left empty are taken from the tables' keys.
-/
import SceneAssembly.Document.Basic
import SceneAssembly.Document.Decoding.Element

namespace SceneAssembly

/-! ## 1. Materials and textures -/

def Shading.named : String → Option Shading
  | "flat" => some .flat
  | "smooth" => some .smooth
  | "none" | "unlit" => some .unlit
  | _ => none

def Wrap.named : String → Option Wrap
  | "repeat" => some .again
  | "clamp" | "clamptoedge" => some .clamp
  | "mirror" | "mirroredrepeat" => some .mirror
  | _ => none

def MaterialSpec.ofJson (j : Json) : Option (MaterialSpec Float32) := do
  let f ← Fields.ofJson ["id", "color", "specular", "emissive", "shininess", "shading",
    "wireframe", "twoSided", "textureRef", "specularRef", "bumpRef", "bumpScale", "texLengthS",
    "texLengthT"] j
  let d : MaterialSpec Float32 := .standard
  return {
    id := ← f.optional "id" Decoder.text d.id
    color := ← f.optional "color" Decoder.vec3 d.color
    specular := ← f.optional "specular" Decoder.vec3 d.specular
    emissive := ← f.optional "emissive" Decoder.vec3 d.emissive
    shininess := ← f.optional "shininess" Decoder.single d.shininess
    shading := ← f.optional "shading" (Decoder.choice Shading.named) d.shading
    wireframe := ← f.optional "wireframe" Decoder.bool d.wireframe
    twoSided := ← f.optional "twoSided" Decoder.bool d.twoSided
    texture := ← f.optional "textureRef" (Decoder.nullable Decoder.text) d.texture
    specularMap := ← f.optional "specularRef" (Decoder.nullable Decoder.text) d.specularMap
    bumpMap := ← f.optional "bumpRef" (Decoder.nullable Decoder.text) d.bumpMap
    bumpScale := ← f.optional "bumpScale" Decoder.single d.bumpScale
    texLengthS := ← f.optional "texLengthS" (Decoder.nullable Decoder.single) d.texLengthS
    texLengthT := ← f.optional "texLengthT" (Decoder.nullable Decoder.single) d.texLengthT }

def TextureSpec.ofJson (j : Json) : Option TextureSpec := do
  let f ← Fields.ofJson ["id", "filepath", "wrapS", "wrapT", "mipmaps", "isVideo"] j
  let d : TextureSpec := .standard
  return {
    id := ← f.optional "id" Decoder.text d.id
    path := ← f.optional "filepath" Decoder.text d.path
    wrapS := ← f.optional "wrapS" (Decoder.choice Wrap.named) d.wrapS
    wrapT := ← f.optional "wrapT" (Decoder.choice Wrap.named) d.wrapT
    mipmaps := ← f.optional "mipmaps" (Decoder.list Decoder.text) d.mipmaps
    video := ← f.optional "isVideo" Decoder.bool d.video }

/-! ## 2. Cameras and settings of the scene -/

def Camera.ofJson (j : Json) : Option (Camera Float32) := do
  let f ← Fields.ofJson ["id", "type", "location", "target", "near", "far", "angle", "left",
    "right", "top", "bottom"] j
  let extent (name : String) := f.optional name (Decoder.nullable Decoder.single) none
  return {
    id := ← f.optional "id" Decoder.text ""
    type := ← f.required "type" Decoder.text
    location := ← f.optional "location" Decoder.vec3 Vec3.zero
    target := ← f.optional "target" Decoder.vec3 Vec3.zero
    near := ← f.optional "near" Decoder.single 0
    far := ← f.optional "far" Decoder.single 0
    angle := ← extent "angle"
    left := ← extent "left"
    right := ← extent "right"
    top := ← extent "top"
    bottom := ← extent "bottom" }

def SceneOptions.ofJson (j : Json) : Option (SceneOptions Float32) := do
  let f ← Fields.ofJson ["background", "ambient"] j
  let d : SceneOptions Float32 := .standard
  return {
    background := ← f.optional "background" Decoder.vec3 d.background
    ambient := ← f.optional "ambient" Decoder.vec3 d.ambient }

def Fog.ofJson (j : Json) : Option (Fog Float32) := do
  let f ← Fields.ofJson ["color", "near", "far"] j
  return {
    color := ← f.required "color" Decoder.vec3
    near := ← f.required "near" Decoder.single
    far := ← f.required "far" Decoder.single }

/-! ## 3. Documents -/

/-- How deep containers may nest below an element of a document. -/
def Element.depthInDocument : Nat := 124

/-- A document as it is written, without identifiers filled in. -/
def Document.ofFields (j : Json) : Option (Document Float32) := do
  let f ← Fields.ofJson ["rootId", "nodes", "materials", "textures", "cameras",
    "activeCameraId", "options", "fog"] j
  return {
    rootId := ← f.required "rootId" Decoder.text
    elements := ← f.optional "nodes" (Decoder.table (Element.ofJson Element.depthInDocument)) ∅
    materials := ← f.optional "materials" (Decoder.table MaterialSpec.ofJson) ∅
    textures := ← f.optional "textures" (Decoder.table TextureSpec.ofJson) ∅
    cameras := ← f.optional "cameras" (Decoder.table Camera.ofJson) ∅
    activeCamera := ← f.optional "activeCameraId" (Decoder.nullable Decoder.text) none
    options := ← f.optional "options" SceneOptions.ofJson .standard
    fog := ← f.optional "fog" (Decoder.nullable Fog.ofJson) none }

/-- A document with every empty identifier taken from its key. -/
def Document.ofJson (j : Json) : Option (Document Float32) :=
  (Document.ofFields j).map Document.withIds

/-- Reads the text of a document. -/
def Document.ofString (text : String) : Option (Document Float32) :=
  (Json.ofString? text).bind Document.ofJson

end SceneAssembly
