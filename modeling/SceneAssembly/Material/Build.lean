/-
  SceneAssembly/Material/Build.lean
  =================================
  **Materials from their descriptions.**

  The textures a description names are looked up in the order colour map,
  specular map, bump map, the last one only for a lit surface; a name without a
  texture is reported and leaves that map out.  A positive texture length on
  either axis gives the colour map a tiling, on a copy of its own.
-/
import SceneAssembly.Diagnostic
import SceneAssembly.Material.Basic
import SceneAssembly.Texture.Registry

namespace SceneAssembly

variable {K : Type} [Scalar K]

namespace MaterialSpec

/-- Repeats of the texture per world unit; a missing or non-positive length repeats once. -/
def repeatsFor (length : Option K) : K :=
  match length with
  | some l => if 0 < l then 1 / l else 1
  | none => 1

/-- Is there a length, and is it positive? -/
def isTiled (length : Option K) : Bool :=
  match length with
  | some l => decide (0 < l)
  | none => false

/-- The tiling that the texture lengths ask for. -/
def tiling (m : MaterialSpec K) : Option (Vec2 K) :=
  if isTiled m.texLengthS || isTiled m.texLengthT then
    some ⟨repeatsFor m.texLengthS, repeatsFor m.texLengthT⟩
  else none

/-- The texture of an optional name, tiled on request, and what there is to report. -/
def lookup (id : Option String) (tiling : Option (Vec2 K)) :
    Texturing K (Option (Shared (Texture K)) × List (Diagnostic K)) := do
  match id with
  | none => return (none, [])
  | some id =>
    let t ← match tiling with
      | some tiling => TextureRegistry.resolveTiled id tiling
      | none => TextureRegistry.resolve id
    return (t, if t.isNone then [.missingTexture id] else [])

/-- The shader of a description, and the names that were not found. -/
def shader (m : MaterialSpec K) : Texturing K (Shader K × List (Diagnostic K)) := do
  let (map, report₁) ← lookup m.texture m.tiling
  let (specularMap, report₂) ← lookup m.specularMap none
  let color := m.color.extend 1
  match m.shading with
  | .unlit => return (.unlit ⟨color, map, specularMap⟩, report₁ ++ report₂)
  | shading =>
    let (bumpMap, report₃) ← lookup m.bumpMap none
    let phong : Phong K := {
      color
      specular := m.specular
      emissive := m.emissive
      emissiveIntensity := 1
      shininess := m.shininess
      flat := shading == .flat
      map
      specularMap
      bumpMap
      bumpScale := m.bumpScale }
    return (.phong phong, report₁ ++ report₂ ++ report₃)

/-- The material of a description, and the names that were not found. -/
def build (m : MaterialSpec K) : Texturing K (Material K × List (Diagnostic K)) := do
  let (shader, report) ← m.shader
  let plain ← Texturing.onArena (Material.ofShader shader)
  let material := { plain with
    name := if m.id = "" then none else some m.id
    side := if m.twoSided then .double else .front
    wireframe := m.wireframe
    mapRepeat := m.tiling }
  return (material, report)

end MaterialSpec

namespace Material

/-- The wireframe of a surface without a material. -/
def fallback (color : Vec3 K) : StateM Arena (Material K) := do
  return { ← ofUnlitColor (color.extend 1) with wireframe := true, name := some "fallback" }

/-- The material of a face of a sky box. -/
def skyboxFace (map : Option (Shared (Texture K))) (emissive : Vec3 K) (intensity : K) :
    StateM Arena (Material K) := do
  let phong := { Phong.standard with emissive := emissive, emissiveIntensity := intensity, map := map }
  return { ← ofShader (.phong phong) with name := some "skybox" }

end Material

end SceneAssembly
