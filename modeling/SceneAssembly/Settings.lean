/-
  SceneAssembly/Settings.lean
  ===========================
  **Settings of an assembly.**

  What shapes a scene without being part of its document: where assets lie, the
  colour of surfaces without a material, how deep elements may nest, and how
  many segments a shape gets that asks for none.
-/
import SceneAssembly.Json.Decoder

namespace SceneAssembly

structure Settings (K : Type) where
  assetDir : String
  /-- The colour of the wireframe that stands in for a missing material. -/
  fallbackColor : Vec3 K
  maxDepth : Nat
  cylinderSlices : Nat
  sphereSlices : Nat
  sphereLayers : Nat
  samplesPerSpan : Nat

def Settings.standard {K : Type} [Scalar K] : Settings K where
  assetDir := "."
  fallbackColor := ⟨1, 0, 1⟩
  maxDepth := 256
  cylinderSlices := 32
  sphereSlices := 32
  sphereLayers := 16
  samplesPerSpan := 16

/-- A pair of counts, as an array. -/
def countPair : Decoder (Nat × Nat)
  | .array [a, b] => return (← Decoder.count a, ← Decoder.count b)
  | _ => none

def Settings.ofJson (j : Json) : Option (Settings Float32) := do
  let f ← Fields.ofJson ["asset_dir", "default_material_color", "max_depth", "cylinder_segments",
    "sphere_segments", "track_samples_per_span"] j
  let d : Settings Float32 := .standard
  let (slices, layers) ← f.optional "sphere_segments" countPair (d.sphereSlices, d.sphereLayers)
  return {
    assetDir := ← f.optional "asset_dir" Decoder.text d.assetDir
    fallbackColor := ← f.optional "default_material_color" Decoder.vec3 d.fallbackColor
    maxDepth := ← f.optional "max_depth" (Decoder.below UInt64.size) d.maxDepth
    cylinderSlices := ← f.optional "cylinder_segments" Decoder.count d.cylinderSlices
    sphereSlices := slices
    sphereLayers := layers
    samplesPerSpan := ← f.optional "track_samples_per_span" Decoder.count d.samplesPerSpan }

end SceneAssembly
