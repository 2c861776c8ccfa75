/-
  SceneAssembly/Document/Decoding/Element.lean
  ============================================
  **Lights and elements out of JSON.**

  A light reads what all lights have before it looks at its type, so a light of
  an unknown type is refused when one of those members is ill-formed.  An
  element reads six members of its own; all others are gathered into one object,
  from which its kind is read.
-/
import SceneAssembly.Document.Decoding.Shape
import SceneAssembly.Document.Element

namespace SceneAssembly

/-! ## 1. Lights -/

def LightCommon.ofJson (j : Json) : Option (LightCommon Float32) := do
  let f ← Fields.ofJson ["color", "intensity", "enabled", "position", "castShadow",
    "shadowMapSize", "shadowFar"] j
  let d : LightCommon Float32 := .standard
  return {
    color := ← f.optional "color" Decoder.vec3 d.color
    intensity := ← f.optional "intensity" Decoder.single d.intensity
    enabled := ← f.optional "enabled" Decoder.bool d.enabled
    position := ← f.optional "position" Decoder.vec3 d.position
    castShadow := ← f.optional "castShadow" Decoder.bool d.castShadow
    shadowMapSize := ← f.optional "shadowMapSize" Decoder.count d.shadowMapSize
    shadowFar := ← f.optional "shadowFar" Decoder.single d.shadowFar }

def PointSpec.ofJson (j : Json) : Option (PointSpec Float32) := do
  let f ← Fields.ofJson ["distance", "decay"] j
  let d : PointSpec Float32 := .standard
  return {
    distance := ← f.optional "distance" Decoder.single d.distance
    decay := ← f.optional "decay" Decoder.single d.decay }

def SpotSpec.ofJson (j : Json) : Option (SpotSpec Float32) := do
  let f ← Fields.ofJson ["distance", "angle", "penumbra", "decay", "target"] j
  let d : SpotSpec Float32 := .standard
  return {
    distance := ← f.optional "distance" Decoder.single d.distance
    angle := ← f.optional "angle" Decoder.single d.angle
    penumbra := ← f.optional "penumbra" Decoder.single d.penumbra
    decay := ← f.optional "decay" Decoder.single d.decay
    target := ← f.optional "target" Decoder.vec3 d.target }

def DirectionalSpec.ofJson (j : Json) : Option (DirectionalSpec Float32) := do
  let f ← Fields.ofJson ["shadowLeft", "shadowRight", "shadowTop", "shadowBottom"] j
  let d : DirectionalSpec Float32 := .standard
  return {
    left := ← f.optional "shadowLeft" Decoder.single d.left
    right := ← f.optional "shadowRight" Decoder.single d.right
    top := ← f.optional "shadowTop" Decoder.single d.top
    bottom := ← f.optional "shadowBottom" Decoder.single d.bottom }

/-- A light by its `type`. -/
def LightSpec.ofJson (j : Json) : Option (LightSpec Float32) := do
  let name ← j.tag? "type"
  let common ← LightCommon.ofJson j
  match name with
  | "pointlight" | "point" => return ⟨common, .point (← PointSpec.ofJson j)⟩
  | "spotlight" | "spot" => return ⟨common, .spot (← SpotSpec.ofJson j)⟩
  | "directionallight" | "directional" =>
    return ⟨common, .directional (← DirectionalSpec.ofJson j)⟩
  | name => return ⟨common, .unsupported name⟩

/-! ## 2. Kinds of elements -/

def LevelSpec.ofJson (j : Json) : Option (LevelSpec Float32) := do
  let f ← Fields.ofJson ["node", "minDistance"] j
  return {
    target := ← f.required "node" Decoder.text
    minDistance := ← f.optional "minDistance" Decoder.single 0 }

/-- A list under a member that may be missing or null, which is the empty list. -/
def Json.listOrEmpty {α : Type} (j : Json) (name : String) (item : Decoder α) :
    Option (List α) :=
  match j.member? name with
  | none | some .null => some []
  | some value => Decoder.list item value

/-- A kind of element by its `kind`. -/
def ElementKind.ofJson (j : Json) : Option (ElementKind Float32) := do
  match ← j.tag? "kind" with
  | "group" => return .group (← j.listOrEmpty "children" Decoder.text)
  | "primitive" => return .primitive (← j.memberAs "representation" ShapeSpec.ofJson)
  | "light" => return .light (← j.memberAs "light" LightSpec.ofJson)
  | "lod" => return .lod (← j.listOrEmpty "levels" LevelSpec.ofJson)
  | name => return .unsupported name

/-! ## 3. Elements -/

/-- The members an element reads itself. -/
def Element.fieldNames : List String :=
  ["id", "transformations", "materialRef", "textureRef", "castShadow", "receiveShadow"]

/-- The members that describe the kind of an element, as one object; each nests at most `depth`
    deep. -/
def Element.kindMembers (depth : Nat) (members : List (Option String × Json)) : Option Json := do
  let rest := members.filter fun m => !(Element.fieldNames.map some).contains m.1
  return .object (← Json.lastWins (← Json.strictMembers depth rest))

/-- An element whose containers may nest `depth` deep below it. -/
def Element.ofJson (depth : Nat) : Decoder (Element Float32)
  | .object members => do
    let f ← Fields.ofMembers Element.fieldNames members
    let kind ← ElementKind.ofJson (← Element.kindMembers depth members)
    let step (j : Json) := (j.strict (depth - 1)).bind TransformStep.ofJson
    return {
      id := ← f.optional "id" Decoder.text ""
      kind := kind
      transforms := ← f.optional "transformations" (Decoder.list step) []
      material := ← f.optional "materialRef" (Decoder.nullable Decoder.text) none
      texture := ← f.optional "textureRef" (Decoder.nullable Decoder.text) none
      castShadow := ← f.optional "castShadow" (Decoder.nullable Decoder.bool) none
      receiveShadow := ← f.optional "receiveShadow" (Decoder.nullable Decoder.bool) none }
  | _ => none

end SceneAssembly
