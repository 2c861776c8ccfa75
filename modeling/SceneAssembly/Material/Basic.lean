/-
  SceneAssembly/Material/Basic.lean
  =================================
  **Materials.**

  A material is drawn with one of two shaders and holds the textures mapped onto
  its surface.  A material with a tiling puts it on every texture that becomes
  its colour map, on a copy of that texture.  The serial number stays with a
  material through edits and is new in a duplicate.
-/
import SceneAssembly.Texture.Basic

namespace SceneAssembly

variable {K : Type}

/-- Surfaces lit by the lights of the scene. -/
structure Phong (K : Type) where
  color : Vec4 K
  specular : Vec3 K
  emissive : Vec3 K
  emissiveIntensity : K
  shininess : K
  flat : Bool
  map : Option (Shared (Texture K))
  specularMap : Option (Shared (Texture K))
  bumpMap : Option (Shared (Texture K))
  bumpScale : K

/-- Surfaces that show their colour as it is. -/
structure Unlit (K : Type) where
  color : Vec4 K
  map : Option (Shared (Texture K))
  specularMap : Option (Shared (Texture K))

inductive Shader (K : Type) where
  | phong (p : Phong K)
  | unlit (u : Unlit K)

/-- The sides of a surface that are drawn. -/
inductive Side where
  | front
  | back
  | double
deriving DecidableEq, Repr

def Side.name : Side → String
  | front => "Front"
  | back => "Back"
  | double => "Double"

structure Material (K : Type) where
  serial : Nat
  name : Option String
  shader : Shader K
  side : Side
  wireframe : Bool
  transparent : Bool
  depthWrite : Bool
  depthTest : Bool
  /-- The tiling of the colour map, if the material sets one. -/
  mapRepeat : Option (Vec2 K)

/-! ## 1. Making materials -/

def Phong.ofColor [Scalar K] (color : Vec4 K) : Phong K where
  color := color
  specular := Vec3.splat 0.067
  emissive := Vec3.zero
  emissiveIntensity := 1
  shininess := 30
  flat := false
  map := none
  specularMap := none
  bumpMap := none
  bumpScale := 1

/-- A white surface. -/
def Phong.standard [Scalar K] : Phong K := .ofColor Vec4.one

def Unlit.ofColor (color : Vec4 K) : Unlit K := ⟨color, none, none⟩

namespace Material

/-- A material of a shader, with the usual settings. -/
def ofShader (shader : Shader K) : StateM Arena (Material K) := do
  return { serial := ← Arena.fresh, name := none, shader, side := .front, wireframe := false,
           transparent := false, depthWrite := true, depthTest := true, mapRepeat := none }

def ofPhongColor [Scalar K] (color : Vec4 K) : StateM Arena (Material K) :=
  ofShader (.phong (.ofColor color))

def ofUnlitColor (color : Vec4 K) : StateM Arena (Material K) := ofShader (.unlit (.ofColor color))

/-- An equal material with a serial number of its own. -/
def duplicate (m : Material K) : StateM Arena (Material K) := do
  return { m with serial := ← Arena.fresh }

/-! ## 2. Reading and changing materials -/

def shaderName (m : Material K) : String :=
  match m.shader with
  | .phong _ => "mesh_phong"
  | .unlit _ => "mesh_unlit"

def isUnlit (m : Material K) : Bool :=
  match m.shader with
  | .phong _ => false
  | .unlit _ => true

def phong? (m : Material K) : Option (Phong K) :=
  match m.shader with
  | .phong p => some p
  | .unlit _ => none

def color (m : Material K) : Vec4 K :=
  match m.shader with
  | .phong p => p.color
  | .unlit u => u.color

def setColor (m : Material K) (color : Vec4 K) : Material K :=
  { m with shader := match m.shader with
    | .phong p => .phong { p with color := color }
    | .unlit u => .unlit { u with color := color } }

def map (m : Material K) : Option (Shared (Texture K)) :=
  match m.shader with
  | .phong p => p.map
  | .unlit u => u.map

def setMap (m : Material K) (map : Option (Shared (Texture K))) : Material K :=
  { m with shader := match m.shader with
    | .phong p => .phong { p with map := map }
    | .unlit u => .unlit { u with map := map } }

def specularMap (m : Material K) : Option (Shared (Texture K)) :=
  match m.shader with
  | .phong p => p.specularMap
  | .unlit u => u.specularMap

def bumpMap (m : Material K) : Option (Shared (Texture K)) :=
  match m.shader with
  | .phong p => p.bumpMap
  | .unlit _ => none

/-- The texture as the material maps it: the object itself, or a tiled copy of it. -/
def mapped (m : Material K) (t : Shared (Texture K)) : StateM Arena (Shared (Texture K)) :=
  match m.mapRepeat with
  | some tiling => t.value.tiled tiling
  | none => return t

/-- The material with a texture as its colour map. -/
def attachMap (m : Material K) (t : Shared (Texture K)) : StateM Arena (Material K) := do
  return m.setMap (some (← m.mapped t))

/-! ## 3. Features -/

/-- What a shader has to support, each feature the bit of its place in the list. -/
def featureList (m : Material K) : List Bool :=
  [m.map.isSome, m.specularMap.isSome, m.bumpMap.isSome,
   match m.shader with
   | .phong p => p.flat
   | .unlit _ => false,
   m.wireframe, m.side == .double]

/-- The features as the bits of one number. -/
def features (m : Material K) : Nat :=
  m.featureList.foldr (fun on rest => (if on then 1 else 0) + 2 * rest) 0

end Material

end SceneAssembly
