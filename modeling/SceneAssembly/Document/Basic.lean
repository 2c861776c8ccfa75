/-
  SceneAssembly/Document/Basic.lean
  =================================
  **Scene documents.**

  A document holds its elements, materials, textures and cameras in tables by
  identifier, says which element is the root, and sets what holds for the scene
  as a whole.
-/
import SceneAssembly.Document.Element
import SceneAssembly.Document.Material
import SceneAssembly.Table

namespace SceneAssembly

variable {K : Type}

structure Camera (K : Type) where
  id : String
  /-- The projection, `perspective` or `orthogonal`. -/
  type : String
  location : Vec3 K
  target : Vec3 K
  near : K
  far : K
  angle : Option K
  left : Option K
  right : Option K
  top : Option K
  bottom : Option K

structure SceneOptions (K : Type) where
  background : Vec3 K
  ambient : Vec3 K

/-- Fog that thickens linearly between two distances. -/
structure Fog (K : Type) where
  color : Vec3 K
  near : K
  far : K

structure Document (K : Type) where
  rootId : String
  elements : Table (Element K)
  materials : Table (MaterialSpec K)
  textures : Table TextureSpec
  cameras : Table (Camera K)
  activeCamera : Option String
  options : SceneOptions K
  fog : Option (Fog K)

def SceneOptions.standard [Scalar K] : SceneOptions K := ⟨Vec3.zero, Vec3.splat 0.2⟩

namespace Document

/-- A document with a root identifier and nothing else. -/
def ofRoot [Scalar K] (rootId : String) : Document K where
  rootId := rootId
  elements := .empty
  materials := .empty
  textures := .empty
  cameras := .empty
  activeCamera := none
  options := .standard
  fog := none

/-- Adds an element under its own identifier. -/
def addElement (d : Document K) (e : Element K) : Document K :=
  { d with elements := d.elements.insert e.id e }

/-- Adds a material under an identifier, which becomes the material's own. -/
def addMaterial (d : Document K) (id : String) (m : MaterialSpec K) : Document K :=
  { d with materials := d.materials.insert id { m with id := id } }

/-- Adds a texture under its own identifier. -/
def addTexture (d : Document K) (t : TextureSpec) : Document K :=
  { d with textures := d.textures.insert t.id t }

/-- An identifier, or the key it is filed under where it is empty. -/
def idOr (key id : String) : String := if id = "" then key else id

/-- The document with every empty identifier replaced by its key. -/
def withIds (d : Document K) : Document K :=
  { d with
    elements := d.elements.mapWithKey fun key e => { e with id := idOr key e.id }
    materials := d.materials.mapWithKey fun key m => { m with id := idOr key m.id }
    textures := d.textures.mapWithKey fun key t => { t with id := idOr key t.id }
    cameras := d.cameras.mapWithKey fun key c => { c with id := idOr key c.id } }

end Document

end SceneAssembly
