/-
  SceneAssembly/Document/Material.lean
  ====================================
  **Descriptions of materials and textures.**

  A material names the textures it uses by their identifiers; a texture names
  the image files it is loaded from, relative to a directory of assets.
-/
import SceneAssembly.Vector

namespace SceneAssembly

/-- How a material reacts to light. -/
inductive Shading where
  | flat
  | smooth
  | unlit
deriving DecidableEq, Repr

structure MaterialSpec (K : Type) where
  id : String
  color : Vec3 K
  specular : Vec3 K
  emissive : Vec3 K
  shininess : K
  shading : Shading
  wireframe : Bool
  twoSided : Bool
  texture : Option String
  specularMap : Option String
  bumpMap : Option String
  bumpScale : K
  /-- World units that one repeat of the texture covers along S. -/
  texLengthS : Option K
  texLengthT : Option K

def MaterialSpec.standard {K : Type} [Scalar K] : MaterialSpec K where
  id := ""
  color := Vec3.one
  specular := Vec3.splat 0.067
  emissive := Vec3.zero
  shininess := 30
  shading := .smooth
  wireframe := false
  twoSided := false
  texture := none
  specularMap := none
  bumpMap := none
  bumpScale := 1
  texLengthS := none
  texLengthT := none

/-- What a texture shows beyond its unit square. -/
inductive Wrap where
  | again
  | clamp
  | mirror
deriving DecidableEq, Repr

structure TextureSpec where
  id : String
  path : String
  wrapS : Wrap
  wrapT : Wrap
  /-- Images that override mip levels, in level order. -/
  mipmaps : List String
  video : Bool

def TextureSpec.standard : TextureSpec where
  id := ""
  path := ""
  wrapS := .again
  wrapT := .again
  mipmaps := []
  video := false

end SceneAssembly
