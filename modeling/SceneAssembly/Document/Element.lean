/-
  SceneAssembly/Document/Element.lean
  ===================================
  **Elements, the nodes of a document.**

  An element names the elements below it; a group has children, and an element
  with levels of detail has one alternative per distance.  References are by
  identifier, so a document may repeat an element, leave one out, or refer in a
  circle.
-/
import SceneAssembly.Document.Light
import SceneAssembly.Document.Shape
import SceneAssembly.Document.Transform

namespace SceneAssembly

variable {K : Type}

/-- An alternative shown from a distance on. -/
structure LevelSpec (K : Type) where
  target : String
  minDistance : K

inductive ElementKind (K : Type) where
  | group (children : List String)
  | primitive (shape : ShapeSpec K)
  | light (light : LightSpec K)
  | lod (levels : List (LevelSpec K))
  | unsupported (name : String)

structure Element (K : Type) where
  id : String
  kind : ElementKind K
  transforms : List (TransformStep K)
  /-- The material from here down, if it is not the one inherited. -/
  material : Option String
  /-- The texture from here down, if it is not the one inherited. -/
  texture : Option String
  castShadow : Option Bool
  receiveShadow : Option Bool

/-- The name of a kind of element. -/
def ElementKind.name : ElementKind K → String
  | group _ => "group"
  | primitive _ => "primitive"
  | light _ => "light"
  | lod _ => "lod"
  | unsupported name => name

/-- The elements that a kind refers to, in order. -/
def ElementKind.references : ElementKind K → List String
  | group children => children
  | lod levels => levels.map LevelSpec.target
  | _ => []

/-- An element of a kind, with nothing else said about it. -/
def Element.ofKind (id : String) (kind : ElementKind K) : Element K :=
  { id, kind, transforms := [], material := none, texture := none, castShadow := none,
    receiveShadow := none }

/-- Does the element ask to cast shadows?  Silence is no. -/
def Element.casts (e : Element K) : Bool := e.castShadow.getD false

/-- Does the element ask to receive shadows?  Silence is no. -/
def Element.receives (e : Element K) : Bool := e.receiveShadow.getD false

end SceneAssembly
