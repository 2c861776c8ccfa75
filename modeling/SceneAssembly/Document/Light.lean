/-
  SceneAssembly/Document/Light.lean
  =================================
  **Descriptions of lights.**

  Every light has a colour, an intensity, a position and a shadow map; the rest
  depends on its type.  A type that is unknown is kept by its name.
-/
import SceneAssembly.Vector

namespace SceneAssembly

variable {K : Type}

/-- What every type of light has. -/
structure LightCommon (K : Type) where
  color : Vec3 K
  intensity : K
  enabled : Bool
  position : Vec3 K
  castShadow : Bool
  shadowMapSize : Nat
  shadowFar : K

structure PointSpec (K : Type) where
  distance : K
  decay : K

/-- A cone of light; `angle` is in degrees. -/
structure SpotSpec (K : Type) where
  distance : K
  angle : K
  penumbra : K
  decay : K
  target : Vec3 K

/-- Parallel light, by the extent of its shadow. -/
structure DirectionalSpec (K : Type) where
  left : K
  right : K
  top : K
  bottom : K

inductive LightType (K : Type) where
  | point (spec : PointSpec K)
  | spot (spec : SpotSpec K)
  | directional (spec : DirectionalSpec K)
  | unsupported (name : String)

structure LightSpec (K : Type) where
  common : LightCommon K
  type : LightType K

variable [Scalar K]

def LightCommon.standard : LightCommon K where
  color := Vec3.one
  intensity := 1
  enabled := true
  position := Vec3.zero
  castShadow := false
  shadowMapSize := 512
  shadowFar := 500

def PointSpec.standard : PointSpec K := ⟨1000, 2⟩

def SpotSpec.standard : SpotSpec K := ⟨1000, 60, 1, 2, Vec3.zero⟩

def DirectionalSpec.standard : DirectionalSpec K := ⟨-5, 5, 5, -5⟩

/-- A point light of the usual reach. -/
def LightSpec.ofPoint (color : Vec3 K) (intensity : K) : LightSpec K :=
  ⟨{ LightCommon.standard with color := color, intensity := intensity }, .point .standard⟩

end SceneAssembly
