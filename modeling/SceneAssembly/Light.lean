/-
  SceneAssembly/Light.lean
  ========================
  **Lights of a scene.**

  A light keeps the intensity it was made with, so that it can be switched off
  and on again.  A directional light aims at the origin and bounds its shadow.
-/
import SceneAssembly.Diagnostic
import SceneAssembly.Document.Light

namespace SceneAssembly

variable {K : Type}

structure ShadowBounds (K : Type) where
  left : K
  right : K
  top : K
  bottom : K

structure ShadowMap (K : Type) where
  size : Nat
  near : K
  far : K
  bounds : Option (ShadowBounds K)

inductive LightKind (K : Type) where
  | point (range decay : K)
  /-- The angle is in radians. -/
  | spot (range angle penumbra decay : K) (target : Vec3 K)
  | directional (target : Vec3 K)

structure Light (K : Type) where
  kind : LightKind K
  color : Vec3 K
  intensity : K
  /-- The intensity while the light is on. -/
  baseIntensity : K
  enabled : Bool
  position : Vec3 K
  castShadows : Bool
  shadow : ShadowMap K

variable [Scalar K]

def ShadowMap.standard : ShadowMap K := ⟨512, 0.5, 500, none⟩

/-- The angle of a spot light, if the light is one. -/
def Light.spotAngle? {K : Type} (l : Light K) : Option K :=
  match l.kind with
  | .spot _ angle _ _ _ => some angle
  | _ => none

namespace Light

/-- The light switched on or off. -/
def setEnabled (l : Light K) (on : Bool) : Light K :=
  { l with enabled := on, intensity := if on then l.baseIntensity else 0 }

/-- The kind of a light and the bounds of its shadow. -/
def kindOf (spec : LightType K) :
    Except (Diagnostic K) (LightKind K × Option (ShadowBounds K)) :=
  match spec with
  | .point p => .ok (.point p.distance p.decay, none)
  | .spot s =>
    .ok (.spot s.distance (Scalar.radians s.angle) s.penumbra s.decay s.target, none)
  | .directional d => .ok (.directional Vec3.zero, some ⟨d.left, d.right, d.top, d.bottom⟩)
  | .unsupported name => .error (.unsupportedLight name)

/-- The light of a description. -/
def ofSpec (spec : LightSpec K) : Except (Diagnostic K) (Light K) := do
  let (kind, bounds) ← kindOf spec.type
  let c := spec.common
  let shadow : ShadowMap K :=
    { ShadowMap.standard with size := c.shadowMapSize, far := c.shadowFar, bounds := bounds }
  let lit : Light K := {
    kind
    color := c.color
    intensity := c.intensity
    baseIntensity := c.intensity
    enabled := true
    position := c.position
    castShadows := c.castShadow
    shadow }
  return lit.setEnabled c.enabled

end Light

end SceneAssembly
