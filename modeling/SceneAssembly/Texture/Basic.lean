/-
  SceneAssembly/Texture/Basic.lean
  ================================
  **Textures.**

  A texture samples a pixel source, with up to eight sources overriding its mip
  levels, through a transform of the texture plane.  Copies share the sources
  but have a serial number, and a version, of their own.
-/
import SceneAssembly.Document.Material
import SceneAssembly.Matrix
import SceneAssembly.Shared

namespace SceneAssembly

/-! ## 1. Sampling -/

inductive AddressMode where
  | repeating
  | clampToEdge
  | mirrorRepeat
deriving DecidableEq, Repr

def AddressMode.ofWrap : Wrap → AddressMode
  | .again => repeating
  | .clamp => clampToEdge
  | .mirror => mirrorRepeat

def AddressMode.name : AddressMode → String
  | repeating => "Repeat"
  | clampToEdge => "ClampToEdge"
  | mirrorRepeat => "MirrorRepeat"

inductive FilterMode where
  | nearest
  | linear
deriving DecidableEq, Repr

def FilterMode.name : FilterMode → String
  | nearest => "Nearest"
  | linear => "Linear"

instance : Inhabited AddressMode := ⟨.repeating⟩
instance : Inhabited FilterMode := ⟨.linear⟩

structure Sampler where
  addressU : AddressMode := default
  addressV : AddressMode := default
  magFilter : FilterMode := default
  minFilter : FilterMode := default
  mipFilter : FilterMode := default
deriving DecidableEq, Repr

/-! ## 2. The texture plane -/

variable {K : Type}

/-- A turn around `center`, then a stretch by `tiling` and a shift by `offset`. -/
structure UvTransform (K : Type) where
  offset : Vec2 K
  tiling : Vec2 K
  rotation : K
  center : Vec2 K

namespace UvTransform

variable [Scalar K]

def standard : UvTransform K := ⟨Vec2.zero, Vec2.one, 0, ⟨0.5, 0.5⟩⟩

/-- The matrix of the transform, the turn given by its cosine and sine. -/
def matrixOfTurn (t : UvTransform K) (c s : K) : Mat3 K :=
  ⟨⟨c * t.tiling.x, s * t.tiling.x, 0⟩,
   ⟨-s * t.tiling.y, c * t.tiling.y, 0⟩,
   ⟨(c * -t.center.x + s * -t.center.y + t.center.x) * t.tiling.x + t.offset.x,
    (-s * -t.center.x + c * -t.center.y + t.center.y) * t.tiling.y + t.offset.y, 1⟩⟩

/-- The matrix that takes `(u, v, 1)` to texture coordinates. -/
def matrix (t : UvTransform K) : Mat3 K :=
  t.matrixOfTurn (Scalar.cos t.rotation) (Scalar.sin t.rotation)

end UvTransform

/-! ## 3. Textures -/

structure Texture (K : Type) where
  serial : Nat
  name : String
  source : SourceId
  mipmaps : List SourceId
  sampler : Sampler
  transform : UvTransform K
  video : Bool
  version : Nat

namespace Texture

/-- How many mip levels may be overridden. -/
def maxMipmaps : Nat := 8

/-- A texture of a source, with the usual sampler and transform. -/
def ofSource [Scalar K] (name : String) (source : SourceId) : StateM Arena (Texture K) := do
  return { serial := ← Arena.fresh, name, source, mipmaps := [], sampler := {},
           transform := .standard, video := false, version := 0 }

/-- A texture of one pixel. -/
def ofColor [Scalar K] (name : String) (color : List UInt8) : StateM Arena (Texture K) := do
  ofSource name (← Arena.addSource ((PixelSource.pending name).fill (.solid color)))

/-- A copy with the same sources, at version zero. -/
def copy (t : Texture K) : StateM Arena (Texture K) := do
  return { t with serial := ← Arena.fresh, version := 0 }

/-- The texture marked as changed. -/
def touch (t : Texture K) : Texture K := { t with version := t.version + 1 }

def setWrap (t : Texture K) (s u : Wrap) : Texture K :=
  { t with sampler := { t.sampler with addressU := .ofWrap s, addressV := .ofWrap u } }.touch

/-- Is there room for another mip level? -/
def acceptsMipmap (t : Texture K) : Bool := t.mipmaps.length < maxMipmaps

/-- Overrides the next mip level; without room nothing changes. -/
def pushMipmap (t : Texture K) (source : SourceId) : Texture K :=
  if t.acceptsMipmap then { t with mipmaps := t.mipmaps ++ [source] }.touch else t

def withTiling (t : Texture K) (tiling : Vec2 K) : Texture K :=
  { t with transform := { t.transform with tiling := tiling } }

/-- A new texture that is a copy with another tiling. -/
def tiled (t : Texture K) (tiling : Vec2 K) : StateM Arena (Shared (Texture K)) := do
  Arena.share ((← t.copy).withTiling tiling)

def sharesSource (t u : Texture K) : Bool := t.source == u.source

end Texture

end SceneAssembly
