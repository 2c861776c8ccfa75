/-
  SceneAssembly/Texture/Image.lean
  ================================
  **Pixels and where they come from.**

  A pixel source is known by its path from the start and gets its pixels later,
  possibly more than once; its version counts how often.
-/

namespace SceneAssembly

/-- An image, four bytes per pixel. -/
structure ImageData where
  width : Nat
  height : Nat
  pixels : List UInt8
deriving DecidableEq

/-- A single pixel of a colour. -/
def ImageData.solid (color : List UInt8) : ImageData := ⟨1, 1, color⟩

structure PixelSource where
  path : String
  image : Option ImageData
  /-- Set once pixels have arrived. -/
  ready : Bool
  version : Nat
deriving DecidableEq

namespace PixelSource

/-- A source that waits for its pixels. -/
def pending (path : String) : PixelSource := ⟨path, none, false, 0⟩

/-- The source with new pixels. -/
def fill (s : PixelSource) (image : ImageData) : PixelSource :=
  { s with image := some image, ready := true, version := s.version + 1 }

end PixelSource

/-- What a loader holds of an image when it is asked: its pixels, or nothing yet. -/
structure ImageLoader where
  load : String → Option ImageData

/-- Answers every request with one white pixel. -/
def ImageLoader.placeholder : ImageLoader := ⟨fun _ => some (.solid [255, 255, 255, 255])⟩

/-- Leaves every source pending. -/
def ImageLoader.deferred : ImageLoader := ⟨fun _ => none⟩

end SceneAssembly
