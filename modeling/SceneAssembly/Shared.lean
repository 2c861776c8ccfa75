/-
  SceneAssembly/Shared.lean
  =========================
  **Objects with an identity.**

  World matrices, geometries, materials and textures are shared: two holders may
  hold the same object, or equal ones that are different objects.  A shared
  object is a value with a number, and an arena hands out each number once.
  Editing an object that others may hold makes a new object.

  The arena also keeps the pixel sources, which change after they have been
  handed out; a holder refers to a source by its place there.
-/
import SceneAssembly.Texture.Image

namespace SceneAssembly

/-- A value with an identity. -/
structure Shared (α : Type) where
  id : Nat
  value : α

/-- The place of a pixel source in the arena. -/
abbrev SourceId := Nat

/-- The numbers given out so far, and all pixel sources. -/
structure Arena where
  next : Nat
  sources : Array PixelSource

namespace Arena

def empty : Arena := ⟨0, #[]⟩

/-- A number that has not been given out. -/
def fresh : StateM Arena Nat := fun a => (a.next, { a with next := a.next + 1 })

/-- A new object. -/
def share {α : Type} (value : α) : StateM Arena (Shared α) := do return ⟨← fresh, value⟩

/-- Keeps a new pixel source. -/
def addSource (source : PixelSource) : StateM Arena SourceId := fun a =>
  (a.sources.size, { a with sources := a.sources.push source })

/-- Keeps a source with the pixels a loader has for a path. -/
def loadSource (loader : ImageLoader) (path : String) : StateM Arena SourceId :=
  addSource (match loader.load path with
    | some image => (PixelSource.pending path).fill image
    | none => PixelSource.pending path)

/-- Gives pixels to a source. -/
def fillSource (id : SourceId) (image : ImageData) : StateM Arena Unit := fun a =>
  ((), { a with sources := a.sources.modify id (·.fill image) })

end Arena

/-- The object changed, as a new one. -/
def Shared.edit {α : Type} (s : Shared α) (f : α → α) : StateM Arena (Shared α) :=
  Arena.share (f s.value)

end SceneAssembly
