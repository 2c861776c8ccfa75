/-
  SceneAssembly/Texture/Registry.lean
  ===================================
  **The textures of a scene, made once each.**

  A registry knows the descriptions of textures by identifier.  The first time
  one is asked for, its images are requested from the loader and the texture is
  kept; from then on the same object is handed out.  A texture may also be put
  in directly.
-/
import SceneAssembly.AssetPath
import SceneAssembly.Table
import SceneAssembly.Texture.Basic

namespace SceneAssembly

variable {K : Type}

/-- A path asked of the loader, and the source it was answered with. -/
structure ImageRequest where
  path : String
  source : SourceId

structure TextureRegistry (K : Type) where
  records : Table TextureSpec
  assetDir : String
  loader : ImageLoader
  handles : Table (Shared (Texture K))
  /-- All requests, the first one first. -/
  requests : List ImageRequest

/-- Work that uses textures and makes new objects. -/
abbrev Texturing (K : Type) := StateM (TextureRegistry K × Arena)

/-- A step that only makes objects. -/
def Texturing.onArena {α : Type} (step : StateM Arena α) : Texturing K α := fun (r, a) =>
  let (x, a) := step a
  (x, r, a)

namespace TextureRegistry

def ofRecords (records : Table TextureSpec) (assetDir : String) (loader : ImageLoader) :
    TextureRegistry K :=
  ⟨records, assetDir, loader, .empty, []⟩

/-- Asks the loader for an image below the directory of assets. -/
def request (path : String) : Texturing K SourceId := fun (r, a) =>
  let full := AssetPath.join r.assetDir path
  let (source, a) := Arena.loadSource r.loader full a
  (source, { r with requests := r.requests ++ [⟨full, source⟩] }, a)

/-- Requests images one after the other and makes them the next mip levels. -/
def pushMipmaps (t : Texture K) : List String → Texturing K (Texture K)
  | [] => return t
  | path :: rest => do pushMipmaps (t.pushMipmap (← request path)) rest

/-- The texture of a description. -/
def create [Scalar K] (id : String) (spec : TextureSpec) : Texturing K (Texture K) := do
  let source ← request spec.path
  let plain ← Texturing.onArena (Texture.ofSource id source)
  pushMipmaps { plain.setWrap spec.wrapS spec.wrapT with video := spec.video }
    (spec.mipmaps.take Texture.maxMipmaps)

/-- Keeps a texture under an identifier, in place of any other. -/
def insert (id : String) (t : Shared (Texture K)) : Texturing K Unit := fun (r, a) =>
  ((), { r with handles := r.handles.insert id t }, a)

/-- The texture of an identifier, made if this is the first time. -/
def resolve [Scalar K] (id : String) : Texturing K (Option (Shared (Texture K))) := do
  let (r, _) ← get
  match r.handles.find? id with
  | some t => return some t
  | none =>
    match r.records.find? id with
    | none => return none
    | some spec => do
      let texture ← create id spec
      let t ← Texturing.onArena (Arena.share texture)
      insert id t
      return some t

/-- A new copy of the texture of an identifier, with a tiling of its own. -/
def resolveTiled [Scalar K] (id : String) (tiling : Vec2 K) :
    Texturing K (Option (Shared (Texture K))) := do
  match ← resolve id with
  | none => return none
  | some t => return some (← Texturing.onArena (t.value.tiled tiling))

/-- The source most recently handed out for a path. -/
def sourceFor? (requests : List ImageRequest) (path : String) : Option SourceId :=
  (requests.reverse.find? (·.path = path)).map ImageRequest.source

/-- Gives pixels to the source most recently handed out for a path, if there is one. -/
def fill (r : TextureRegistry K) (path : String) (image : ImageData) : StateM Arena Bool := do
  match sourceFor? r.requests path with
  | none => return false
  | some source =>
    Arena.fillSource source image
    return true

/-- How a registry describes itself. -/
def description (r : TextureRegistry K) : String :=
  "ResourceResolver \x7b records: " ++ toString r.records.size ++
    ", asset_dir: " ++ AssetPath.quote r.assetDir ++
    ", cached: " ++ toString r.handles.size ++ ", .. \x7d"

end TextureRegistry

end SceneAssembly
