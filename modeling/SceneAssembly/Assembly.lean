/-
  SceneAssembly/Assembly.lean
  ===========================
  **From a document to a scene.**

  The elements are walked depth first from the root.  World, material, texture
  and shadow flags pass down; the shadow flags of what was built pass back up.
  A reference is left out, and reported, if it names no element, if its element
  is among those the walk is inside of, if these are too many, or if the kind of
  the element is unknown; everything else goes on as if it were not there.

  The walk ends because the elements it is inside of are pairwise different:
  each descent leaves one element fewer to descend into.
-/
import SceneAssembly.Material.Build
import SceneAssembly.ModelLibrary
import SceneAssembly.Scene
import SceneAssembly.Shape.Build

namespace SceneAssembly

variable {K : Type}

/-! ## 1. What a walk knows and keeps -/

/-- What does not change during a walk. -/
structure Setting (K : Type) where
  document : Document K
  settings : Settings K

/-- What a walk makes and keeps. -/
structure Progress (K : Type) where
  arena : Arena
  registry : TextureRegistry K
  library : ModelLibrary K
  /-- The materials made so far, by the identifier of their description. -/
  materials : Table (Shared (Material K))
  fallback : Option (Shared (Material K))
  report : Report K

abbrev Walk (K : Type) := StateM (Progress K)

/-- What passes from an element to those below it. -/
structure Inherited (K : Type) where
  material : Option (Shared (Material K))
  texture : Option (Shared (Texture K))
  castShadow : Bool
  receiveShadow : Bool

def Inherited.nothing : Inherited K := ⟨none, none, false, false⟩

namespace Walk

def report (d : Diagnostic K) : Walk K Unit := modify fun p =>
  { p with report := { p.report with diagnostics := p.report.diagnostics ++ [d] } }

def reportAll (ds : List (Diagnostic K)) : Walk K Unit := modify fun p =>
  { p with report := { p.report with diagnostics := p.report.diagnostics ++ ds } }

/-- Counts an element as assembled. -/
def countElement : Walk K Unit := modify fun p =>
  { p with report := { p.report with assembled := p.report.assembled + 1 } }

/-- A step that only makes objects. -/
def onArena {α : Type} (step : StateM Arena α) : Walk K α := fun p =>
  let (x, arena) := step p.arena
  (x, { p with arena })

/-- A step that uses textures. -/
def onTextures {α : Type} (step : Texturing K α) : Walk K α := fun p =>
  let (x, registry, arena) := step (p.registry, p.arena)
  (x, { p with registry, arena })

/-- A step that uses the library of models. -/
def onLibrary {α : Type} (step : ModelLibrary K → StateM Arena (α × ModelLibrary K)) : Walk K α :=
  fun p =>
    let ((x, library), arena) := step p.library p.arena
    (x, { p with library, arena })

variable [Scalar K]

/-! ## 2. Materials and textures -/

/-- The texture of an identifier; a missing one is reported. -/
def lookupTexture (id : String) : Walk K (Option (Shared (Texture K))) := do
  match ← onTextures (TextureRegistry.resolve id) with
  | some t => return some t
  | none =>
    report (.missingTexture id)
    return none

/-- The texture of an element: its own, or the inherited one if it has none that exists. -/
def textureOf (e : Element K) (inherited : Inherited K) : Walk K (Option (Shared (Texture K))) := do
  match e.texture with
  | none => return inherited.texture
  | some id =>
    match ← lookupTexture id with
    | some t => return some t
    | none => return inherited.texture

/-- The material of an element: its own, made once for each description, or the inherited one if it
    has none that exists. -/
def materialOf (c : Setting K) (e : Element K) (inherited : Inherited K) :
    Walk K (Option (Shared (Material K))) := do
  match e.material with
  | none => return inherited.material
  | some id =>
    match (← get).materials.find? id with
    | some m => return some m
    | none =>
      match c.document.materials.find? id with
      | none =>
        report (.missingMaterial id)
        return inherited.material
      | some spec =>
        let (material, faults) ← onTextures spec.build
        reportAll faults
        let m ← onArena (Arena.share material)
        modify fun p => { p with materials := p.materials.insert id m }
        return some m

/-- The material of all surfaces that have none. -/
def fallbackMaterial (c : Setting K) : Walk K (Shared (Material K)) := do
  match (← get).fallback with
  | some m => return m
  | none =>
    let m ← onArena (do Arena.share (← Material.fallback c.settings.fallbackColor))
    modify fun p => { p with fallback := some m }
    return m

/-- The material of a surface; one with a texture of its own is a duplicate with that texture. -/
def surfaceMaterial (c : Setting K) (scope : Inherited K) : Walk K (Shared (Material K)) := do
  match scope.material, scope.texture with
  | none, _ => fallbackMaterial c
  | some m, none => return m
  | some m, some t => onArena (do Arena.share (← (← m.value.duplicate).attachMap t))

/-- What holds at an element, given what it inherits. -/
def scopeOf (c : Setting K) (e : Element K) (inherited : Inherited K) : Walk K (Inherited K) := do
  let material ← materialOf c e inherited
  let texture ← textureOf e inherited
  return ⟨material, texture, inherited.castShadow || e.casts, inherited.receiveShadow || e.receives⟩

/-- What a level inherits: a material that no other level holds. -/
def levelScope (scope : Inherited K) : Walk K (Inherited K) := do
  match scope.material with
  | none => return scope
  | some m =>
    let own ← onArena (do Arena.share (← m.value.duplicate))
    return { scope with material := some own }

/-! ## 3. Primitives -/

/-- The materials of the faces of a sky box. -/
def faceMaterials (spec : SkyboxSpec K) : List (Option String) →
    Walk K (List (Shared (Material K)))
  | [] => return []
  | face :: rest => do
    let map ← match face with
      | none => pure none
      | some id => lookupTexture id
    let m ← onArena (do Arena.share (← Material.skyboxFace map spec.emissive spec.intensity))
    return m :: (← faceMaterials spec rest)

/-- The materials of the groups of a shape. -/
def groupMaterials : ShapeSpec K → Walk K (List (Shared (Material K)))
  | .skybox spec => faceMaterials spec spec.faces.toList
  | _ => return []

/-- The node with the mesh of a shape, if the shape has a geometry. -/
def attachMesh (c : Setting K) (scope : Inherited K) (shape : ShapeSpec K) (n : SceneNode K) :
    Walk K (SceneNode K) := do
  match shape.build c.settings with
  | .error e =>
    report e
    return n
  | .ok geometry =>
    let geometry ← onArena (Arena.share geometry)
    let material ← surfaceMaterial c scope
    let groups ← groupMaterials shape
    return { n with mesh := some {
      Mesh.ofParts geometry material with
      name := n.name
      groupMaterials := groups
      castShadows := scope.castShadow
      receiveShadows := scope.receiveShadow } }

/-- The node with an instance of a model below it, if the model can be had. -/
def attachModel (c : Setting K) (scope : Inherited K) (path : String) (n : SceneNode K) :
    Walk K (SceneNode K) := do
  match ← onLibrary (·.instantiate path c.settings.assetDir n.world) with
  | .error e =>
    report e
    return n
  | .ok model =>
    return { n with
      children := n.children ++ [model.addShadows scope.castShadow scope.receiveShadow] }

/-- The node with a shape. -/
def attachShape (c : Setting K) (scope : Inherited K) (shape : ShapeSpec K) (n : SceneNode K) :
    Walk K (SceneNode K) :=
  match shape with
  | .model path => attachModel c scope path n
  | shape => attachMesh c scope shape n

/-- The node with a light, if its type is known. -/
def attachLight (spec : LightSpec K) (n : SceneNode K) : Walk K (SceneNode K) := do
  match Light.ofSpec spec with
  | .error e =>
    report e
    return n
  | .ok light => return { n with light := some light }

/-! ## 4. The walk -/

/-- Enters an element: what holds there, and its node so far, with a place and flags but nothing in
    it. -/
def enter (c : Setting K) (parent : Shared (Affine K)) (inherited : Inherited K) (id : String)
    (e : Element K) : Walk K (Inherited K × SceneNode K) := do
  let scope ← scopeOf c e inherited
  reportAll (TransformStep.faults e.transforms)
  let bare ← onArena (SceneNode.placed id parent (TransformStep.placement? e.transforms))
  return (scope, { bare with castShadow := scope.castShadow, receiveShadow := scope.receiveShadow })

/-- The elements that a walk is not inside of. -/
def remaining (c : Setting K) (path : List String) : List String :=
  c.document.elements.keys.filter fun key => !path.contains key

theorem remaining_lt {K : Type} (c : Setting K) {path : List String} {id : String} {e : Element K}
    (hid : c.document.elements.find? id = some e) (hpath : ¬ path.contains id) :
    (remaining c (id :: path)).length < (remaining c path).length := by
  have hmem : id ∈ remaining c path := by
    simp only [remaining, List.mem_filter]
    exact ⟨Table.mem_keys_of_find? hid, by simpa using hpath⟩
  have hsub : remaining c (id :: path) = (remaining c path).filter (· ≠ id) := by
    simp only [remaining, List.filter_filter]
    congr 1
    funext key
    by_cases h : key = id <;> simp [h]
  rw [hsub]
  exact List.length_filter_lt_length_iff_exists.mpr ⟨id, hmem, by simp⟩

/-- Counts a node that is complete, and gathers the shadow flags below it. -/
def finish (n : SceneNode K) : Walk K (Option (SceneNode K)) := do
  countElement
  return some n.gatherShadows

mutual

/-- The node of an element below a parent's world, unless the reference is left out.  `path` holds
    the elements that the walk is inside of, the innermost one first. -/
def visit (c : Setting K) (parent : Shared (Affine K)) (inherited : Inherited K)
    (path : List String) (id : String) : Walk K (Option (SceneNode K)) :=
  match _hid : c.document.elements.find? id with
  | none => do
    report (.missingElement id)
    return none
  | some e =>
    if _hpath : path.contains id then do
      report (.cycle id)
      return none
    else if c.settings.maxDepth ≤ path.length then do
      report (.tooDeep id c.settings.maxDepth)
      return none
    else do
      let (scope, own) ← enter c parent inherited id e
      match e.kind with
      | .group children =>
        let children ← visitChildren c own.world scope (id :: path) children
        finish { own with children := children }
      | .primitive shape => finish (← attachShape c scope shape own)
      | .light spec => finish (← attachLight spec own)
      | .lod levels =>
        let lod ← visitLevels c own.world scope (id :: path) .empty levels
        finish { own with lod := some lod }
      | .unsupported kind =>
        report (.unsupportedKind id kind)
        return none
termination_by ((remaining c path).length, 0)
decreasing_by all_goals exact Prod.Lex.left _ _ (remaining_lt c _hid _hpath)

/-- The nodes of the children of a group. -/
def visitChildren (c : Setting K) (parent : Shared (Affine K)) (scope : Inherited K)
    (path : List String) : List String → Walk K (List (SceneNode K))
  | [] => return []
  | id :: rest => do
    let child ← visit c parent scope path id
    let children ← visitChildren c parent scope path rest
    return child.toList ++ children
termination_by ids => ((remaining c path).length, ids.length + 1)
decreasing_by all_goals exact Prod.Lex.right _ (by simp)

/-- The levels of an element, added to those there are. -/
def visitLevels (c : Setting K) (parent : Shared (Affine K)) (scope : Inherited K)
    (path : List String) (lod : Lod K (SceneNode K)) :
    List (LevelSpec K) → Walk K (Lod K (SceneNode K))
  | [] => return lod
  | level :: rest => do
    let scopeHere ← levelScope scope
    match ← visit c parent scopeHere path level.target with
    | some n => visitLevels c parent scope path (lod.add level.minDistance n) rest
    | none => visitLevels c parent scope path lod rest
termination_by levels => ((remaining c path).length, levels.length + 1)
decreasing_by all_goals exact Prod.Lex.right _ (by simp)

end

end Walk

/-! ## 5. Scenes -/

/-- The projections a camera may have. -/
def cameraTypes : List String := ["perspective", "orthogonal"]

def Camera.isKnown (camera : Camera K) : Bool := cameraTypes.contains camera.type

/-- A report of every camera of an unknown type. -/
def cameraFaults (cameras : Table (Camera K)) : List (Diagnostic K) :=
  (cameras.entries.filter fun e => !e.2.isKnown).map fun e => .unsupportedCamera e.1 e.2.type

/-- The scene around a root. -/
def Scene.ofRoot (d : Document K) (root : SceneNode K) (report : Report K) : Scene K :=
  let cameras := d.cameras.filter fun _ camera => camera.isKnown
  { root
    background := d.options.background
    ambient := d.options.ambient
    fog := d.fog
    cameras
    activeCamera := d.activeCamera.filter cameras.contains
    report := { report with diagnostics := report.diagnostics ++ cameraFaults d.cameras } }

/-- What an assembly works with and leaves behind. -/
structure Workshop (K : Type) where
  arena : Arena
  registry : TextureRegistry K
  library : ModelLibrary K

/-- The scene of a document.  Only a root that names no element stops it; a root that is left out for
    another reason is replaced by an empty node of its name. -/
def assemble [Scalar K] (settings : Settings K) (d : Document K) (w : Workshop K) :
    Except (Diagnostic K) (Scene K) × Workshop K :=
  if d.elements.contains d.rootId then
    let walk : Walk K (SceneNode K) := do
      let world ← Walk.onArena (Arena.share Affine.identity)
      match ← Walk.visit ⟨d, settings⟩ world .nothing [] d.rootId with
      | some root => return root
      | none => Walk.onArena (SceneNode.atOrigin d.rootId)
    let (root, p) := walk ⟨w.arena, w.registry, w.library, .empty, none, .empty⟩
    (.ok (.ofRoot d root p.report), ⟨p.arena, p.registry, p.library⟩)
  else (.error (.missingRoot d.rootId), w)

/-- The scene of a document, with textures of its own. -/
def assembleFresh [Scalar K] (settings : Settings K) (loader : ImageLoader) (d : Document K)
    (library : ModelLibrary K) (arena : Arena) :
    Except (Diagnostic K) (Scene K) × Workshop K :=
  assemble settings d ⟨arena, .ofRecords d.textures settings.assetDir loader, library⟩

/-! ## 6. Models given as documents -/

/-- Loads a model by assembling the document filed under its path, by itself and with the usual
    settings; `none` stands for a text that is no document. -/
def ModelLoader.ofDocuments [Scalar K] (documents : Table (Option (Document K))) : ModelLoader K :=
  fun path arena =>
    match documents.find? path with
    | none => (.error (.resource path "no such model"), arena)
    | some none => (.error .malformedJson, arena)
    | some (some d) =>
      let (scene, w) := assembleFresh .standard .placeholder d .empty arena
      (scene.map Scene.root, w.arena)

end SceneAssembly
