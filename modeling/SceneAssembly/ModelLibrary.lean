/-
  SceneAssembly/ModelLibrary.lean
  ===============================
  **A library of models.**

  A model is imported once per path and kept as a template; an instance is a
  copy of the template placed in a scene.  A path keeps the key it was first
  given, also when its template is replaced.  A failed import leaves the library
  as it was, so that the next request tries again.
-/
import SceneAssembly.AssetPath
import SceneAssembly.SceneNode.Basic
import SceneAssembly.Table

namespace SceneAssembly

variable {K : Type}

/-- Builds the model of a path, or tells why it cannot. -/
abbrev ModelLoader (K : Type) := String → StateM Arena (Except (Diagnostic K) (SceneNode K))

structure ModelTemplate (K : Type) where
  path : String
  root : SceneNode K

/-- The place of a template in a library. -/
abbrev ModelKey := Nat

structure ModelLibrary (K : Type) where
  loader : Option (ModelLoader K)
  /-- The templates by key. -/
  templates : Array (Shared (ModelTemplate K))
  keys : Table ModelKey
  /-- The paths that the loader was asked for, the first one first. -/
  loads : List String

namespace ModelLibrary

def empty : ModelLibrary K := ⟨none, #[], .empty, []⟩

def withLoader (loader : ModelLoader K) : ModelLibrary K := { empty with loader := some loader }

def size (l : ModelLibrary K) : Nat := l.templates.size

def get? (l : ModelLibrary K) (key : ModelKey) : Option (Shared (ModelTemplate K)) :=
  l.templates[key]?

def find? (l : ModelLibrary K) (path : String) : Option (Shared (ModelTemplate K)) :=
  (l.keys.find? path).bind l.get?

/-- Keeps a template under its path; a path that is known keeps its key. -/
def put (l : ModelLibrary K) (t : Shared (ModelTemplate K)) : ModelKey × ModelLibrary K :=
  match l.keys.find? t.value.path with
  | some key => (key, { l with templates := l.templates.modify key fun _ => t })
  | none =>
    (l.templates.size, { l with
      templates := l.templates.push t
      keys := l.keys.insert t.value.path l.templates.size })

/-- Makes a template of a model and keeps it. -/
def insert (l : ModelLibrary K) (path : String) (root : SceneNode K) :
    StateM Arena (ModelKey × ModelLibrary K) := do
  return l.put (← Arena.share ⟨path, root⟩)

/-- The template of a path, imported if it is not there yet. -/
def template (l : ModelLibrary K) (path assetDir : String) :
    StateM Arena (Except (Diagnostic K) (Shared (ModelTemplate K)) × ModelLibrary K) := do
  match l.find? path with
  | some t => return (.ok t, l)
  | none =>
    match l.loader with
    | none => return (.error (.resource path "no model loader configured"), l)
    | some load =>
      let full := AssetPath.join assetDir path
      let asked := { l with loads := l.loads ++ [full] }
      match ← load full with
      | .error e => return (.error e, asked)
      | .ok root =>
        let t ← Arena.share ⟨path, root⟩
        return (.ok t, (asked.put t).2)

/-- An instance of a model, placed below a world. -/
def instantiate [Scalar K] (l : ModelLibrary K) (path assetDir : String)
    (parent : Shared (Affine K)) :
    StateM Arena (Except (Diagnostic K) (SceneNode K) × ModelLibrary K) := do
  let (found, l) ← l.template path assetDir
  match found with
  | .error e => return (.error e, l)
  | .ok t => return (.ok (← t.value.root.rebase parent), l)

/-- How a library describes itself. -/
def description (l : ModelLibrary K) : String :=
  "AssetLibrary \x7b templates: " ++ toString l.size ++ ", has_loader: " ++
    (if l.loader.isSome then "true" else "false") ++ " \x7d"

end ModelLibrary

end SceneAssembly
