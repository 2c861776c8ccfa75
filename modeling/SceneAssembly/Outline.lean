/-
  SceneAssembly/Outline.lean
  ==========================
  **Scenes as text.**

  The outline of a tree has a line per node, indented by two blanks per step of
  depth: the name, and tags for what the node holds.  A summary is an outline
  followed by the number of assembled elements, a line per diagnostic, and the
  bounds of the scene unless they are empty.
-/
import SceneAssembly.Scene

namespace SceneAssembly

namespace SceneNode

/-- What a node holds, in a few words. -/
def tags {K : Type} (n : SceneNode K) : List String :=
  (match n.mesh with
    | some mesh =>
      ["mesh(" ++ toString mesh.geometry.value.triangleCount ++ " tris, " ++
        mesh.material.value.shaderName ++ ")"]
    | none => []) ++
  (if n.light.isSome then ["light"] else []) ++
  (match n.lod with
    | some lod => ["lod(" ++ toString lod.length ++ " levels)"]
    | none => []) ++
  (if n.castShadow then ["casts"] else []) ++
  if n.receiveShadow then ["receives"] else []

/-- The line of a node at a depth. -/
def line {K : Type} (depth : Nat) (n : SceneNode K) : String :=
  "".pushn ' ' (2 * depth) ++ n.name ++ " " ++ " ".intercalate n.tags

variable {K : Type}

mutual

/-- The lines of a subtree whose root is at a depth. -/
def outline (depth : Nat) : SceneNode K → List String
  | n@⟨_, _, _, _, _, none, children, _, _⟩ => n.line depth :: outlineAll (depth + 1) children
  | n@⟨_, _, _, _, _, some ⟨levels⟩, children, _, _⟩ =>
    n.line depth :: (outlineAll (depth + 1) children ++ outlineLevels (depth + 1) levels)

def outlineAll (depth : Nat) : List (SceneNode K) → List String
  | [] => []
  | n :: rest => outline depth n ++ outlineAll depth rest

def outlineLevels (depth : Nat) : List (Level K (SceneNode K)) → List String
  | [] => []
  | ⟨_, n⟩ :: rest => outline depth n ++ outlineLevels depth rest

end

end SceneNode

/-- The summary of a scene. -/
def Scene.summary (s : Scene Float32) : List String :=
  let bounds := s.root.bounds
  s.root.outline 0 ++ ["", s!"nodes compiled: {s.report.assembled}"] ++
    (s.report.diagnostics.map fun d => s!"  skipped: {d.message}") ++
    if bounds.isEmpty then [] else [s!"bounds: {bounds.min.text} .. {bounds.max.text}"]

end SceneAssembly
