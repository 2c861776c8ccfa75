/-
  SceneAssembly/CommandLine.lean
  ==============================
  **What the command line prints.**

  The text of a document becomes the lines of its scene's summary, or one
  message that says why there is no scene.  Images are left pending, and there is
  no library of models.
-/
import SceneAssembly.Assembly
import SceneAssembly.Document.Decoding.Basic
import SceneAssembly.Outline

namespace SceneAssembly.CommandLine

/-- How the command is called. -/
def usage : String := "usage: scene-assembly <scene.json> [asset_dir]"

/-- The summary of the scene of a document, if the text was one. -/
def summary (document : Option (Document Float32)) (assetDir : String) :
    Except String (List String) :=
  match document with
  | none => .error (Diagnostic.message .malformedJson)
  | some d =>
    let settings : Settings Float32 := { Settings.standard with assetDir := assetDir }
    match (assembleFresh settings .deferred d .empty .empty).1 with
    | .error e => .error e.message
    | .ok scene => .ok scene.summary

/-- The summary of the scene that a text describes. -/
def run (text assetDir : String) : Except String (List String) :=
  summary (Document.ofString text) assetDir

end SceneAssembly.CommandLine
