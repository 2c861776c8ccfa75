/-
  SceneAssembly/Main.lean
  =======================
  **The command line.**

  `scene-assembly <scene.json> [asset_dir]` prints the summary of a scene.  The
  directory of assets is that of the document unless it is given.
-/
import SceneAssembly.CommandLine

open SceneAssembly

/-- Prints the summary of a document; without one, a message and a failing exit code. -/
def main (args : List String) : IO UInt32 := do
  match args with
  | [] =>
    IO.eprintln CommandLine.usage
    return 1
  | path :: rest =>
    let assetDir := rest.head?.getD (AssetPath.parent path)
    try
      let text ← IO.FS.readFile path
      match CommandLine.run text assetDir with
      | .ok lines =>
        for line in lines do IO.println line
        return 0
      | .error message =>
        IO.eprintln message
        return 1
    catch e =>
      IO.eprintln (toString e)
      return 1
