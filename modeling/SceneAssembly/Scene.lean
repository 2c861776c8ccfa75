/-
  SceneAssembly/Scene.lean
  ========================
  **Assembled scenes and their reports.**
-/
import SceneAssembly.Document.Basic
import SceneAssembly.SceneNode.Traversal

namespace SceneAssembly

variable {K : Type}

/-- What was left out of a scene, in the order in which it was met, and how many elements were
    assembled. -/
structure Report (K : Type) where
  diagnostics : List (Diagnostic K)
  assembled : Nat

namespace Report

def empty : Report K := ⟨[], 0⟩

/-- Was nothing left out? -/
def isClean (r : Report K) : Bool := r.diagnostics.isEmpty

/-- How many diagnostics satisfy a test. -/
def count (r : Report K) (p : Diagnostic K → Bool) : Nat := r.diagnostics.countP p

end Report

structure Scene (K : Type) where
  root : SceneNode K
  background : Vec3 K
  ambient : Vec3 K
  fog : Option (Fog K)
  cameras : Table (Camera K)
  /-- The key of the camera in use. -/
  activeCamera : Option String
  report : Report K

/-- The record of the camera in use. -/
def Scene.camera? (s : Scene K) : Option (Camera K) := s.activeCamera.bind s.cameras.find?

end SceneAssembly
