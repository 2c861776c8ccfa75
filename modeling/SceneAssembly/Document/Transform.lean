/-
  SceneAssembly/Document/Transform.lean
  =====================================
  **Transformation steps of an element.**

  An element lists moves, turns and stretches in any order.  A turn gives one
  angle in degrees per axis.  A step whose type is unknown is kept by its tag,
  to be reported where the steps are put together.
-/
import SceneAssembly.Vector

namespace SceneAssembly

inductive TransformStep (K : Type) where
  | translate (offset : Vec3 K)
  | rotate (degrees : Vec3 K)
  | scale (factors : Vec3 K)
  | unsupported (tag : String)

end SceneAssembly
