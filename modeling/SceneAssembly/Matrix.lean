/-
  SceneAssembly/Matrix.lean
  =========================
  **Three by three and affine matrices, by columns.**

  A matrix times a vector is `(X·v.x + Y·v.y) + Z·v.z` for the columns `X`,
  `Y`, `Z`; a product is taken column by column.  An affine map is a matrix
  and a shift, and a product of affine maps applies its right factor
  first.
-/
import SceneAssembly.Vector

namespace SceneAssembly

variable {K : Type} [Scalar K]

/-- A three by three matrix, given by its columns. -/
@[ext] structure Mat3 (K : Type) where
  colX : Vec3 K
  colY : Vec3 K
  colZ : Vec3 K

namespace Mat3

def identity : Mat3 K := ⟨Vec3.unitX, Vec3.unitY, Vec3.unitZ⟩

/-- The image of a vector. -/
def apply (m : Mat3 K) (v : Vec3 K) : Vec3 K :=
  m.colX.scale v.x + m.colY.scale v.y + m.colZ.scale v.z

instance : Mul (Mat3 K) := ⟨fun m n => ⟨m.apply n.colX, m.apply n.colY, m.apply n.colZ⟩⟩

/-- The matrix that stretches each axis by a component of `s`. -/
def diagonal (s : Vec3 K) : Mat3 K := ⟨⟨s.x, 0, 0⟩, ⟨0, s.y, 0⟩, ⟨0, 0, s.z⟩⟩

/-- Rotation about the X axis, the angle in radians. -/
def rotationX (angle : K) : Mat3 K :=
  let s := Scalar.sin angle
  let c := Scalar.cos angle
  ⟨⟨1, 0, 0⟩, ⟨0, c, s⟩, ⟨0, -s, c⟩⟩

/-- Rotation about the Y axis, the angle in radians. -/
def rotationY (angle : K) : Mat3 K :=
  let s := Scalar.sin angle
  let c := Scalar.cos angle
  ⟨⟨c, 0, -s⟩, ⟨0, 1, 0⟩, ⟨s, 0, c⟩⟩

/-- Rotation about the Z axis, the angle in radians. -/
def rotationZ (angle : K) : Mat3 K :=
  let s := Scalar.sin angle
  let c := Scalar.cos angle
  ⟨⟨c, s, 0⟩, ⟨-s, c, 0⟩, ⟨0, 0, 1⟩⟩

end Mat3

/-- A linear map followed by a shift. -/
@[ext] structure Affine (K : Type) where
  linear : Mat3 K
  offset : Vec3 K

namespace Affine

def identity : Affine K := ⟨Mat3.identity, Vec3.zero⟩

def shift (t : Vec3 K) : Affine K := ⟨Mat3.identity, t⟩

def ofLinear (m : Mat3 K) : Affine K := ⟨m, Vec3.zero⟩

def scaling (s : Vec3 K) : Affine K := ⟨Mat3.diagonal s, Vec3.zero⟩

/-- The composite that applies the right factor first. -/
instance : Mul (Affine K) :=
  ⟨fun a b => ⟨a.linear * b.linear, a.linear.apply b.offset + a.offset⟩⟩

/-- The image of a point. -/
def apply (a : Affine K) (p : Vec3 K) : Vec3 K := a.linear.apply p + a.offset

end Affine

end SceneAssembly
