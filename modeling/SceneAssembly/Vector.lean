/-
  SceneAssembly/Vector.lean
  =========================
  **Vectors of two, three and four components.**

  Sums of products associate to the left, `(x·x' + y·y') + z·z'`, and a unit
  vector is the vector times the reciprocal of its length.  `Vec3.unit?` fails
  where that reciprocal is not a finite positive number, so it fails on a zero
  vector and on one that is infinite or not a number.
-/
import SceneAssembly.Scalar

namespace SceneAssembly

@[ext] structure Vec2 (K : Type) where
  x : K
  y : K

@[ext] structure Vec3 (K : Type) where
  x : K
  y : K
  z : K

@[ext] structure Vec4 (K : Type) where
  x : K
  y : K
  z : K
  w : K

variable {K : Type} [Scalar K]

/-! ## 1. Two components -/

namespace Vec2

instance : Add (Vec2 K) := ⟨fun a b => ⟨a.x + b.x, a.y + b.y⟩⟩
instance : Sub (Vec2 K) := ⟨fun a b => ⟨a.x - b.x, a.y - b.y⟩⟩

def zero : Vec2 K := ⟨0, 0⟩
def one : Vec2 K := ⟨1, 1⟩

/-- The vector scaled by `s`. -/
def scale (a : Vec2 K) (s : K) : Vec2 K := ⟨a.x * s, a.y * s⟩

/-- Componentwise lesser values. -/
def lesser (a b : Vec2 K) : Vec2 K := ⟨Scalar.lesser a.x b.x, Scalar.lesser a.y b.y⟩

/-- Componentwise greater values. -/
def greater (a b : Vec2 K) : Vec2 K := ⟨Scalar.greater a.x b.x, Scalar.greater a.y b.y⟩

def toList {K : Type} (a : Vec2 K) : List K := [a.x, a.y]

end Vec2

/-! ## 2. Three components -/

namespace Vec3

instance : Add (Vec3 K) := ⟨fun a b => ⟨a.x + b.x, a.y + b.y, a.z + b.z⟩⟩
instance : Sub (Vec3 K) := ⟨fun a b => ⟨a.x - b.x, a.y - b.y, a.z - b.z⟩⟩
/-- The componentwise product. -/
instance : Mul (Vec3 K) := ⟨fun a b => ⟨a.x * b.x, a.y * b.y, a.z * b.z⟩⟩
instance : Neg (Vec3 K) := ⟨fun a => ⟨-a.x, -a.y, -a.z⟩⟩

def zero : Vec3 K := ⟨0, 0, 0⟩
def one : Vec3 K := ⟨1, 1, 1⟩
def unitX : Vec3 K := ⟨1, 0, 0⟩
def unitY : Vec3 K := ⟨0, 1, 0⟩
def unitZ : Vec3 K := ⟨0, 0, 1⟩

/-- The vector with `s` in every component. -/
def splat {K : Type} (s : K) : Vec3 K := ⟨s, s, s⟩

/-- The vector scaled by `s`. -/
def scale (a : Vec3 K) (s : K) : Vec3 K := ⟨a.x * s, a.y * s, a.z * s⟩

/-- The vector with each component divided by `s`. -/
def divide (a : Vec3 K) (s : K) : Vec3 K := ⟨a.x / s, a.y / s, a.z / s⟩

def abs (a : Vec3 K) : Vec3 K := ⟨Scalar.abs a.x, Scalar.abs a.y, Scalar.abs a.z⟩

/-- Componentwise lesser values. -/
def lesser (a b : Vec3 K) : Vec3 K :=
  ⟨Scalar.lesser a.x b.x, Scalar.lesser a.y b.y, Scalar.lesser a.z b.z⟩

/-- Componentwise greater values. -/
def greater (a b : Vec3 K) : Vec3 K :=
  ⟨Scalar.greater a.x b.x, Scalar.greater a.y b.y, Scalar.greater a.z b.z⟩

/-- The least component. -/
def least (a : Vec3 K) : K := Scalar.lesser a.x (Scalar.lesser a.y a.z)

def isFinite (a : Vec3 K) : Bool :=
  Scalar.isFinite a.x && Scalar.isFinite a.y && Scalar.isFinite a.z

def dot (a b : Vec3 K) : K := a.x * b.x + a.y * b.y + a.z * b.z

def cross (a b : Vec3 K) : Vec3 K :=
  ⟨a.y * b.z - b.y * a.z, a.z * b.x - b.z * a.x, a.x * b.y - b.x * a.y⟩

def length (a : Vec3 K) : K := Scalar.sqrt (a.dot a)

def distance (a b : Vec3 K) : K := (a - b).length

/-- The vector times the reciprocal of its length. -/
def normalized (a : Vec3 K) : Vec3 K := a.scale (1 / a.length)

/-- The unit vector along `a`, unless the reciprocal of the length is no finite positive
    number. -/
def unit? (a : Vec3 K) : Option (Vec3 K) :=
  let r := 1 / a.length
  if Scalar.isFinite r ∧ 0 < r then some (a.scale r) else none

/-- The point at parameter `s` between `a` (at 0) and `b` (at 1). -/
def lerp (a b : Vec3 K) (s : K) : Vec3 K := a.scale (1 - s) + b.scale s

/-- The vector with a fourth component. -/
def extend {K : Type} (a : Vec3 K) (w : K) : Vec4 K := ⟨a.x, a.y, a.z, w⟩

def toList {K : Type} (a : Vec3 K) : List K := [a.x, a.y, a.z]

end Vec3

def Vec4.one : Vec4 K := ⟨1, 1, 1, 1⟩

def Vec4.toList {K : Type} (a : Vec4 K) : List K := [a.x, a.y, a.z, a.w]

end SceneAssembly
