/-
  SceneAssembly/Scalar.lean
  =========================
  **The arithmetic a scene is computed in.**

  Everything numeric in this library, from a corner of a box to a world
  matrix, is written over a type `K` with the operations of `Scalar`, and each
  formula fixes the order of its operations.  The program runs at single
  precision (`Float32`); a law that only holds without rounding is stated over
  an exact instance, and one that only needs an order or monotone operations
  says so.

  Comparison is the partial order of floating point: a value that is not a
  number is neither below nor above anything, and `lesser` and `greater` then
  answer their second argument.
-/

namespace SceneAssembly

/-- The operations geometry needs of a number type. -/
class Scalar (K : Type) extends Add K, Sub K, Mul K, Div K, Neg K, NatCast K, OfScientific K,
    LT K, LE K where
  decLT : DecidableLT K
  decLE : DecidableLE K
  sqrt : K → K
  sin : K → K
  cos : K → K
  abs : K → K
  /-- A unit carrying the argument's sign; a zero has the sign it is written with. -/
  sign : K → K
  isFinite : K → Bool
  pi : K
  /-- The value above every other, where the type has one. -/
  infinity : K

namespace Scalar

variable {K : Type} [Scalar K]

instance : DecidableLT K := Scalar.decLT
instance : DecidableLE K := Scalar.decLE

/-- Numerals denote the casts of natural numbers. -/
instance (priority := low) (n : Nat) : OfNat K n := ⟨(n : K)⟩

/-- The first argument if it is strictly below the second, else the second. -/
def lesser (a b : K) : K := if a < b then a else b

/-- The first argument if it is strictly above the second, else the second. -/
def greater (a b : K) : K := if b < a then a else b

/-- The nearest value of `[lo, hi]`; what compares with neither end stays as it is. -/
def clamp (lo hi x : K) : K :=
  let x := if x < lo then lo else x
  if hi < x then hi else x

/-- Numerical equality: the two zeros are equal, and not-a-number differs from itself. -/
def same (a b : K) : Bool := decide (a ≤ b) && decide (b ≤ a)

/-- A full turn. -/
def tau : K := 2 * pi

/-- Radians of an angle in degrees. -/
def radians (degrees : K) : K := degrees * 0.017453292

/-- Square-and-multiply: `acc · base ^ n`, squaring while bits of the exponent remain. -/
def powFrom (acc base : K) (n : Nat) : K :=
  let acc := if n % 2 = 1 then acc * base else acc
  if n / 2 = 0 then acc else powFrom acc (base * base) (n / 2)
termination_by n
decreasing_by omega

/-- A natural power, by repeated squaring. -/
def pow (base : K) (n : Nat) : K := powFrom 1 base n

end Scalar

instance Float32.instNatCast : NatCast Float32 := ⟨Float32.ofNat⟩

/-- One, or minus one where the sign bit is set; not-a-number stays. -/
def Float32.unitSign (x : Float32) : Float32 :=
  if x.isNaN then x else if x.toBits >>> 31 = 1 then -1 else 1

/-- Single precision, the arithmetic scenes are assembled in. -/
instance Float32.instScalar : Scalar Float32 where
  decLT := inferInstance
  decLE := inferInstance
  sqrt := Float32.sqrt
  sin := Float32.sin
  cos := Float32.cos
  abs := Float32.abs
  sign := Float32.unitSign
  isFinite := Float32.isFinite
  pi := 3.14159265358979
  infinity := Float32.ofBits 0x7f800000

/-- In single precision the factor of `radians` is the quotient of pi and 180. -/
theorem Float32.radians_eq (x : Float32) : Scalar.radians x = x * (Scalar.pi / 180) :=
  congrArg (x * ·) (by decide +kernel)

/-- Half a turn comes out as pi, to the bit. -/
example : Scalar.radians (180 : Float32) = Scalar.pi := by decide +kernel

end SceneAssembly
