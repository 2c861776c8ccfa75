/-
  SceneAssembly/Proofs/Exact.lean
  ===============================
  **Exact arithmetic.**

  The reals are an arithmetic without rounding, in which a formula of the
  library is the textbook's formula: its lengths are square roots of sums of
  squares, so the identities of plane and solid geometry are its laws
  (`sq_length_sub`, `sq_length_cross`).  No real lies above every other one;
  where an infinity is asked for, one stands in.
-/
import Mathlib.Analysis.SpecialFunctions.Trigonometric.Basic
import Mathlib.Analysis.SpecialFunctions.Sqrt
import SceneAssembly.Vector

namespace SceneAssembly

/-- Arithmetic without rounding. -/
noncomputable instance Real.instScalar : Scalar ℝ where
  decLT := inferInstance
  decLE := inferInstance
  sqrt := Real.sqrt
  sin := Real.sin
  cos := Real.cos
  abs x := |x|
  sign x := if x < 0 then -1 else 1
  isFinite _ := true
  pi := Real.pi
  infinity := 1

namespace Exact

/-! ## 1. The operations are those of the reals -/

@[simp] theorem ofNat_zero : @OfNat.ofNat ℝ (nat_lit 0) (Scalar.instOfNat 0) = 0 := Nat.cast_zero

@[simp] theorem ofNat_one : @OfNat.ofNat ℝ (nat_lit 1) (Scalar.instOfNat 1) = 1 := Nat.cast_one

@[simp] theorem ofNat_two : @OfNat.ofNat ℝ (nat_lit 2) (Scalar.instOfNat 2) = 2 := Nat.cast_ofNat

@[simp] theorem sqrt_eq (x : ℝ) : Scalar.sqrt x = √x := rfl

theorem clamp_eq_self {lo hi x : ℝ} (hlo : lo ≤ x) (hhi : x ≤ hi) : Scalar.clamp lo hi x = x := by
  have hbelow : ¬ x < lo := hlo.not_gt
  have habove : ¬ hi < x := hhi.not_gt
  simp [Scalar.clamp, hbelow, habove]

theorem lesser_eq_min (x y : ℝ) : Scalar.lesser x y = min x y := by
  unfold Scalar.lesser
  split
  next h => exact (min_eq_left h.le).symm
  next h => exact (min_eq_right (not_lt.mp h)).symm

theorem greater_eq_max (x y : ℝ) : Scalar.greater x y = max x y := by
  unfold Scalar.greater
  split
  next h => exact (max_eq_left h.le).symm
  next h => exact (max_eq_right (not_lt.mp h)).symm

/-! ## 2. Vectors -/

variable (u v : Vec3 ℝ)

theorem add_eq_left_iff : u + v = u ↔ v = ⟨0, 0, 0⟩ := by
  constructor
  · intro h
    ext
    · exact add_eq_left.mp (congrArg Vec3.x h)
    · exact add_eq_left.mp (congrArg Vec3.y h)
    · exact add_eq_left.mp (congrArg Vec3.z h)
  · rintro rfl
    ext
    · exact add_zero u.x
    · exact add_zero u.y
    · exact add_zero u.z

/-! ### Lengths -/

theorem dot_self_nonneg : 0 ≤ u.dot u :=
  add_nonneg (add_nonneg (mul_self_nonneg u.x) (mul_self_nonneg u.y)) (mul_self_nonneg u.z)

theorem length_nonneg : 0 ≤ u.length := Real.sqrt_nonneg _

theorem sq_length : u.length ^ 2 = u.dot u := Real.sq_sqrt (dot_self_nonneg u)

/-- Lagrange's identity: what the inner product leaves of two lengths is in the cross product. -/
theorem sq_length_cross : (u.cross v).length ^ 2 = u.length ^ 2 * v.length ^ 2 - u.dot v ^ 2 := by
  rw [sq_length, sq_length, sq_length]
  simp only [Vec3.dot, Vec3.cross]
  ring

/-- The law of cosines, for the edges `u` and `v` from one corner. -/
theorem sq_length_sub : (u - v).length ^ 2 = u.length ^ 2 + v.length ^ 2 - 2 * u.dot v := by
  rw [sq_length, sq_length, sq_length]
  show ((u.x - v.x) * (u.x - v.x) + (u.y - v.y) * (u.y - v.y) + (u.z - v.z) * (u.z - v.z) : ℝ) = _
  simp only [Vec3.dot]
  ring

/-! ### Unit vectors -/

variable {u v}

theorem unit?_eq_some_iff : u.unit? = some v ↔ 0 < u.length ∧ u.scale (1 / u.length) = v := by
  simp only [Vec3.unit?, ofNat_zero, ofNat_one]
  rw [Option.ite_none_right_eq_some, Option.some.injEq]
  exact and_congr_left' ((and_iff_right rfl).trans one_div_pos)

theorem length_pos_of_unit? (h : u.unit? = some v) : 0 < u.length :=
  (unit?_eq_some_iff.mp h).1

theorem unit?_of_length_pos (h : 0 < u.length) : ∃ n, u.unit? = some n :=
  ⟨_, unit?_eq_some_iff.mpr ⟨h, rfl⟩⟩

end Exact

end SceneAssembly
