/-
  SceneAssembly/Proofs/Monotone.lean
  ==================================
  **Monotone arithmetic.**

  Arithmetic with rounding has few laws of arithmetic, but it keeps the order: a
  sum grows with its terms, and a product with one factor, or falls with it where
  the other factor is negative (`MonotoneArithmetic`).  All of it is said of
  results that are numbers, which have numbers for operands.  Exact arithmetic is
  monotone, and so is single precision (`Float32.instMonotoneArithmetic`).
-/
import SceneAssembly.Proofs.Comparison
import SceneAssembly.Proofs.Exact

namespace SceneAssembly

namespace Scalar

/-- The laws of order that sums and products have. -/
class MonotoneArithmetic (K : Type) [Scalar K] : Prop extends LawfulOrder K where
  isNumber_zero : IsNumber (0 : K)
  neg_infinity_lt : (-infinity : K) < infinity
  isNumber_of_add : ∀ {x y : K}, IsNumber (x + y) → IsNumber x ∧ IsNumber y
  isNumber_of_mul : ∀ {x y : K}, IsNumber (x * y) → IsNumber x ∧ IsNumber y
  add_le_add : ∀ {x x' y y' : K}, x ≤ x' → y ≤ y' → IsNumber (x + y) → IsNumber (x' + y') →
    x + y ≤ x' + y'
  mul_le_mul_of_nonneg : ∀ {a x y : K}, 0 ≤ a → x ≤ y → IsNumber (a * x) → IsNumber (a * y) →
    a * x ≤ a * y
  mul_le_mul_of_nonpos : ∀ {a x y : K}, a ≤ 0 → x ≤ y → IsNumber (a * x) → IsNumber (a * y) →
    a * y ≤ a * x

/-! ## 1. The lesser and the greater of two numbers -/

section LawfulOrder

variable {K : Type} [Scalar K] [LawfulOrder K] {x y : K}

theorem le_of_not_lt (hx : IsNumber x) (hy : IsNumber y) (h : ¬ x < y) : y ≤ x := by
  rw [lt_iff_not_le hx hy, not_not] at h
  exact h

theorem lesser_le (hx : IsNumber x) (hy : IsNumber y) : lesser x y ≤ x ∧ lesser x y ≤ y := by
  unfold lesser
  split
  next h => exact ⟨hx, (LawfulOrder.lt_iff.mp h).1⟩
  next h => exact ⟨le_of_not_lt hx hy h, hy⟩

theorem le_greater (hx : IsNumber x) (hy : IsNumber y) : x ≤ greater x y ∧ y ≤ greater x y := by
  unfold greater
  split
  next h => exact ⟨hx, (LawfulOrder.lt_iff.mp h).1⟩
  next h => exact ⟨le_of_not_lt hy hx h, hy⟩

end LawfulOrder

/-! ## 2. An interval and a factor -/

section MonotoneArithmetic

variable {K : Type} [Scalar K] [MonotoneArithmetic K]

/-- Of the ends of an interval one has a multiple below those of the interval, and one above. -/
theorem exists_ends {a lo x hi : K} (hlo : lo ≤ x) (hhi : x ≤ hi) (hnlo : IsNumber (a * lo))
    (hnx : IsNumber (a * x)) (hnhi : IsNumber (a * hi)) :
    ∃ u v, (u = lo ∨ u = hi) ∧ (v = lo ∨ v = hi) ∧ a * u ≤ a * x ∧ a * x ≤ a * v := by
  have ha : IsNumber a := (MonotoneArithmetic.isNumber_of_mul hnx).1
  rcases LawfulOrder.le_total MonotoneArithmetic.isNumber_zero ha with hpos | hneg
  · exact ⟨lo, hi, .inl rfl, .inr rfl, MonotoneArithmetic.mul_le_mul_of_nonneg hpos hlo hnlo hnx,
      MonotoneArithmetic.mul_le_mul_of_nonneg hpos hhi hnx hnhi⟩
  · exact ⟨hi, lo, .inr rfl, .inl rfl, MonotoneArithmetic.mul_le_mul_of_nonpos hneg hhi hnx hnhi,
      MonotoneArithmetic.mul_le_mul_of_nonpos hneg hlo hnlo hnx⟩

end MonotoneArithmetic

end Scalar

/-- Arithmetic without rounding is monotone. -/
instance Real.instMonotoneArithmetic : Scalar.MonotoneArithmetic ℝ where
  le_trans := le_trans
  le_total _ _ := le_total _ _
  isNumber_of_le _ := ⟨le_rfl, le_rfl⟩
  lt_iff := lt_iff_le_not_ge
  isNumber_zero := le_rfl
  neg_infinity_lt := by
    show (-1 : ℝ) < 1
    norm_num
  isNumber_of_add _ := ⟨le_rfl, le_rfl⟩
  isNumber_of_mul _ := ⟨le_rfl, le_rfl⟩
  add_le_add hx hy _ _ := add_le_add hx hy
  mul_le_mul_of_nonneg ha h _ _ := mul_le_mul_of_nonneg_left h (by simpa using ha)
  mul_le_mul_of_nonpos ha h _ _ := mul_le_mul_of_nonpos_left h (by simpa using ha)

end SceneAssembly
