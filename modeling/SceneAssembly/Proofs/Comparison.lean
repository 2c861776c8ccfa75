/-
  SceneAssembly/Proofs/Comparison.lean
  ====================================
  **The laws of comparison.**

  Numbers are in linear order, up to equal ones that differ, such as the two
  zeros; a value that is not a number compares with nothing, not even with
  itself.  These are all the laws that sorting and searching need
  (`LawfulOrder`).  Single precision has them: a float that is a number has a
  place in a linear order (`Float32.rank`), and comparing floats is comparing
  their places (`compare_eq_rank`).
-/
import Mathlib.Data.Int.Order.Basic
import Mathlib.Data.Prod.Lex
import Mathlib.Order.Compare
import SceneAssembly.Scalar

namespace SceneAssembly

namespace Scalar

/-- A value that compares with itself. -/
def IsNumber {K : Type} [Scalar K] (x : K) : Prop := x ≤ x

instance {K : Type} [Scalar K] (x : K) : Decidable (IsNumber x) :=
  inferInstanceAs (Decidable (x ≤ x))

/-- The laws of comparison: a linear order on the numbers, in which nothing else takes part. -/
class LawfulOrder (K : Type) [Scalar K] : Prop where
  le_trans : ∀ {x y z : K}, x ≤ y → y ≤ z → x ≤ z
  le_total : ∀ {x y : K}, IsNumber x → IsNumber y → x ≤ y ∨ y ≤ x
  isNumber_of_le : ∀ {x y : K}, x ≤ y → IsNumber x ∧ IsNumber y
  lt_iff : ∀ {x y : K}, x < y ↔ x ≤ y ∧ ¬ y ≤ x

section LawfulOrder

variable {K : Type} [Scalar K] [LawfulOrder K] {x y : K}

theorem lt_iff_not_le (hx : IsNumber x) (hy : IsNumber y) : x < y ↔ ¬ y ≤ x := by
  rw [LawfulOrder.lt_iff]
  refine ⟨And.right, fun h => ⟨?_, h⟩⟩
  rcases LawfulOrder.le_total hx hy with hle | hle
  · exact hle
  · exact absurd hle h

end LawfulOrder

end Scalar

namespace Float32

open Float.Model

/-! ## 1. The order of floats -/

/-- The place of a float in the order, unless it is not a number. -/
def rank : UnpackedFloat → Option (Int ×ₗ Int ×ₗ Int)
  | .notANumber => none
  | .infinity .negative => some (toLex (-2, toLex (0, 0)))
  | .finite .negative m e _ => some (toLex (-1, toLex (-e, -m)))
  | .zero _ => some (toLex (0, toLex (0, 0)))
  | .finite .positive m e _ => some (toLex (1, toLex (e, m)))
  | .infinity .positive => some (toLex (2, toLex (0, 0)))

theorem compare_neg (a b : Int) : compare (-a) (-b) = (compare a b).swap := by
  rcases lt_trichotomy a b with h | rfl | h
  · rw [compare_lt_iff_lt.mpr h, compare_gt_iff_gt.mpr (Int.neg_lt_neg h)]
    rfl
  · simp
  · rw [compare_gt_iff_gt.mpr h, compare_lt_iff_lt.mpr (Int.neg_lt_neg h)]
    rfl

theorem compare_cast (a b : Nat) : compare (a : Int) (b : Int) = compare a b := by
  simp only [compare, compareOfLessAndEq, Int.ofNat_lt, Int.ofNat_inj]

/-- Comparing floats is comparing their places. -/
theorem compare_eq_rank (a b : UnpackedFloat) :
    a.compare b = (rank a).bind fun x => (rank b).map (compare x) := by
  cases a with
  | notANumber => rfl
  | infinity s =>
    cases b with
    | notANumber => cases s <;> rfl
    | infinity t => cases s <;> cases t <;> rfl
    | zero t => cases s <;> rfl
    | finite t m e h => cases s <;> cases t <;> rfl
  | zero s =>
    cases b with
    | notANumber => rfl
    | infinity t => cases t <;> rfl
    | zero t => rfl
    | finite t m e h => cases t <;> rfl
  | finite s m e h =>
    cases b with
    | notANumber => cases s <;> rfl
    | infinity t => cases s <;> cases t <;> rfl
    | zero t => cases s <;> rfl
    | finite t m' e' h' =>
      -- Only two floats of one sign are told apart by their digits.
      cases s with
      | negative =>
        cases t with
        | negative =>
          refine congrArg some ?_
          rw [Ordering.swap_then, ← compare_neg, ← compare_cast, ← compare_neg]
          rfl
        | positive => rfl
      | positive =>
        cases t with
        | negative => rfl
        | positive =>
          refine congrArg some ?_
          rw [← compare_cast]
          rfl

theorem le_iff_rank {x y : Float32} :
    x ≤ y ↔ ∃ a ∈ rank x.toModel.unpack, ∃ b ∈ rank y.toModel.unpack, a ≤ b := by
  have hle : x ≤ y ↔ x.toModel.unpack.le y.toModel.unpack = true := decide_eq_true_iff
  rw [hle, UnpackedFloat.le, compare_eq_rank]
  cases rank x.toModel.unpack with
  | none => simp
  | some a =>
    cases rank y.toModel.unpack with
    | none => simp
    | some b => simp [Ordering.isLE_iff_ne_gt, compare_le_iff_le]

theorem lt_iff_rank {x y : Float32} :
    x < y ↔ ∃ a ∈ rank x.toModel.unpack, ∃ b ∈ rank y.toModel.unpack, a < b := by
  have hlt : x < y ↔ x.toModel.unpack.lt y.toModel.unpack = true := decide_eq_true_iff
  rw [hlt, UnpackedFloat.lt, compare_eq_rank]
  cases rank x.toModel.unpack with
  | none => simp
  | some a =>
    cases rank y.toModel.unpack with
    | none => simp
    | some b => simp [compare_lt_iff_lt]

theorem isSome_rank (a : UnpackedFloat) : (rank a).isSome = !a.isNaN := by
  cases a with
  | notANumber => rfl
  | infinity s => cases s <;> rfl
  | zero s => rfl
  | finite s m e h => cases s <;> rfl

theorem isNumber_iff {x : Float32} : Scalar.IsNumber x ↔ x.isNaN = false := by
  have hnan : x.isNaN = x.toModel.unpack.isNaN := rfl
  have hsome := isSome_rank x.toModel.unpack
  rw [Scalar.IsNumber, le_iff_rank, hnan]
  cases hrank : rank x.toModel.unpack with
  | none =>
    rw [hrank] at hsome
    simpa using hsome
  | some a =>
    rw [hrank] at hsome
    simpa using hsome

instance instLawfulOrder : Scalar.LawfulOrder Float32 where
  le_trans {x y z} hxy hyz := by
    obtain ⟨a, ha, b, hb, hab⟩ := le_iff_rank.mp hxy
    obtain ⟨b', hb', c, hc, hbc⟩ := le_iff_rank.mp hyz
    obtain rfl := Option.mem_unique hb hb'
    exact le_iff_rank.mpr ⟨a, ha, c, hc, hab.trans hbc⟩
  le_total {x y} hx hy := by
    obtain ⟨a, ha, -⟩ := le_iff_rank.mp hx
    obtain ⟨b, hb, -⟩ := le_iff_rank.mp hy
    rcases le_total a b with hab | hba
    · exact .inl (le_iff_rank.mpr ⟨a, ha, b, hb, hab⟩)
    · exact .inr (le_iff_rank.mpr ⟨b, hb, a, ha, hba⟩)
  isNumber_of_le {x y} hxy := by
    obtain ⟨a, ha, b, hb, -⟩ := le_iff_rank.mp hxy
    exact ⟨le_iff_rank.mpr ⟨a, ha, a, ha, le_rfl⟩, le_iff_rank.mpr ⟨b, hb, b, hb, le_rfl⟩⟩
  lt_iff {x y} := by
    rw [lt_iff_rank, le_iff_rank, le_iff_rank]
    constructor
    · rintro ⟨a, ha, b, hb, hab⟩
      refine ⟨⟨a, ha, b, hb, hab.le⟩, ?_⟩
      rintro ⟨b', hb', a', ha', hba⟩
      obtain rfl := Option.mem_unique ha ha'
      obtain rfl := Option.mem_unique hb hb'
      exact hba.not_gt hab
    · rintro ⟨⟨a, ha, b, hb, -⟩, hnot⟩
      refine ⟨a, ha, b, hb, lt_of_not_ge fun hba => hnot ⟨b, hb, a, ha, hba⟩⟩

theorem isNumber_pi : Scalar.IsNumber (Scalar.pi : Float32) := by decide +kernel

end Float32

end SceneAssembly
