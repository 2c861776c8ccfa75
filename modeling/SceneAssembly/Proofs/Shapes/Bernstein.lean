/-
  SceneAssembly/Proofs/Shapes/Bernstein.lean
  ==========================================
  **The Bernstein basis, without rounding.**

  Each step of Pascal's triangle turns one of its rows, filled up with ones,
  into the next (`pascalStep_filledRow`), so that the last row holds the binomial
  coefficients; repeated squaring computes powers (`pow_eq`).  Over the reals
  the basis therefore has the values of the Bernstein polynomials (`values_eq`):
  on the unit interval they are nowhere negative and sum to one, and at its ends
  one of them is all there is.
-/
import Mathlib.RingTheory.Polynomial.Bernstein
import SceneAssembly.Proofs.Exact
import SceneAssembly.Shape.Bernstein

namespace SceneAssembly

/-! ## 1. Powers -/

namespace Scalar

/-- Squaring halves the exponent; an odd one leaves a factor over. -/
theorem powFrom_eq (acc base : ℝ) (n : Nat) : powFrom acc base n = acc * base ^ n := by
  fun_induction powFrom acc base n with
  | case1 acc base n acc' hn =>
    have hsmall : n = 0 ∨ n = 1 := by omega
    rcases hsmall with rfl | rfl
    · simp [acc']
    · simp [acc']
  | case2 acc base n acc' hn ih =>
    have hsquare : (base * base) ^ (n / 2) = base ^ (2 * (n / 2)) := by rw [← pow_two, ← pow_mul]
    rw [ih, hsquare]
    rcases Nat.mod_two_eq_zero_or_one n with heven | hodd
    · have hhalves : 2 * (n / 2) = n := by omega
      simp [acc', heven, hhalves]
    · have hhalves : n = 2 * (n / 2) + 1 := by omega
      have hacc : acc' = acc * base := if_pos hodd
      rw [hacc, mul_assoc, ← pow_succ', ← hhalves]

theorem pow_eq (base : ℝ) (n : Nat) : pow base n = base ^ n := by
  rw [pow, powFrom_eq, Exact.ofNat_one, one_mul]

end Scalar

namespace Bernstein

/-! ## 2. How much there is -/

section

variable {K : Type} [Scalar K]

@[simp] theorem length_pascalStep (row : List K) (i : Nat) :
    (pascalStep row i).length = row.length := by
  simp [pascalStep]

theorem length_foldl_pascalStep (is : List Nat) (row : List K) :
    (is.foldl pascalStep row).length = row.length := by
  induction is generalizing row with
  | nil => rfl
  | cons i rest ih => rw [List.foldl_cons, ih, length_pascalStep]

@[simp] theorem length_binomials (n : Nat) : (binomials n : List K).length = n + 1 := by
  rw [binomials, length_foldl_pascalStep, List.length_replicate]

@[simp] theorem length_values (n : Nat) (t : K) : (values n t).length = n + 1 := by
  simp [values]

@[simp] theorem length_derivatives (n : Nat) (t : K) : (derivatives n t).length = n + 1 := by
  cases n with
  | zero => rfl
  | succ n => simp [derivatives]

end

/-! ## 3. Pascal's triangle -/

/-- A row of Pascal's triangle, filled up with ones to `n + 1` entries. -/
def filledRow (n m : Nat) : List ℝ :=
  (List.range (n + 1)).map fun k => if k ≤ m then (m.choose k : ℝ) else 1

variable {n m k : Nat}

@[simp] theorem length_filledRow : (filledRow n m).length = n + 1 := by simp [filledRow]

theorem getElem_filledRow (hk : k < (filledRow n m).length) :
    (filledRow n m)[k] = if k ≤ m then (m.choose k : ℝ) else 1 := by
  simp [filledRow]

theorem replicate_eq_filledRow : List.replicate (n + 1) 1 = filledRow n 1 := by
  apply List.ext_getElem
  · simp
  · intro k _ hk
    rw [List.getElem_replicate, getElem_filledRow hk]
    rcases k with _ | _ | k
    · simp
    · simp
    · exact (if_neg (by omega)).symm

/-- An entry is the sum of the two above it; the row has one entry more than the last. -/
theorem pascalStep_filledRow : pascalStep (filledRow n m) m = filledRow n (m + 1) := by
  apply List.ext_getElem
  · simp [pascalStep]
  · intro k hleft hk
    simp only [pascalStep, List.getElem_zipWith, List.getElem_range, List.getElem_zip]
    rw [getElem_filledRow hk]
    rcases k with _ | k
    · simp [getElem_filledRow]
    · simp only [List.getElem_cons_succ, getElem_filledRow]
      rcases Nat.lt_trichotomy k m with hlt | rfl | hgt
      · have hsucc : k + 1 ≤ m := hlt
        have hle : k ≤ m := by omega
        simp [hsucc, hle, Nat.choose_succ_succ]
        ring
      · simp
      · have hsucc : ¬ k + 1 ≤ m := by omega
        have hnext : ¬ k ≤ m := by omega
        simp [hsucc, hnext]

theorem foldl_pascalStep (n m : Nat) :
    ((List.range m).map (· + 1)).foldl pascalStep (filledRow n 1) = filledRow n (m + 1) := by
  induction m with
  | zero => rfl
  | succ m ih =>
    rw [List.range_succ, List.map_append, List.foldl_append, ih]
    exact pascalStep_filledRow

/-- The row that the steps end with holds the binomial coefficients. -/
theorem binomials_eq (n : Nat) :
    binomials n = (List.range (n + 1)).map fun k => (n.choose k : ℝ) := by
  have hrow : binomials n = filledRow n (n - 1 + 1) := by
    rw [binomials, Exact.ofNat_one, replicate_eq_filledRow, foldl_pascalStep]
  rw [hrow, filledRow]
  apply List.map_congr_left
  intro k hk
  have hle : k ≤ n := Nat.lt_succ_iff.mp (List.mem_range.mp hk)
  rcases n with _ | n
  · have hzero : k = 0 := by omega
    simp [hzero]
  · simp [hle]

/-! ## 4. The values -/

/-- A function of the basis, as a real function. -/
noncomputable def basis (n i : Nat) (t : ℝ) : ℝ := (bernsteinPolynomial ℝ n i).eval t

theorem basis_eq (n i : Nat) (t : ℝ) :
    basis n i t = n.choose i * t ^ i * (1 - t) ^ (n - i) := by
  simp [basis, bernsteinPolynomial]

theorem values_eq (n : Nat) (t : ℝ) :
    values n t = (List.range (n + 1)).map fun i => basis n i t := by
  rw [values, binomials_eq, List.zipWith_map_right, List.zipWith_self]
  simp only [Scalar.pow_eq, Exact.ofNat_one, basis_eq]

theorem sum_basis (n : Nat) (t : ℝ) : ((List.range (n + 1)).map fun i => basis n i t).sum = 1 := by
  have hsum := congrArg (Polynomial.eval t) (bernsteinPolynomial.sum ℝ n)
  rw [Polynomial.eval_finsetSum, Polynomial.eval_one] at hsum
  exact hsum

theorem exists_basis_pos (n : Nat) (t : ℝ) : ∃ i ≤ n, 0 < basis n i t := by
  have hlt : ((List.range (n + 1)).map fun _ => (0 : ℝ)).sum
      < ((List.range (n + 1)).map fun i => basis n i t).sum := by
    simp [sum_basis]
  obtain ⟨i, hi, hpos⟩ := List.exists_lt_of_sum_lt _ _ hlt
  exact ⟨i, Nat.lt_succ_iff.mp (List.mem_range.mp hi), hpos⟩

theorem basis_nonneg (n i : Nat) {t : ℝ} (h0 : 0 ≤ t) (h1 : t ≤ 1) : 0 ≤ basis n i t := by
  have hother : 0 ≤ 1 - t := sub_nonneg.mpr h1
  rw [basis_eq]
  positivity

theorem basis_at_zero (n i : Nat) : basis n i 0 = if i = 0 then 1 else 0 :=
  bernsteinPolynomial.eval_at_0 ℝ n i

theorem basis_at_one (n i : Nat) : basis n i 1 = if i = n then 1 else 0 :=
  bernsteinPolynomial.eval_at_1 ℝ n i

end Bernstein

end SceneAssembly
