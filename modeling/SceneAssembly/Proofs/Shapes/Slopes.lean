/-
  SceneAssembly/Proofs/Shapes/Slopes.lean
  =======================================
  **The Bernstein basis and its derivatives.**

  The routine that computes both changes a row of Pascal's triangle in place,
  from its end to its start, and calls itself for the basis one degree lower.
  With every look-up checked (`routine?`) it still succeeds, and gives the values
  and the derivatives (`routine?_eq`).  An entry is changed before the one it
  takes from is, and this is what going backwards is for (`pascalStep_set`).

  Over the reals the derivatives are those of the Bernstein polynomials
  (`derivatives_eq`).
-/
import Mathlib.Analysis.Calculus.Deriv.Polynomial
import Mathlib.Topology.Algebra.Module.ModuleTopology
import SceneAssembly.Proofs.Shapes.Bernstein

namespace SceneAssembly.Bernstein

/-! ## 1. A row of Pascal's triangle, in place -/

section

variable {K : Type} [Scalar K] {row : List K} {n i k : Nat}

/-- Adds to each of the entries `k, …, 1` the one before it, in place and backwards; none if an
    entry is not there. -/
def descend : List K → Nat → Option (List K)
  | row, 0 => some row
  | row, k + 1 => do
    let own ← row[k + 1]?
    let before ← row[k]?
    descend (row.set (k + 1) (own + before)) k

/-- The row of `n`, changed in place from ones; none if an entry is not there. -/
def inPlace? (n : Nat) : Option (List K) :=
  ((List.range (n - 1)).map (· + 1)).foldlM descend (List.replicate (n + 1) 1)

theorem getElem_pascalStep {j : Nat} (hstep : j < (pascalStep row i).length)
    (hj : j < row.length) :
    (pascalStep row i)[j] = if 0 < j ∧ j ≤ i then row[j] + row[j - 1] else row[j] := by
  cases j <;> simp [pascalStep]

theorem pascalStep_zero (row : List K) : pascalStep row 0 = row := by
  refine List.ext_getElem (by simp) fun j hstep hj => ?_
  rw [getElem_pascalStep hstep hj, if_neg (by omega)]

/-- The last entry can be changed first, since no other one takes from it. -/
theorem pascalStep_set (hk : k + 1 < row.length) :
    pascalStep (row.set (k + 1) (row[k + 1] + row[k])) k = pascalStep row (k + 1) := by
  refine List.ext_getElem (by simp) fun j hset hstep => ?_
  have hj : j < row.length := by simpa using hstep
  rw [getElem_pascalStep hset (by simpa using hj), getElem_pascalStep hstep hj]
  simp only [List.getElem_set]
  rcases Nat.lt_trichotomy j (k + 1) with hlt | rfl | hgt
  · have hown : k + 1 ≠ j := by omega
    have hbefore : k + 1 ≠ j - 1 := by omega
    have hchanged : 0 < j ∧ j ≤ k ↔ 0 < j ∧ j ≤ k + 1 := by omega
    simp only [if_neg hown, if_neg hbefore, hchanged]
  · simp
  · rw [if_neg (by omega), if_neg (by omega), if_neg (by omega)]

theorem descend_eq (hk : k < row.length) : descend row k = some (pascalStep row k) := by
  induction k generalizing row with
  | zero => rw [descend, pascalStep_zero]
  | succ k ih =>
    have hset : k < (row.set (k + 1) (row[k + 1] + row[k])).length := by
      rw [List.length_set]
      exact Nat.lt_of_succ_lt hk
    rw [descend, List.getElem?_eq_getElem hk, List.getElem?_eq_getElem (Nat.lt_of_succ_lt hk)]
    exact (ih hset).trans (congrArg some (pascalStep_set hk))

theorem foldlM_descend {is : List Nat} (h : ∀ i ∈ is, i < row.length) :
    is.foldlM descend row = some (is.foldl pascalStep row) := by
  induction is generalizing row with
  | nil => rfl
  | cons i rest ih =>
    rw [List.foldlM_cons, descend_eq (h i List.mem_cons_self)]
    exact ih fun j hj => by simpa using h j (List.mem_cons_of_mem i hj)

/-- **No entry of the row is out of range.** -/
theorem inPlace?_eq (n : Nat) : inPlace? n = some (binomials n : List K) := by
  refine foldlM_descend fun i hi => ?_
  obtain ⟨j, hj, rfl⟩ := List.mem_map.mp hi
  rw [List.length_replicate]
  have hj := List.mem_range.mp hj
  omega

/-! ## 2. The routine with every look-up checked -/

theorem mapM_range_eq {α : Type} {f : Nat → Option α} {ys : List α}
    (h : ∀ i < ys.length, f i = ys[i]?) : (List.range ys.length).mapM f = some ys := by
  induction ys generalizing f with
  | nil => rfl
  | cons y rest ih =>
    have hrest : (List.range rest.length).mapM (f ∘ Nat.succ) = some rest :=
      ih fun i hi => h (i + 1) (Nat.succ_lt_succ hi)
    rw [List.length_cons, List.range_succ_eq_map, List.mapM_cons, List.mapM_map,
      h 0 (Nat.succ_pos _), hrest]
    rfl

/-- The value of a function of the basis; none if the coefficient is not there. -/
def value? (binom : List K) (n : Nat) (t : K) (i : Nat) : Option K := do
  let b ← binom[i]?
  return b * Scalar.pow t i * Scalar.pow (1 - t) (n - i)

/-- The derivative of a function of the basis of degree `n`, from the basis one degree lower; none
    if a value of that is not there. -/
def slope? (lower : List K) (n i : Nat) : Option K := do
  let left ← (if 0 < i then lower[i - 1]? else some 0)
  let right ← (if i < n then lower[i]? else some 0)
  return (n : K) * (left - right)

def values? (n : Nat) (t : K) : Option (List K) := do
  let binom ← inPlace? n
  (List.range (n + 1)).mapM (value? binom n t)

/-- The values and the derivatives of the basis; none if a look-up is out of range. -/
def routine? : Nat → K → Option (List K × List K)
  | 0, t => do return (← values? 0 t, [0])
  | n + 1, t => do
    let values ← values? (n + 1) t
    let (lower, _) ← routine? n t
    let derivatives ← (List.range (n + 2)).mapM (slope? lower (n + 1))
    return (values, derivatives)

theorem values?_eq (n : Nat) (t : K) : values? n t = some (values n t) := by
  have hvalue : ∀ i < (values n t).length, value? (binomials n) n t i = (values n t)[i]? := by
    intro i hi
    have hbinom : i < (binomials n : List K).length := by
      rwa [length_binomials, ← length_values n t]
    rw [value?, List.getElem?_eq_getElem hbinom, List.getElem?_eq_getElem hi]
    simp [values]
  have hvalues := mapM_range_eq hvalue
  rw [length_values] at hvalues
  rw [values?, inPlace?_eq]
  exact hvalues

/-- The zeros at both ends stand for the values that the basis one degree lower does not have. -/
theorem slope?_values (n : Nat) (t : K) {i : Nat} (hi : i < n + 2) :
    slope? (values n t) (n + 1) i = (derivatives (n + 1) t)[i]? := by
  have hleft : (if 0 < i then (values n t)[i - 1]? else some 0) = (0 :: values n t)[i]? := by
    cases i <;> simp
  have hright : (if i < n + 1 then (values n t)[i]? else some 0) = (values n t ++ [0])[i]? := by
    rw [List.getElem?_append, length_values]
    split
    next => rfl
    next hend =>
      have hlast : i - (n + 1) = 0 := by omega
      rw [hlast]
      rfl
  have hin : i < (0 :: values n t).length ∧ i < (values n t ++ [0]).length := by
    simpa [Nat.lt_succ_iff] using hi
  rw [slope?, hleft, hright, derivatives, List.getElem?_zipWith, List.getElem?_eq_getElem hin.1,
    List.getElem?_eq_getElem hin.2]
  rfl

/-- **The routine computes the values and the derivatives, and no look-up is out of range.** -/
theorem routine?_eq (n : Nat) (t : K) : routine? n t = some (values n t, derivatives n t) := by
  induction n with
  | zero => rw [routine?, values?_eq]; rfl
  | succ n ih =>
    have hslopes := mapM_range_eq fun i hi =>
      slope?_values n t (by rwa [length_derivatives] at hi)
    rw [length_derivatives] at hslopes
    rw [routine?, values?_eq, ih]
    simp only [Option.bind_eq_bind, Option.bind_some, hslopes]
    rfl

end

/-! ## 3. The derivatives -/

/-- The derivative of a function of the basis, as a real function. -/
noncomputable def slope (n i : Nat) (t : ℝ) : ℝ :=
  (Polynomial.derivative (bernsteinPolynomial ℝ n i)).eval t

theorem hasDerivAt_basis (n i : Nat) (t : ℝ) : HasDerivAt (basis n i) (slope n i t) t :=
  Polynomial.hasDerivAt _ t

theorem slope_zero_left (t : ℝ) : slope 0 0 t = 0 := by
  simp [slope, bernsteinPolynomial]

theorem slope_zero_right (n : Nat) (t : ℝ) :
    slope (n + 1) 0 t = ((n + 1 : Nat) : ℝ) * (0 - basis n 0 t) := by
  rw [slope, bernsteinPolynomial.derivative_zero, Nat.add_sub_cancel, Polynomial.eval_mul,
    Polynomial.eval_neg, Polynomial.eval_natCast, basis]
  ring

theorem slope_succ (n i : Nat) (t : ℝ) :
    slope (n + 1) (i + 1) t = ((n + 1 : Nat) : ℝ) * (basis n i t - basis n (i + 1) t) := by
  rw [slope, bernsteinPolynomial.derivative_succ, Nat.add_sub_cancel, Polynomial.eval_mul,
    Polynomial.eval_natCast, Polynomial.eval_sub, basis, basis]

/-- One function more than there are is zero. -/
theorem values_append_zero (n : Nat) (t : ℝ) :
    values n t ++ [0] = (List.range (n + 1 + 1)).map fun i => basis n i t := by
  have hbeyond : basis n (n + 1) t = 0 := by
    rw [basis, bernsteinPolynomial.eq_zero_of_lt ℝ (Nat.lt_succ_self n), Polynomial.eval_zero]
  rw [List.range_succ, List.map_append, ← values_eq, List.map_singleton, hbeyond]

theorem derivatives_eq (n : Nat) (t : ℝ) :
    derivatives n t = (List.range (n + 1)).map fun i => slope n i t := by
  cases n with
  | zero => simp [derivatives, slope_zero_left]
  | succ n =>
    have hfirst : List.range (n + 1 + 1) = 0 :: (List.range (n + 1)).map Nat.succ :=
      List.range_succ_eq_map
    rw [derivatives, Exact.ofNat_zero, values_append_zero, values_eq, hfirst]
    simp only [List.map_cons, List.map_map, List.zipWith_cons_cons, List.zipWith_map,
      List.zipWith_self, Function.comp_def, Nat.succ_eq_add_one, slope_zero_right, slope_succ]

theorem sum_slope (n : Nat) (t : ℝ) : ((List.range (n + 1)).map fun i => slope n i t).sum = 0 := by
  have hsum := congrArg (fun p => (Polynomial.derivative p).eval t) (bernsteinPolynomial.sum ℝ n)
  simp only [Polynomial.derivative_sum, Polynomial.eval_finsetSum, Polynomial.derivative_one,
    Polynomial.eval_zero] at hsum
  exact hsum

/-! ## 4. What the routine gives -/

/-- The lists for degree `n` at `t` are those of the Bernstein polynomials and their derivatives. -/
structure IsBasis (n : Nat) (t : ℝ) : Prop where
  /-- The row that is changed in place ends up with the binomial coefficients. -/
  coefficients : ∃ row : List ℝ, inPlace? n = some row ∧ ∀ k ≤ n, row[k]? = some (n.choose k : ℝ)
  values : ∀ i ≤ n, (values n t)[i]? = some (n.choose i * t ^ i * (1 - t) ^ (n - i))
  derivatives : ∀ i ≤ n, ∃ d, (derivatives n t)[i]? = some d ∧
    HasDerivAt (fun s : ℝ => n.choose i * s ^ i * (1 - s) ^ (n - i)) d t
  sum_values : (Bernstein.values n t).sum = 1
  sum_derivatives : (Bernstein.derivatives n t).sum = 0
  length_values : (Bernstein.values n t).length = n + 1
  length_derivatives : (Bernstein.derivatives n t).length = n + 1

theorem isBasis (n : Nat) (t : ℝ) : IsBasis n t where
  coefficients := by
    refine ⟨binomials n, inPlace?_eq n, fun k hk => ?_⟩
    rw [binomials_eq, List.getElem?_map, List.getElem?_range (Nat.lt_succ_of_le hk)]
    rfl
  values i hi := by
    rw [values_eq, List.getElem?_map, List.getElem?_range (Nat.lt_succ_of_le hi), Option.map_some,
      basis_eq]
  derivatives i hi := by
    refine ⟨slope n i t, ?_, ?_⟩
    · rw [derivatives_eq, List.getElem?_map, List.getElem?_range (Nat.lt_succ_of_le hi)]
      rfl
    · rw [← funext (basis_eq n i)]
      exact hasDerivAt_basis n i t
  sum_values := by rw [values_eq, sum_basis]
  sum_derivatives := by rw [derivatives_eq, sum_slope]
  length_values := Bernstein.length_values n t
  length_derivatives := Bernstein.length_derivatives n t

/-- **The basis and its derivatives are computed right.**  In any arithmetic the routine ends with
    the lists of values and derivatives and looks nothing up beyond the end of a list.  Without
    rounding these are the values of the Bernstein polynomials, which sum to one, and of their
    derivatives, which sum to zero. -/
theorem basis_and_slopes :
    (∀ (K : Type) [Scalar K] (n : Nat) (t : K), routine? n t = some (values n t, derivatives n t)) ∧
    ∀ (n : Nat) (t : ℝ), IsBasis n t :=
  ⟨fun _ _ => routine?_eq, isBasis⟩

end SceneAssembly.Bernstein
