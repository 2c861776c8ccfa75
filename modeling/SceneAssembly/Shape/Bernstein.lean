/-
  SceneAssembly/Shape/Bernstein.lean
  ==================================
  **Bernstein polynomials.**

  The basis of degree `n` at `t` has the values `C(n,i) · t^i · (1-t)^(n-i)`.
  The binomial coefficients come from Pascal's triangle, whose rows are built
  within a list of ones, and the derivatives from the basis one degree lower.
-/
import SceneAssembly.Scalar

namespace SceneAssembly.Bernstein

variable {K : Type} [Scalar K]

/-- Adds to each of the entries `1, …, i` the one before it. -/
def pascalStep (row : List K) (i : Nat) : List K :=
  List.zipWith (fun k pair => if 0 < k ∧ k ≤ i then pair.1 + pair.2 else pair.1)
    (List.range row.length) (row.zip (0 :: row))

/-- The binomial coefficients of row `n`. -/
def binomials (n : Nat) : List K :=
  ((List.range (n - 1)).map (· + 1)).foldl pascalStep (List.replicate (n + 1) 1)

/-- The values of the basis of degree `n` at `t`. -/
def values (n : Nat) (t : K) : List K :=
  List.zipWith (fun i b => b * Scalar.pow t i * Scalar.pow (1 - t) (n - i))
    (List.range (n + 1)) (binomials n)

/-- The derivatives of the basis of degree `n` at `t`. -/
def derivatives (n : Nat) (t : K) : List K :=
  match n with
  | 0 => [0]
  | n + 1 =>
    let lower := values n t
    List.zipWith (fun left right => ((n + 1 : Nat) : K) * (left - right)) (0 :: lower) (lower ++ [0])

end SceneAssembly.Bernstein
