/-
  SceneAssembly/Proofs/Shapes/Patches.lean
  ========================================
  **The points of a rational patch.**

  Without rounding, every point of a patch is a mean of the control points: a
  control point has the share that its weight and its two bases have of the
  whole, and the whole is positive, because some function of each basis is
  (`weightSum_pos`).  A mean lies between the values it is taken of
  (`between_mean`), and it is a control point itself where no other one has a
  share (`evaluate_of_concentrated`), which is what the ends of the unit
  interval do to the bases.
-/
import SceneAssembly.Proofs.Shapes.Bernstein
import SceneAssembly.Proofs.Shapes.Fitting
import SceneAssembly.Shape.Surface

namespace SceneAssembly

/-! ## 1. Means -/

/-- The shares of `n` values in a mean: none is negative, and together they are all there is. -/
structure Shares (n : Nat) (shares : List ℝ) : Prop where
  length_eq : shares.length = n
  nonneg : ∀ a ∈ shares, 0 ≤ a
  sum_eq : shares.sum = 1

/-- Some of the values are not above `a`, and some are not below it. -/
structure Between (values : List ℝ) (a : ℝ) : Prop where
  below : ∃ lo ∈ values, lo ≤ a
  above : ∃ hi ∈ values, a ≤ hi

/-- The mean of values, by their shares. -/
def mean (shares values : List ℝ) : ℝ := (List.zipWith (· * ·) shares values).sum

/-- The mean of points, coordinate by coordinate. -/
def meanPoint (shares : List ℝ) (points : List (Vec3 ℝ)) : Vec3 ℝ :=
  ⟨mean shares (points.map Vec3.x), mean shares (points.map Vec3.y),
    mean shares (points.map Vec3.z)⟩

/-- A coordinate: it goes through the operations on vectors. -/
structure IsCoordinate (c : Vec3 ℝ → ℝ) : Prop where
  zero : c Vec3.zero = 0
  add : ∀ p q, c (p + q) = c p + c q
  scale : ∀ p a, c (p.scale a) = c p * a
  divide : ∀ p a, c (p.divide a) = c p / a

theorem isCoordinate_x : IsCoordinate Vec3.x :=
  ⟨Exact.ofNat_zero, fun _ _ => rfl, fun _ _ => rfl, fun _ _ => rfl⟩

theorem isCoordinate_y : IsCoordinate Vec3.y :=
  ⟨Exact.ofNat_zero, fun _ _ => rfl, fun _ _ => rfl, fun _ _ => rfl⟩

theorem isCoordinate_z : IsCoordinate Vec3.z :=
  ⟨Exact.ofNat_zero, fun _ _ => rfl, fun _ _ => rfl, fun _ _ => rfl⟩

theorem eq_of_coordinates {p q : Vec3 ℝ} (h : ∀ c, IsCoordinate c → c p = c q) : p = q := by
  ext
  · exact h Vec3.x isCoordinate_x
  · exact h Vec3.y isCoordinate_y
  · exact h Vec3.z isCoordinate_z

section Means

variable {α : Type} {l : List α} {share value : α → ℝ} {a : ℝ}

theorem mean_map (l : List α) (share value : α → ℝ) :
    mean (l.map share) (l.map value) = (l.map fun t => share t * value t).sum := by
  rw [mean, List.zipWith_map, List.zipWith_self]

theorem mean_neg :
    mean (l.map share) (l.map fun t => -value t) = -mean (l.map share) (l.map value) := by
  rw [mean_map, mean_map, ← neg_one_mul, ← List.sum_map_mul_left]
  congr 2
  funext t
  ring

/-- If all values were above the mean, so would be the mean itself. -/
theorem exists_le_mean (value : α → ℝ) (hnonneg : ∀ t ∈ l, 0 ≤ share t)
    (hsum : (l.map share).sum = 1) :
    ∃ t ∈ l, value t ≤ mean (l.map share) (l.map value) := by
  by_contra! habove
  have hsome : ∃ t ∈ l, 0 < share t := by
    apply List.exists_lt_of_sum_lt
    simp [hsum]
  have hlt : (l.map fun t => share t * mean (l.map share) (l.map value)).sum
      < (l.map fun t => share t * value t).sum := by
    apply List.sum_lt_sum
    · intro t ht
      exact mul_le_mul_of_nonneg_left (habove t ht).le (hnonneg t ht)
    · obtain ⟨t, ht, hpos⟩ := hsome
      exact ⟨t, ht, mul_lt_mul_of_pos_left (habove t ht) hpos⟩
  rw [List.sum_map_mul_right, hsum, one_mul, mean_map] at hlt
  exact lt_irrefl _ hlt

theorem between_mean (hnonneg : ∀ t ∈ l, 0 ≤ share t) (hsum : (l.map share).sum = 1) :
    Between (l.map value) (mean (l.map share) (l.map value)) := by
  constructor
  · obtain ⟨t, ht, hle⟩ := exists_le_mean value hnonneg hsum
    exact ⟨value t, List.mem_map_of_mem ht, hle⟩
  · obtain ⟨t, ht, hle⟩ := exists_le_mean (fun t => -value t) hnonneg hsum
    rw [mean_neg] at hle
    exact ⟨value t, List.mem_map_of_mem ht, neg_le_neg_iff.mp hle⟩

/-- A mean of which only one value has a share. -/
theorem mean_of_concentrated (hsum : (l.map share).sum = 1)
    (h : ∀ t ∈ l, share t = 0 ∨ value t = a) : mean (l.map share) (l.map value) = a := by
  have hsame : (l.map fun t => share t * value t) = l.map fun t => share t * a := by
    apply List.map_congr_left
    intro t ht
    rcases h t ht with hzero | rfl
    · rw [hzero, zero_mul, zero_mul]
    · rfl
  rw [mean_map, hsame, List.sum_map_mul_right, hsum, one_mul]

end Means

namespace SurfaceSpec

open Bernstein

/-! ## 2. Well-formed patches -/

/-- A rational patch: a grid of control points as large as the degrees ask for, each with a
positive weight unless none has one. -/
structure IsPatch (s : SurfaceSpec ℝ) : Prop where
  degreeU_pos : 1 ≤ s.degreeU
  degreeV_pos : 1 ≤ s.degreeV
  length_points : s.controlPoints.length = s.expected
  weights : s.weights = [] ∨ s.weights.length = s.expected ∧ ∀ w ∈ s.weights, 0 < w

variable {s : SurfaceSpec ℝ} {u v : ℝ} {t : Term ℝ} {i j : Nat}

/-- These are the patches in which the library finds no fault. -/
theorem fault?_eq_none_iff : s.fault? = none ↔ s.IsPatch := by
  constructor
  · intro h
    rw [fault?] at h
    split_ifs at h with hdegrees hpoints hempty hlength hany
    · exact ⟨by omega, by omega, not_not.mp hpoints, .inl (List.isEmpty_iff.mp hempty)⟩
    · have hpos : ∀ w ∈ s.weights, 0 < w := by simpa using hany
      exact ⟨by omega, by omega, not_not.mp hpoints, .inr ⟨not_not.mp hlength, hpos⟩⟩
  · rintro ⟨hU, hV, hpoints, hweights⟩
    rw [fault?, if_neg (by omega), if_neg (not_not.mpr hpoints)]
    rcases hweights with hnone | ⟨hlength, hpos⟩
    · rw [hnone]
      rfl
    · rw [if_neg (not_not.mpr hlength)]
      simpa using fun _ => hpos

/-! ## 3. The terms of a point -/

/-- The term of the control point in row `i` and column `j`. -/
structure Term.IsAt (t : Term ℝ) (s : SurfaceSpec ℝ) (u v : ℝ) (i j : Nat) : Prop where
  row_le : i ≤ s.degreeU
  column_le : j ≤ s.degreeV
  bu_eq : t.bu = basis s.degreeU i u
  bv_eq : t.bv = basis s.degreeV j v
  weight_pos : 0 < t.weight
  point_eq : s.controlPoints[i * (s.degreeV + 1) + j]? = some t.point

/-- The weights, one each where there are none. -/
def weighting (s : SurfaceSpec ℝ) : List ℝ :=
  if s.weights.isEmpty then s.controlPoints.map fun _ => 1 else s.weights

/-- A basis, each value with its derivative. -/
noncomputable def pairs (n : Nat) (t : ℝ) : List (ℝ × ℝ) := (values n t).zip (derivatives n t)

theorem terms_eq : s.terms u v = List.zipWith
    (fun (b, c) (weight, point) => ⟨b.1, b.2, c.1, c.2, weight, point⟩)
    ((pairs s.degreeU u).flatMap fun b => (pairs s.degreeV v).map fun c => (b, c))
    (s.weighting.zip s.controlPoints) := by
  simp only [terms, weighting, pairs, Exact.ofNat_one]

@[simp] theorem length_pairs (n : Nat) (t : ℝ) : (pairs n t).length = n + 1 := by
  simp [pairs]

theorem fst_of_pairs {n : Nat} {t : ℝ} {b : ℝ × ℝ} (hb : (pairs n t)[i]? = some b) :
    b.1 = basis n i t := by
  have hvalue : (values n t)[i]? = some b.1 := (List.getElem?_zip_eq_some.mp hb).1
  rw [values_eq, List.getElem?_map, Option.map_eq_some_iff] at hvalue
  obtain ⟨i', hi', hval⟩ := hvalue
  obtain ⟨hlt, rfl⟩ := List.getElem?_eq_some_iff.mp hi'
  rw [← hval, List.getElem_range]

theorem IsPatch.length_weighting (h : s.IsPatch) : s.weighting.length = s.expected := by
  rw [weighting]
  rcases h.weights with hnone | ⟨hlength, -⟩
  · simp [hnone, h.length_points]
  · split
    · rw [List.length_map, h.length_points]
    · exact hlength

theorem IsPatch.weighting_pos (h : s.IsPatch) : ∀ w ∈ s.weighting, 0 < w := by
  intro w hw
  rw [weighting] at hw
  split at hw
  next =>
    obtain ⟨-, -, rfl⟩ := List.mem_map.mp hw
    exact one_pos
  next hsome =>
    rcases h.weights with hnone | ⟨-, hpos⟩
    · simp [hnone] at hsome
    · exact hpos w hw

theorem IsPatch.length_terms (h : s.IsPatch) : (s.terms u v).length = s.expected := by
  rw [terms_eq]
  simp [h.length_weighting, h.length_points, expected]

/-- The terms lie in the order of the control points, row by row. -/
theorem IsPatch.isAt_of_getElem? (h : s.IsPatch) (hj : j ≤ s.degreeV)
    (ht : (s.terms u v)[i * (s.degreeV + 1) + j]? = some t) : t.IsAt s u v i j := by
  rw [terms_eq, List.getElem?_zipWith_eq_some] at ht
  obtain ⟨⟨b, c⟩, ⟨weight, point⟩, hbases, hpoint, rfl⟩ := ht
  obtain ⟨hweight, hpoint⟩ := List.getElem?_zip_eq_some.mp hpoint
  have hi : i ≤ s.degreeU := by
    have hlt := (List.getElem?_eq_some_iff.mp hpoint).1
    rw [h.length_points, expected] at hlt
    have hrow : i * (s.degreeV + 1) < (s.degreeU + 1) * (s.degreeV + 1) := by omega
    exact Nat.lt_succ_iff.mp (Nat.lt_of_mul_lt_mul_right hrow)
  obtain ⟨b', hb'⟩ : ∃ b', (pairs s.degreeU u)[i]? = some b' :=
    ⟨_, List.getElem?_eq_getElem (by simpa using hi)⟩
  obtain ⟨c', hc'⟩ : ∃ c', (pairs s.degreeV v)[j]? = some c' :=
    ⟨_, List.getElem?_eq_getElem (by simpa using hj)⟩
  have hrows (b : ℝ × ℝ) : ((pairs s.degreeV v).map fun c => (b, c)).length = s.degreeV + 1 := by
    simp
  rw [Nat.mul_comm, getElem?_flatMap hrows hb' (Nat.lt_succ_iff.mpr hj), List.getElem?_map, hc',
    Option.map_some, Option.some.injEq, Prod.mk.injEq] at hbases
  obtain ⟨rfl, rfl⟩ := hbases
  exact ⟨hi, hj, fst_of_pairs hb', fst_of_pairs hc',
    h.weighting_pos weight (List.mem_of_getElem? hweight), hpoint⟩

theorem IsPatch.isAt_of_mem (h : s.IsPatch) (ht : t ∈ s.terms u v) : ∃ i j, t.IsAt s u v i j := by
  obtain ⟨k, hk⟩ := List.mem_iff_getElem?.mp ht
  have hj : k % (s.degreeV + 1) ≤ s.degreeV := Nat.lt_succ_iff.mp (Nat.mod_lt _ (by omega))
  rw [← Nat.div_add_mod' k (s.degreeV + 1)] at hk
  exact ⟨_, _, h.isAt_of_getElem? hj hk⟩

theorem IsPatch.mem_of_isAt (h : s.IsPatch) (hi : i ≤ s.degreeU) (hj : j ≤ s.degreeV) :
    ∃ t ∈ s.terms u v, t.IsAt s u v i j := by
  have hlt : i * (s.degreeV + 1) + j < (s.terms u v).length := by
    rw [h.length_terms, expected, Nat.succ_mul]
    have hrow : i * (s.degreeV + 1) ≤ s.degreeU * (s.degreeV + 1) := Nat.mul_le_mul_right _ hi
    omega
  have ht := List.getElem?_eq_getElem hlt
  exact ⟨_, List.mem_of_getElem? ht, h.isAt_of_getElem? hj ht⟩

/-! ## 4. The sums -/

theorem weightSum_eq (ts : List (Term ℝ)) (first second : Term ℝ → ℝ) :
    weightSum ts first second = (ts.map fun t => t.weight * first t * second t).sum := by
  rw [weightSum, Exact.ofNat_zero, List.sum_eq_foldl, List.foldl_map]

theorem coordinate_pointSum {c : Vec3 ℝ → ℝ} (hc : IsCoordinate c) (ts : List (Term ℝ))
    (factor : Term ℝ → ℝ) :
    c (pointSum ts factor) = (ts.map fun t => c t.point * t.weight * factor t).sum := by
  have hfold : ts.foldl (fun sum t => sum + c t.point * t.weight * factor t) (c Vec3.zero)
      = c (pointSum ts factor) := by
    apply List.foldl_hom c
    intro p t
    rw [hc.add, hc.scale, hc.scale]
  rw [← hfold, hc.zero, List.sum_eq_foldl, List.foldl_map]

/-- What a term has of the whole. -/
noncomputable def share (s : SurfaceSpec ℝ) (u v : ℝ) (t : Term ℝ) : ℝ :=
  t.weight * t.bu * t.bv / weightSum (s.terms u v) Term.bu Term.bv

/-- A coordinate of a point of the surface is a mean of that of the terms' points. -/
theorem coordinate_evaluate {c : Vec3 ℝ → ℝ} (hc : IsCoordinate c) (s : SurfaceSpec ℝ) (u v : ℝ) :
    c (s.evaluate u v).1
      = mean ((s.terms u v).map (s.share u v)) ((s.terms u v).map fun t => c t.point) := by
  rw [evaluate, hc.divide, coordinate_pointSum hc, mean_map, div_eq_mul_inv,
    ← List.sum_map_mul_right]
  congr 2
  funext t
  rw [share]
  ring

theorem IsPatch.map_point (h : s.IsPatch) : (s.terms u v).map Term.point = s.controlPoints := by
  rw [terms_eq, ← List.map_uncurry_zip_eq_zipWith, List.map_map]
  show List.map (Prod.snd ∘ Prod.snd) _ = _
  rw [← List.map_map, List.map_snd_zip, List.map_snd_zip]
  · rw [h.length_weighting, h.length_points]
  · simp [h.length_weighting, h.length_points, expected]

/-- A convex combination of the control points, whose coordinates lie between theirs. -/
structure IsMean (s : SurfaceSpec ℝ) (p : Vec3 ℝ) : Prop where
  combines : ∃ shares, Shares s.controlPoints.length shares ∧ p = meanPoint shares s.controlPoints
  x_between : Between (s.controlPoints.map Vec3.x) p.x
  y_between : Between (s.controlPoints.map Vec3.y) p.y
  z_between : Between (s.controlPoints.map Vec3.z) p.z

section UnitInterval

variable (hu : u ∈ Set.Icc 0 1) (hv : v ∈ Set.Icc 0 1)

include hu hv

theorem IsPatch.weighted_nonneg (h : s.IsPatch) (ht : t ∈ s.terms u v) :
    0 ≤ t.weight * t.bu * t.bv := by
  obtain ⟨i, j, hat⟩ := h.isAt_of_mem ht
  have hu0 : 0 ≤ t.bu := hat.bu_eq ▸ basis_nonneg _ i hu.1 hu.2
  have hv0 : 0 ≤ t.bv := hat.bv_eq ▸ basis_nonneg _ j hv.1 hv.2
  exact mul_nonneg (mul_nonneg hat.weight_pos.le hu0) hv0

/-- Each basis has a positive function there, and the product of two has a positive weight. -/
theorem IsPatch.weightSum_pos (h : s.IsPatch) :
    0 < weightSum (s.terms u v) Term.bu Term.bv := by
  obtain ⟨i, hi, hipos⟩ := exists_basis_pos s.degreeU u
  obtain ⟨j, hj, hjpos⟩ := exists_basis_pos s.degreeV v
  obtain ⟨t, ht, hat⟩ := h.mem_of_isAt (u := u) (v := v) hi hj
  have hpos : 0 < t.weight * t.bu * t.bv := by
    rw [hat.bu_eq, hat.bv_eq]
    exact mul_pos (mul_pos hat.weight_pos hipos) hjpos
  have hnonneg : ∀ x ∈ (s.terms u v).map fun t => t.weight * t.bu * t.bv, 0 ≤ x := by
    simpa using fun t ht => h.weighted_nonneg hu hv ht
  rw [weightSum_eq]
  exact hpos.trans_le (List.single_le_sum hnonneg _ (List.mem_map_of_mem ht))

theorem IsPatch.share_nonneg (h : s.IsPatch) : ∀ t ∈ s.terms u v, 0 ≤ s.share u v t :=
  fun _ ht => div_nonneg (h.weighted_nonneg hu hv ht) (h.weightSum_pos hu hv).le

theorem IsPatch.sum_share (h : s.IsPatch) : ((s.terms u v).map (s.share u v)).sum = 1 := by
  have hshare : s.share u v
      = fun t => t.weight * t.bu * t.bv * (weightSum (s.terms u v) Term.bu Term.bv)⁻¹ :=
    funext fun _ => div_eq_mul_inv _ _
  rw [hshare, List.sum_map_mul_right, ← weightSum_eq,
    mul_inv_cancel₀ (h.weightSum_pos hu hv).ne']

theorem IsPatch.isMean (h : s.IsPatch) : s.IsMean (s.evaluate u v).1 := by
  have hnonneg := h.share_nonneg hu hv
  have hsum := h.sum_share hu hv
  have hcoordinate {c : Vec3 ℝ → ℝ} (hc : IsCoordinate c) : c (s.evaluate u v).1
      = mean ((s.terms u v).map (s.share u v)) (s.controlPoints.map c) := by
    rw [coordinate_evaluate hc, ← h.map_point (u := u) (v := v), List.map_map]
    rfl
  have hbetween {c : Vec3 ℝ → ℝ} (hc : IsCoordinate c) :
      Between (s.controlPoints.map c) (c (s.evaluate u v).1) := by
    rw [coordinate_evaluate hc, ← h.map_point, List.map_map]
    exact between_mean hnonneg hsum
  constructor
  case combines =>
    refine ⟨(s.terms u v).map (s.share u v), ⟨?_, ?_, hsum⟩, ?_⟩
    · rw [List.length_map, h.length_terms, h.length_points]
    · simpa using hnonneg
    · ext
      · exact hcoordinate isCoordinate_x
      · exact hcoordinate isCoordinate_y
      · exact hcoordinate isCoordinate_z
  case x_between => exact hbetween isCoordinate_x
  case y_between => exact hbetween isCoordinate_y
  case z_between => exact hbetween isCoordinate_z

/-- A point where one function of each basis is all there is. -/
theorem IsPatch.evaluate_of_concentrated (h : s.IsPatch) (hi : i ≤ s.degreeU) (hj : j ≤ s.degreeV)
    (honlyU : ∀ i' ≠ i, basis s.degreeU i' u = 0) (honlyV : ∀ j' ≠ j, basis s.degreeV j' v = 0) :
    s.controlPoints[i * (s.degreeV + 1) + j]? = some (s.evaluate u v).1 := by
  obtain ⟨t₀, -, hat₀⟩ := h.mem_of_isAt (u := u) (v := v) hi hj
  have hconcentrated : ∀ t ∈ s.terms u v, s.share u v t = 0 ∨ t.point = t₀.point := by
    intro t ht
    obtain ⟨i', j', hat⟩ := h.isAt_of_mem ht
    by_cases hrow : i' = i
    · by_cases hcolumn : j' = j
      · rw [hrow, hcolumn] at hat
        exact .inr (Option.some.inj (hat.point_eq.symm.trans hat₀.point_eq))
      · simp [share, hat.bv_eq, honlyV j' hcolumn]
    · simp [share, hat.bu_eq, honlyU i' hrow]
  rw [hat₀.point_eq, Option.some.injEq]
  apply eq_of_coordinates
  intro c hc
  rw [coordinate_evaluate hc]
  refine (mean_of_concentrated (h.sum_share hu hv) fun t ht => ?_).symm
  exact (hconcentrated t ht).imp_right (congrArg c)

end UnitInterval

/-! ## 5. The corners -/

/-- The points of a patch: means of the control points, and four of these at its corners. -/
structure Interpolates (s : SurfaceSpec ℝ) : Prop where
  denominator_pos : ∀ u ∈ Set.Icc 0 1, ∀ v ∈ Set.Icc 0 1,
    0 < weightSum (s.terms u v) Term.bu Term.bv
  isMean : ∀ u ∈ Set.Icc 0 1, ∀ v ∈ Set.Icc 0 1, s.IsMean (s.evaluate u v).1
  corner_zero_zero : s.controlPoints[0]? = some (s.evaluate 0 0).1
  corner_zero_one : s.controlPoints[s.degreeV]? = some (s.evaluate 0 1).1
  corner_one_zero : s.controlPoints[s.degreeU * (s.degreeV + 1)]? = some (s.evaluate 1 0).1
  corner_one_one :
    s.controlPoints[(s.degreeU + 1) * (s.degreeV + 1) - 1]? = some (s.evaluate 1 1).1

/-- **A patch stays among its control points and meets its corners.** -/
theorem interpolates_of_isPatch (h : s.IsPatch) : s.Interpolates := by
  have hzero : (0 : ℝ) ∈ Set.Icc 0 1 := ⟨le_rfl, zero_le_one⟩
  have hone : (1 : ℝ) ∈ Set.Icc 0 1 := ⟨zero_le_one, le_rfl⟩
  have hfirst (n : Nat) : ∀ i ≠ 0, basis n i 0 = 0 := by
    intro i hi
    rw [basis_at_zero, if_neg hi]
  have hlast (n : Nat) : ∀ i ≠ n, basis n i 1 = 0 := by
    intro i hi
    rw [basis_at_one, if_neg hi]
  constructor
  case denominator_pos => exact fun u hu v hv => h.weightSum_pos hu hv
  case isMean => exact fun u hu v hv => h.isMean hu hv
  case corner_zero_zero =>
    have hcorner := h.evaluate_of_concentrated hzero hzero (Nat.zero_le _) (Nat.zero_le _)
      (hfirst _) (hfirst _)
    rwa [Nat.zero_mul] at hcorner
  case corner_zero_one =>
    have hcorner := h.evaluate_of_concentrated hzero hone (Nat.zero_le _) le_rfl
      (hfirst _) (hlast _)
    rwa [Nat.zero_mul, Nat.zero_add] at hcorner
  case corner_one_zero =>
    exact h.evaluate_of_concentrated hone hzero le_rfl (Nat.zero_le _) (hlast _) (hfirst _)
  case corner_one_one =>
    have hcorner := h.evaluate_of_concentrated hone hone le_rfl le_rfl (hlast _) (hlast _)
    rwa [show (s.degreeU + 1) * (s.degreeV + 1) - 1 = s.degreeU * (s.degreeV + 1) + s.degreeV by
      rw [Nat.succ_mul]; omega]

/-- An arch, two by one: its crest weighs twice as much as its feet. -/
noncomputable def arch : SurfaceSpec ℝ where
  degreeU := 2
  degreeV := 1
  partsU := 4
  partsV := 1
  controlPoints := [⟨0, 0, 0⟩, ⟨0, 3, 0⟩, ⟨1, 0, 1⟩, ⟨1, 3, 1⟩, ⟨2, 0, 0⟩, ⟨2, 3, 0⟩]
  weights := [1, 1, 2, 2, 1, 1]

theorem interpolates_of_isPatch_arch : arch.IsPatch ∧ arch.Interpolates := by
  have h : arch.IsPatch := ⟨by decide, le_rfl, rfl, .inr ⟨rfl, by simp [arch]⟩⟩
  exact ⟨h, interpolates_of_isPatch h⟩

end SurfaceSpec

end SceneAssembly
