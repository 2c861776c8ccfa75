/-
  SceneAssembly/Proofs/Shapes/Poles.lean
  ======================================
  **Which triangles of a sphere are left out.**

  Each cell of a sphere has an upper and a lower triangle.  All of them are
  drawn, once (`mem_triangles_iff`, `nodup_triangles`), but for the upper ones of
  a first row and the lower ones of a last row at a pole.  Whether a row is at a
  pole is decided twice, for the texture and for the triangles.  Where a section
  ends, the two decisions agree, whatever the angles (`not_lt_pi_iff`).  Where it
  starts, they agree only if the angle is not negative (`agreesAtStart_iff`):
  from a negative angle on, the first row is no pole to the texture, and its
  upper triangles are left out nevertheless.

  The decisions compare floats.  What is said holds of all of them, those that
  are not numbers among them.
-/
import Mathlib.Algebra.BigOperators.Ring.List
import Mathlib.Algebra.Group.Action.Defs
import Mathlib.Data.List.Nodup
import Mathlib.Tactic.Linarith
import SceneAssembly.Proofs.Comparison
import SceneAssembly.Proofs.Shapes.WellFormed

namespace SceneAssembly.SphereSpec

variable {K : Type} (s : SphereSpec K)

/-! ## 1. The triangles of a cell -/

/-- The upper triangle of a cell. -/
def upper (x y : Nat) : Nat × Nat × Nat :=
  (y * (s.around + 1) + (x + 1), y * (s.around + 1) + x, (y + 1) * (s.around + 1) + (x + 1))

/-- The lower triangle of a cell. -/
def lower (x y : Nat) : Nat × Nat × Nat :=
  (y * (s.around + 1) + x, (y + 1) * (s.around + 1) + x, (y + 1) * (s.around + 1) + (x + 1))

variable {s} {x y x' y' : Nat}

theorem upper_inj (hx : x < s.around) (hx' : x' < s.around) (h : s.upper x y = s.upper x' y') :
    x = x' ∧ y = y' :=
  Grid.vertex_inj (Nat.lt_succ_of_lt hx) (Nat.lt_succ_of_lt hx')
    (Prod.ext_iff.mp (Prod.ext_iff.mp h).2).1

theorem lower_inj (hx : x < s.around) (hx' : x' < s.around) (h : s.lower x y = s.lower x' y') :
    x = x' ∧ y = y' :=
  Grid.vertex_inj (Nat.lt_succ_of_lt hx) (Nat.lt_succ_of_lt hx') (Prod.ext_iff.mp h).1

/-- An upper triangle goes back along its row first, a lower one down to the next row. -/
theorem upper_ne_lower : s.upper x y ≠ s.lower x' y' := by
  intro h
  obtain ⟨hfirst, hrest⟩ := Prod.ext_iff.mp h
  have hsecond := (Prod.ext_iff.mp hrest).1
  simp only [upper, lower] at hfirst hsecond
  have hdown : (y' + 1) * (s.around + 1) = y' * (s.around + 1) + (s.around + 1) :=
    Nat.succ_mul y' (s.around + 1)
  omega

theorem one_lt_along (s : SphereSpec K) : 1 < s.along := Nat.le_max_right s.layers 2

variable [Scalar K] (s)

/-- What is drawn of a cell. -/
def drawn (x y : Nat) : List (Nat × Nat × Nat) :=
  (if s.drawsUpper y then [s.upper x y] else []) ++ if s.drawsLower y then [s.lower x y] else []

theorem cut_cell (x y : Nat) :
    3 ∣ (s.cell x y).length ∧ Triangles.cut (s.cell x y) = s.drawn x y := by
  unfold cell drawn
  cases s.drawsUpper y with
  | true =>
    cases s.drawsLower y with
    | true => exact ⟨⟨2, rfl⟩, rfl⟩
    | false => exact ⟨⟨1, rfl⟩, rfl⟩
  | false =>
    cases s.drawsLower y with
    | true => exact ⟨⟨1, rfl⟩, rfl⟩
    | false => exact ⟨⟨0, rfl⟩, rfl⟩

theorem triangles_build :
    s.build.triangles =
      (List.range s.along).flatMap fun y => (List.range s.around).flatMap fun x => s.drawn x y := by
  have hrow (y : Nat) : ∀ x ∈ List.range s.around, 3 ∣ (s.cell x y).length :=
    fun x _ => (s.cut_cell x y).1
  have hrows : ∀ y ∈ List.range s.along,
      3 ∣ ((List.range s.around).flatMap fun x => s.cell x y).length := by
    intro y _
    rw [List.length_flatMap]
    exact List.dvd_sum (by simpa using hrow y)
  show Triangles.cut ((List.range s.along).flatMap fun y =>
    (List.range s.around).flatMap fun x => s.cell x y) = _
  rw [Triangles.cut_flatMap hrows]
  simp only [Triangles.cut_flatMap (hrow _), (s.cut_cell _ _).2]

theorem mem_drawn_iff {t : Nat × Nat × Nat} :
    t ∈ s.drawn x y ↔
      s.drawsUpper y = true ∧ t = s.upper x y ∨ s.drawsLower y = true ∧ t = s.lower x y := by
  simp [drawn]

theorem mem_triangles_iff {t : Nat × Nat × Nat} :
    t ∈ s.build.triangles ↔ ∃ y < s.along, ∃ x < s.around,
      s.drawsUpper y = true ∧ t = s.upper x y ∨ s.drawsLower y = true ∧ t = s.lower x y := by
  rw [triangles_build]
  simp only [List.mem_flatMap, List.mem_range, mem_drawn_iff]

variable {s}

theorem upper_mem_iff (hx : x < s.around) (hy : y < s.along) :
    s.upper x y ∈ s.build.triangles ↔ s.drawsUpper y = true := by
  rw [mem_triangles_iff]
  constructor
  · rintro ⟨y', -, x', hx', ⟨hdraws, heq⟩ | ⟨-, heq⟩⟩
    · obtain ⟨-, rfl⟩ := upper_inj hx hx' heq
      exact hdraws
    · exact (upper_ne_lower heq).elim
  · exact fun hdraws => ⟨y, hy, x, hx, .inl ⟨hdraws, rfl⟩⟩

theorem lower_mem_iff (hx : x < s.around) (hy : y < s.along) :
    s.lower x y ∈ s.build.triangles ↔ s.drawsLower y = true := by
  rw [mem_triangles_iff]
  constructor
  · rintro ⟨y', -, x', hx', ⟨-, heq⟩ | ⟨hdraws, heq⟩⟩
    · exact (upper_ne_lower heq.symm).elim
    · obtain ⟨-, rfl⟩ := lower_inj hx hx' heq
      exact hdraws
  · exact fun hdraws => ⟨y, hy, x, hx, .inr ⟨hdraws, rfl⟩⟩

theorem nodup_drawn : (s.drawn x y).Nodup := by
  unfold drawn
  cases s.drawsUpper y with
  | true =>
    cases s.drawsLower y with
    | true => simpa using upper_ne_lower
    | false => simp
  | false =>
    cases s.drawsLower y with
    | true => simp
    | false => simp

/-- Two cells have no triangle in common. -/
theorem disjoint_drawn (hx : x < s.around) (hx' : x' < s.around) (h : ¬ (x = x' ∧ y = y')) :
    List.Disjoint (s.drawn x y) (s.drawn x' y') := by
  intro t ht ht'
  rw [mem_drawn_iff] at ht ht'
  rcases ht with ⟨-, rfl⟩ | ⟨-, rfl⟩
  · rcases ht' with ⟨-, heq⟩ | ⟨-, heq⟩
    · exact h (upper_inj hx hx' heq)
    · exact upper_ne_lower heq
  · rcases ht' with ⟨-, heq⟩ | ⟨-, heq⟩
    · exact upper_ne_lower heq.symm
    · exact h (lower_inj hx hx' heq)

theorem nodup_triangles : s.build.triangles.Nodup := by
  rw [triangles_build, List.nodup_flatMap]
  constructor
  -- Within a row the cells differ by their column, otherwise by their row.
  · intro y _
    rw [List.nodup_flatMap]
    refine ⟨fun x _ => nodup_drawn, List.nodup_range.pairwise_of_forall_ne ?_⟩
    intro x hx x' hx' hne
    exact disjoint_drawn (List.mem_range.mp hx) (List.mem_range.mp hx') fun heq => hne heq.1
  · refine List.nodup_range.pairwise_of_forall_ne ?_
    intro y _ y' _ hne t ht ht'
    obtain ⟨x, hx, ht⟩ := List.mem_flatMap.mp ht
    obtain ⟨x', hx', ht'⟩ := List.mem_flatMap.mp ht'
    exact disjoint_drawn (List.mem_range.mp hx) (List.mem_range.mp hx')
      (fun heq => hne heq.2) ht ht'

/-! ## 2. How many they are -/

theorem length_drawn (x y : Nat) :
    (s.drawn x y).length = (s.drawsUpper y).toNat + (s.drawsLower y).toNat := by
  unfold drawn
  cases s.drawsUpper y with
  | true => cases s.drawsLower y <;> rfl
  | false => cases s.drawsLower y <;> rfl

/-- Of some rows, all but one of which draw a triangle, all are counted but perhaps the one. -/
theorem sum_all_but {n k : Nat} (hk : k < n) {p : Nat → Bool} (h : ∀ y, y ≠ k → p y = true) :
    ((List.range n).map fun y => (p y).toNat).sum + (if p k then 0 else 1) = n := by
  induction n with
  | zero => exact absurd hk (Nat.not_lt_zero k)
  | succ n ih =>
    rw [List.range_succ, List.map_append, List.sum_append]
    -- Either the row in question is the last one, or it is among those before.
    by_cases hlast : k = n
    · subst hlast
      have hall : ((List.range k).map fun y => (p y).toNat) = List.replicate k 1 := by
        refine List.eq_replicate_iff.mpr ⟨by simp, fun m hm => ?_⟩
        obtain ⟨y, hy, rfl⟩ := List.mem_map.mp hm
        rw [h y (Nat.ne_of_lt (List.mem_range.mp hy))]
        rfl
      rw [hall, List.sum_replicate]
      cases hcase : p k <;> simp [hcase]
    · have hrest := ih (Nat.lt_of_le_of_ne (Nat.le_of_lt_succ hk) hlast)
      simp only [List.map_cons, List.map_nil, List.sum_cons, List.sum_nil, h n (Ne.symm hlast),
        Bool.toNat_true]
      omega

theorem sum_drawsUpper :
    ((List.range s.along).map fun y => (s.drawsUpper y).toNat).sum +
      (if 0 < s.thetaStart then 0 else 1) = s.along := by
  have hdraws : ∀ y, y ≠ 0 → s.drawsUpper y = true := fun y hy => by simp [drawsUpper, hy]
  have hrows := sum_all_but (Nat.zero_lt_of_lt s.one_lt_along) hdraws
  have hfirst : s.drawsUpper 0 = decide (0 < s.thetaStart) := rfl
  simpa [hfirst] using hrows

theorem sum_drawsLower :
    ((List.range s.along).map fun y => (s.drawsLower y).toNat).sum +
      (if s.thetaEnd < Scalar.pi then 0 else 1) = s.along := by
  have hpositive : 0 < s.along := Nat.zero_lt_of_lt s.one_lt_along
  have hdraws : ∀ y, y ≠ s.along - 1 → s.drawsLower y = true := by
    intro y hy
    have hne : y + 1 ≠ s.along := by omega
    simp [drawsLower, hne]
  have hrows := sum_all_but (Nat.sub_lt hpositive Nat.one_pos) hdraws
  have hlast : s.drawsLower (s.along - 1) = decide (s.thetaEnd < Scalar.pi) := by
    have heq : s.along - 1 + 1 = s.along := Nat.sub_add_cancel hpositive
    simp [drawsLower, heq]
  simpa [hlast] using hrows

theorem triangleCount_build :
    s.build.triangleCount + (if 0 < s.thetaStart then 0 else s.around) +
      (if s.thetaEnd < Scalar.pi then 0 else s.around) = 2 * s.around * s.along := by
  have hupper := congrArg (s.around * ·) (sum_drawsUpper (s := s))
  have hlower := congrArg (s.around * ·) (sum_drawsLower (s := s))
  have hcount : s.build.triangleCount =
      s.around * ((List.range s.along).map fun y => (s.drawsUpper y).toNat).sum +
        s.around * ((List.range s.along).map fun y => (s.drawsLower y).toNat).sum := by
    rw [← Geometry.length_triangles, triangles_build]
    simp only [List.length_flatMap, length_drawn, List.map_const', List.sum_replicate,
      List.length_range, smul_eq_mul, Nat.mul_add, List.sum_map_add, List.sum_map_mul_left]
  simp only [Nat.mul_add, mul_ite, mul_zero, mul_one] at hupper hlower
  rw [hcount]
  linarith

/-! ## 3. The two decisions about a pole -/

theorem drawsUpper_eq_false_iff : s.drawsUpper y = false ↔ y = 0 ∧ ¬ 0 < s.thetaStart := by
  simp [drawsUpper]

theorem drawsLower_eq_false_iff :
    s.drawsLower y = false ↔ y + 1 = s.along ∧ ¬ s.thetaEnd < Scalar.pi := by
  simp [drawsLower]

theorem upper_not_mem_iff (hx : x < s.around) (hy : y < s.along) :
    s.upper x y ∉ s.build.triangles ↔ y = 0 ∧ ¬ 0 < s.thetaStart := by
  rw [upper_mem_iff hx hy, Bool.not_eq_true, drawsUpper_eq_false_iff]

section Order

open Scalar

variable [LawfulOrder K]

/-- The end of a section is a number even if its angles are not. -/
theorem isNumber_thetaEnd (hpi : IsNumber (pi : K)) : IsNumber s.thetaEnd := by
  rw [thetaEnd, lesser]
  split
  next h => exact (LawfulOrder.isNumber_of_le (LawfulOrder.lt_iff.mp h).1).1
  next => exact hpi

theorem not_lt_pi_iff (hpi : IsNumber (pi : K)) : ¬ s.thetaEnd < pi ↔ pi ≤ s.thetaEnd := by
  rw [lt_iff_not_le (isNumber_thetaEnd hpi) hpi, not_not]

theorem lower_not_mem_iff (hpi : IsNumber (pi : K)) (hx : x < s.around) (hy : y < s.along) :
    s.lower x y ∉ s.build.triangles ↔ y + 1 = s.along ∧ pi ≤ s.thetaEnd := by
  rw [lower_mem_iff hx hy, Bool.not_eq_true, drawsLower_eq_false_iff, not_lt_pi_iff hpi]

/-- Not being positive is being zero for what is not negative, and for nothing else. -/
theorem not_pos_iff_same_zero {a : K} : (¬ 0 < a ↔ same a 0 = true) ↔ 0 ≤ a := by
  rw [LawfulOrder.lt_iff, same, Bool.and_eq_true, decide_eq_true_iff, decide_eq_true_iff]
  tauto

end Order

variable (s)

/-- In the first row the upper triangles are left out where the texture takes the row for a pole,
    and nowhere else. -/
def AgreesAtStart : Prop :=
  ∀ x < s.around, (s.upper x 0 ∉ s.build.triangles ↔ Scalar.same s.thetaStart 0 = true)

/-- In the last row the lower triangles are left out where the texture takes the row below them for
    a pole, and nowhere else. -/
def AgreesAtEnd : Prop :=
  ∀ x < s.around, (s.lower x (s.along - 1) ∉ s.build.triangles ↔ Scalar.pi ≤ s.thetaEnd)

/-- How a sphere is drawn. -/
structure IsDrawn : Prop where
  /-- Upper triangles are left out in a first row that does not start below the pole. -/
  upper : ∀ x < s.around, ∀ y < s.along,
    (s.upper x y ∉ s.build.triangles ↔ y = 0 ∧ ¬ 0 < s.thetaStart)
  /-- Lower triangles are left out in a last row that ends at the pole. -/
  lower : ∀ x < s.around, ∀ y < s.along,
    (s.lower x y ∉ s.build.triangles ↔ y + 1 = s.along ∧ Scalar.pi ≤ s.thetaEnd)
  /-- Nothing else is drawn. -/
  cells : ∀ t ∈ s.build.triangles, ∃ y < s.along, ∃ x < s.around,
    t = s.upper x y ∨ t = s.lower x y
  /-- Nothing is drawn twice. -/
  once : s.build.triangles.Nodup
  /-- A triangle for each segment is missing in each row that leaves triangles out. -/
  count : s.build.triangleCount + (if 0 < s.thetaStart then 0 else s.around) +
    (if Scalar.pi ≤ s.thetaEnd then s.around else 0) = 2 * s.around * s.along
  /-- The texture is shifted in a first row at the angle zero and in a last row at half a turn. -/
  shifted : ∃ uvs, s.build.uvs? = some uvs ∧ ∀ x ≤ s.around, ∀ y ≤ s.along,
    uvs[(s.around + 1) * y + x]? = some ⟨(x : K) / (s.around : K) +
      (if y = 0 ∧ Scalar.same s.thetaStart 0 then 0.5 / (s.around : K)
        else if y = s.along ∧ Scalar.pi ≤ s.thetaEnd then -0.5 / (s.around : K) else 0),
      1 - (y : K) / (s.along : K)⟩
  /-- At the end the triangles go with the texture. -/
  ends : s.AgreesAtEnd
  /-- At the start they do so unless the angle is below zero, or not a number. -/
  starts : s.AgreesAtStart ↔ 0 ≤ s.thetaStart

variable {s}

theorem agreesAtEnd [Scalar.LawfulOrder K] (hpi : Scalar.IsNumber (Scalar.pi : K)) :
    s.AgreesAtEnd := by
  intro x hx
  have hpositive : 0 < s.along := Nat.zero_lt_of_lt s.one_lt_along
  rw [lower_not_mem_iff hpi hx (Nat.sub_lt hpositive Nat.one_pos)]
  exact and_iff_right (Nat.sub_add_cancel hpositive)

theorem agreesAtStart_iff [Scalar.LawfulOrder K] : s.AgreesAtStart ↔ 0 ≤ s.thetaStart := by
  have hcells : s.AgreesAtStart ↔
      ∀ x < s.around, (¬ 0 < s.thetaStart ↔ Scalar.same s.thetaStart 0 = true) := by
    refine forall₂_congr fun x hx => ?_
    rw [upper_not_mem_iff hx (Nat.zero_lt_of_lt s.one_lt_along), and_iff_right rfl]
  have haround : 0 < s.around := Nat.lt_of_lt_of_le (by decide) (Nat.le_max_right s.slices 3)
  rw [hcells, not_pos_iff_same_zero]
  exact ⟨fun h => h 0 haround, fun h x _ => h⟩

/-- **What is left out of a sphere goes with the shifts of its texture, except above the north
    pole.**  All triangles of all cells are drawn, once, but for the upper ones of a first row that
    does not start below the pole and the lower ones of a last row that ends at the pole.  The last
    row is taken for a pole by the texture at the same angles; the first one is so exactly if the
    section does not start at a negative angle. -/
theorem left_out_at_poles (s : SphereSpec Float32) : s.IsDrawn where
  upper x hx y hy := upper_not_mem_iff hx hy
  lower x hx y hy := lower_not_mem_iff Float32.isNumber_pi hx hy
  cells t ht := by
    obtain ⟨y, hy, x, hx, ⟨-, heq⟩ | ⟨-, heq⟩⟩ := s.mem_triangles_iff.mp ht
    · exact ⟨y, hy, x, hx, .inl heq⟩
    · exact ⟨y, hy, x, hx, .inr heq⟩
  once := nodup_triangles
  count := by
    have hend : (if s.thetaEnd < Scalar.pi then 0 else s.around) =
        if Scalar.pi ≤ s.thetaEnd then s.around else 0 := by
      rw [← ite_not]
      exact if_congr (not_lt_pi_iff Float32.isNumber_pi) rfl rfl
    rw [← hend]
    exact triangleCount_build
  shifted := ⟨_, Geometry.uvs?_ofBuffers s.buffers, fun x hx y hy => Grid.getElem?_vertices _ hx hy⟩
  ends := agreesAtEnd Float32.isNumber_pi
  starts := agreesAtStart_iff

/-- A cap that starts half a radian beyond the pole. -/
def overhang : SphereSpec Float32 :=
  { SphereSpec.standard with slices := 3, layers := 2, thetaStart := -0.5, thetaLength := 1 }

/-- The overhanging cap has no upper triangles in its first row, which is no pole. -/
theorem overhang_not_agreesAtStart : ¬ ∀ s : SphereSpec Float32, s.AgreesAtStart := by
  intro h
  exact absurd (agreesAtStart_iff.mp (h overhang)) (by decide +kernel)

end SceneAssembly.SphereSpec
