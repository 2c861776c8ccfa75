/-
  SceneAssembly/Proofs/Shapes/TriangleTexture.lean
  ================================================
  **How the texture lies on a triangle.**

  The corners of a triangle are laid out in the plane of the texture: the first
  at the origin, the second along U at its true distance, the third at the true
  angle of the first corner.  A layout with the true distance of the third
  corner as well would be a copy of the triangle (`kept_flat`).  What is built
  puts the third corner at the distance of the *second* one
  (`sqGap_third`), so it is a copy exactly of the triangles whose edges at the
  first corner are equally long (`undistorted_iff`).

  Distances are compared by their squares, over the reals: the layout is a
  matter of square roots and quotients, and rounding them is not the point.
-/
import SceneAssembly.Proofs.Exact
import SceneAssembly.Proofs.Shapes.WellFormed

namespace SceneAssembly

namespace Exact

/-- The squared distance of two places in a texture. -/
def sqGap (u v : Vec2 ℝ) : ℝ := (u.x - v.x) ^ 2 + (u.y - v.y) ^ 2

/-- Two corners of a triangle as far from each other in the texture as in space. -/
def Kept (p q : Vec3 ℝ) (u v : Vec2 ℝ) : Prop := sqGap u v = p.distance q ^ 2

end Exact

namespace TriangleSpec

open Exact

variable (t : TriangleSpec ℝ)

/-! ## 1. The angle at the first corner -/

/-- The first edge, from the first corner to the second. -/
noncomputable def edge12 : Vec3 ℝ := t.corner2 - t.corner1

/-- The third edge, from the first corner to the third. -/
noncomputable def edge13 : Vec3 ℝ := t.corner3 - t.corner1

/-- The cosine of the angle between the two edges. -/
noncomputable def cosine : ℝ := t.edge12.dot t.edge13 / (t.edge12.length * t.edge13.length)

/-- The third corner in the plane, at its true angle and its true distance. -/
noncomputable def flat : Vec2 ℝ :=
  ⟨t.edge13.length * t.cosine, t.edge13.length * √(1 - t.cosine ^ 2)⟩

theorem distance_symm (p q : Vec3 ℝ) : p.distance q = (q - p).length := by
  show √(_) = √(_)
  congr 1
  show ((p.x - q.x) * (p.x - q.x) + (p.y - q.y) * (p.y - q.y) + (p.z - q.z) * (p.z - q.z) : ℝ) =
    (q.x - p.x) * (q.x - p.x) + (q.y - p.y) * (q.y - p.y) + (q.z - p.z) * (q.z - p.z)
  ring

theorem distance12 : t.corner1.distance t.corner2 = t.edge12.length := distance_symm _ _

theorem distance13 : t.corner1.distance t.corner3 = t.edge13.length := distance_symm _ _

theorem sq_distance23 : t.corner2.distance t.corner3 ^ 2 =
    t.edge12.length ^ 2 + t.edge13.length ^ 2 - 2 * t.edge12.dot t.edge13 := by
  rw [← sq_length_sub]
  have hsub : t.corner2 - t.corner3 = t.edge12 - t.edge13 := by
    ext
    · exact (sub_sub_sub_cancel_right t.corner2.x t.corner3.x t.corner1.x).symm
    · exact (sub_sub_sub_cancel_right t.corner2.y t.corner3.y t.corner1.y).symm
    · exact (sub_sub_sub_cancel_right t.corner2.z t.corner3.z t.corner1.z).symm
  rw [Vec3.distance, hsub]

variable {t}

section Spanning

variable (ha : 0 < t.edge12.length) (hc : 0 < t.edge13.length)

include ha hc

theorem cosine_mul : t.edge12.length * t.edge13.length * t.cosine = t.edge12.dot t.edge13 :=
  mul_div_cancel₀ _ (mul_pos ha hc).ne'

/-- The sides give the cosine by the law of cosines. -/
theorem cosine_of_sides :
    (t.edge12.length * t.edge12.length
        - t.corner2.distance t.corner3 * t.corner2.distance t.corner3
        + t.edge13.length * t.edge13.length) / (2 * t.edge12.length * t.edge13.length) =
      t.cosine := by
  have hb := t.sq_distance23
  have hcos := cosine_mul ha hc
  rw [div_eq_iff (by positivity)]
  linear_combination -hb - 2 * hcos

theorem sq_cosine_le_one : t.cosine ^ 2 ≤ 1 := by
  have hcross : 0 ≤ (t.edge12.cross t.edge13).length ^ 2 := sq_nonneg _
  rw [sq_length_cross, ← cosine_mul ha hc] at hcross
  have hpos : 0 < t.edge12.length ^ 2 * t.edge13.length ^ 2 := by positivity
  nlinarith

theorem cosine_bounds : -1 ≤ t.cosine ∧ t.cosine ≤ 1 :=
  abs_le.mp (sq_le_one_iff_abs_le_one _ |>.mp (sq_cosine_le_one ha hc))

theorem sq_sine : √(1 - t.cosine ^ 2) ^ 2 = 1 - t.cosine ^ 2 :=
  Real.sq_sqrt (sub_nonneg.mpr (sq_cosine_le_one ha hc))

/-! ## 2. The layout -/

/-- A place at the angle of the first corner and distance `r`, seen from a point of the U axis. -/
theorem sqGap_polar (r x : ℝ) :
    sqGap ⟨x, 0⟩ ⟨r * t.cosine, r * √(1 - t.cosine ^ 2)⟩ =
      x ^ 2 + r ^ 2 - 2 * x * r * t.cosine := by
  simp only [sqGap]
  linear_combination r ^ 2 * sq_sine ha hc

/-- With its true distance the third corner would be where the triangle has it. -/
theorem kept_flat :
    Kept t.corner1 t.corner3 ⟨0, 0⟩ t.flat ∧
      Kept t.corner2 t.corner3 ⟨t.edge12.length, 0⟩ t.flat := by
  constructor
  · rw [Kept, flat, sqGap_polar ha hc, distance13]
    ring
  · rw [Kept, flat, sqGap_polar ha hc, sq_distance23]
    linear_combination -2 * cosine_mul ha hc

/-- The layout, once the angle is cleared of its quotient. -/
theorem uvs_eq : t.uvs = [⟨0, 0⟩, ⟨t.edge12.length, 0⟩,
    ⟨t.edge12.length * t.cosine, t.edge12.length * √(1 - t.cosine ^ 2)⟩] := by
  obtain ⟨hlo, hhi⟩ := cosine_bounds ha hc
  have hsides := cosine_of_sides ha hc
  simp only [uvs, distance12, distance13, ofNat_zero, ofNat_one, sqrt_eq]
  rw [hsides, clamp_eq_self hlo hhi, ← sq]

/-- The third place has the distance of the second corner. -/
theorem sqGap_third :
    sqGap ⟨0, 0⟩ ⟨t.edge12.length * t.cosine, t.edge12.length * √(1 - t.cosine ^ 2)⟩ =
      t.edge12.length ^ 2 := by
  rw [sqGap_polar ha hc]
  ring

/-- So it is kept from the first corner where the two edges at that corner are equally long. -/
theorem kept_third_iff :
    Kept t.corner1 t.corner3 ⟨0, 0⟩
        ⟨t.edge12.length * t.cosine, t.edge12.length * √(1 - t.cosine ^ 2)⟩ ↔
      t.edge12.length = t.edge13.length := by
  rw [Kept, sqGap_third ha hc, distance13]
  exact sq_eq_sq₀ ha.le hc.le

end Spanning

/-! ## 3. What is built -/

variable {g : Geometry ℝ}

theorem uvs?_of_build (h : t.build = .ok g) : g.uvs? = some t.uvs := by
  unfold build at h
  split at h
  · cases h
  · cases h
    exact Geometry.uvs?_ofBuffers _

theorem exists_build (h : 0 < (t.edge12.cross t.edge13).length) : ∃ g, t.build = .ok g := by
  obtain ⟨n, hn⟩ := unit?_of_length_pos h
  unfold build
  split
  next hnone => cases hnone.symm.trans hn
  next => exact ⟨_, rfl⟩

/-- Corners that span a triangle are apart from the first. -/
theorem edges_pos_of_build (h : t.build = .ok g) : 0 < t.edge12.length ∧ 0 < t.edge13.length := by
  unfold build at h
  split at h
  · cases h
  next n hunit =>
    have hcross : 0 < (t.edge12.cross t.edge13).length ^ 2 :=
      pow_pos (length_pos_of_unit? hunit) 2
    rw [sq_length_cross] at hcross
    have hprod : 0 < t.edge12.length ^ 2 * t.edge13.length ^ 2 := by
      linarith [sq_nonneg (t.edge12.dot t.edge13)]
    constructor
    · exact (length_nonneg _).lt_of_ne' fun hzero => by simp [hzero] at hprod
    · exact (length_nonneg _).lt_of_ne' fun hzero => by simp [hzero] at hprod

/-- **A triangle's texture is undistorted exactly where its edges at the first corner are equally
    long.**  The first edge keeps its length and the first angle its size; the third corner is
    drawn in the direction of its true place `w`, but as far out as the second corner. -/
theorem undistorted_iff (h : t.build = .ok g) :
    ∃ u₁ u₂ u₃ w, g.uvs? = some [u₁, u₂, u₃] ∧
      Kept t.corner1 t.corner2 u₁ u₂ ∧
      (Kept t.corner1 t.corner3 u₁ w ∧ Kept t.corner2 t.corner3 u₂ w) ∧
      u₃.scale (t.corner1.distance t.corner3) = w.scale (t.corner1.distance t.corner2) ∧
      (Kept t.corner1 t.corner3 u₁ u₃ ∧ Kept t.corner2 t.corner3 u₂ u₃ ↔
        t.corner1.distance t.corner2 = t.corner1.distance t.corner3) := by
  obtain ⟨ha, hc⟩ := edges_pos_of_build h
  have hflat := kept_flat ha hc
  refine ⟨_, _, _, t.flat, (uvs?_of_build h).trans (congrArg some (uvs_eq ha hc)), ?_, hflat,
    ?_, ?_⟩
  · rw [Kept, sqGap, distance12]
    ring
  · rw [distance12, distance13, flat, Vec2.scale, Vec2.scale]
    congr 1
    · ring
    · ring
  · rw [kept_third_iff ha hc, distance12, distance13, and_iff_left_iff_imp]
    intro heq
    have hkept := hflat.2
    rwa [flat, ← heq] at hkept

/-- A right triangle with edges of three and four at the right angle. -/
noncomputable def setSquare : TriangleSpec ℝ := ⟨⟨0, 0, 0⟩, ⟨3, 0, 0⟩, ⟨0, 4, 0⟩⟩

theorem length12_setSquare : setSquare.edge12.length = 3 := by
  rw [← sq_eq_sq₀ (length_nonneg _) (by norm_num), sq_length]
  show ((3 - 0) * (3 - 0) + (0 - 0) * (0 - 0) + (0 - 0) * (0 - 0) : ℝ) = 3 ^ 2
  norm_num

theorem length13_setSquare : setSquare.edge13.length = 4 := by
  rw [← sq_eq_sq₀ (length_nonneg _) (by norm_num), sq_length]
  show ((0 - 0) * (0 - 0) + (4 - 0) * (4 - 0) + (0 - 0) * (0 - 0) : ℝ) = 4 ^ 2
  norm_num

theorem exists_build_setSquare : ∃ g, setSquare.build = .ok g := by
  have hdot : setSquare.edge12.dot setSquare.edge13 = 0 := by
    show ((3 - 0) * (0 - 0) + (0 - 0) * (4 - 0) + (0 - 0) * (0 - 0) : ℝ) = 0
    norm_num
  have hcross := sq_length_cross setSquare.edge12 setSquare.edge13
  rw [length12_setSquare, length13_setSquare, hdot] at hcross
  refine exists_build ((length_nonneg _).lt_of_ne' fun hzero => ?_)
  norm_num [hzero] at hcross

theorem undistorted_iff_setSquare :
    ∃ g, setSquare.build = .ok g ∧ ∃ u₁ u₂ u₃ w, g.uvs? = some [u₁, u₂, u₃] ∧
      Kept setSquare.corner1 setSquare.corner2 u₁ u₂ ∧
      (Kept setSquare.corner1 setSquare.corner3 u₁ w ∧
        Kept setSquare.corner2 setSquare.corner3 u₂ w) ∧
      u₃.scale (setSquare.corner1.distance setSquare.corner3) =
        w.scale (setSquare.corner1.distance setSquare.corner2) ∧
      (Kept setSquare.corner1 setSquare.corner3 u₁ u₃ ∧
          Kept setSquare.corner2 setSquare.corner3 u₂ u₃ ↔
        setSquare.corner1.distance setSquare.corner2 =
          setSquare.corner1.distance setSquare.corner3) := by
  obtain ⟨g, hg⟩ := exists_build_setSquare
  exact ⟨g, hg, undistorted_iff hg⟩

/-- The set square's texture is not a copy of it: its third edge is four long, and drawn three
    long. -/
theorem setSquare_distorted :
    ¬ ∀ (t : TriangleSpec ℝ) (g : Geometry ℝ), t.build = .ok g →
      ∃ u₁ u₂ u₃, g.uvs? = some [u₁, u₂, u₃] ∧ Kept t.corner1 t.corner2 u₁ u₂ ∧
        Kept t.corner2 t.corner3 u₂ u₃ ∧ Kept t.corner1 t.corner3 u₁ u₃ := by
  intro h
  obtain ⟨g, hg⟩ := exists_build_setSquare
  obtain ⟨ha, hc⟩ := edges_pos_of_build hg
  obtain ⟨u₁, u₂, u₃, huvs, -, -, hkept⟩ := h setSquare g hg
  rw [uvs?_of_build hg, uvs_eq ha hc] at huvs
  cases huvs
  have heq := (kept_third_iff ha hc).mp hkept
  rw [length12_setSquare, length13_setSquare] at heq
  norm_num at heq

end TriangleSpec

end SceneAssembly
