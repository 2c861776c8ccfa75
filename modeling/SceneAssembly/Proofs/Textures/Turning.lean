/-
  SceneAssembly/Proofs/Textures/Turning.lean
  ==========================================
  **What a turn does to the texture plane.**

  Without its turn a transform stretches and shifts each place of the texture
  plane (`unturned_apply`).  The turn is meant to go around the center, and seen
  from the center it does: what lies beside the center is stretched and then
  turned (`turned_apply`).  The center itself would stay where it is if the
  linear part were read by its rows (`center_stays_by_rows`), but a matrix acts
  by its columns, and so the center drifts: by the sine of the angle times its
  own coordinates, stretched (`drift`).  It is the pivot only where nothing is
  left of this product (`drift_eq_zero_iff`).

  The turn is given by its cosine and sine, over the reals.
-/
import SceneAssembly.Proofs.Exact
import SceneAssembly.Texture.Basic

namespace SceneAssembly

/-- The image of a place of the plane, the linear part of the matrix read by its rows. -/
noncomputable def Mat3.applyByRows (m : Mat3 ℝ) (p : Vec2 ℝ) : Vec3 ℝ :=
  ⟨m.colX.x * p.x + m.colX.y * p.y + m.colZ.x, m.colY.x * p.x + m.colY.y * p.y + m.colZ.y, 1⟩

namespace UvTransform

open Exact

variable (t : UvTransform ℝ) (c s u v : ℝ)

/-! ## 1. Without the turn -/

/-- The transform with its turn taken away. -/
noncomputable def unturned : UvTransform ℝ := { t with rotation := 0 }

theorem matrix_unturned : t.unturned.matrix = t.matrixOfTurn 1 0 := by
  show t.matrixOfTurn (Real.cos 0) (Real.sin 0) = _
  rw [Real.cos_zero, Real.sin_zero]

/-- The image of a place, its components written out. -/
theorem matrixOfTurn_apply :
    (t.matrixOfTurn c s).apply ⟨u, v, 1⟩ =
      ⟨c * t.tiling.x * u + -s * t.tiling.y * v +
          ((c * -t.center.x + s * -t.center.y + t.center.x) * t.tiling.x + t.offset.x),
        s * t.tiling.x * u + c * t.tiling.y * v +
          ((-s * -t.center.x + c * -t.center.y + t.center.y) * t.tiling.y + t.offset.y), 1⟩ := by
  ext
  · exact congrArg (_ + ·) (mul_one _)
  · exact congrArg (_ + ·) (mul_one _)
  · show (@OfNat.ofNat ℝ 0 (Scalar.instOfNat 0) * u + @OfNat.ofNat ℝ 0 (Scalar.instOfNat 0) * v +
      @OfNat.ofNat ℝ 1 (Scalar.instOfNat 1) * 1 : ℝ) = 1
    rw [ofNat_zero, ofNat_one]
    ring

theorem unturned_apply :
    t.unturned.matrix.apply ⟨u, v, 1⟩ =
      ⟨u * t.tiling.x + t.offset.x, v * t.tiling.y + t.offset.y, 1⟩ := by
  rw [matrix_unturned, matrixOfTurn_apply]
  ext
  · ring
  · ring
  · rfl

/-! ## 2. With the turn -/

/-- The turn with the given cosine and sine, in the texture plane. -/
def turn (c s x y : ℝ) : Vec3 ℝ := ⟨c * x - s * y, s * x + c * y, 0⟩

/-- How far the turn moves its own center. -/
noncomputable def drift : Vec3 ℝ :=
  ⟨-(s * t.center.y * (t.tiling.x + t.tiling.y)), s * t.center.x * (t.tiling.x + t.tiling.y), 0⟩

/-- **Every place under a turn.**  The offset from the center is stretched and turned; the center
    has its place without the turn, and drifts. -/
theorem turned_apply :
    (t.matrixOfTurn c s).apply ⟨u, v, 1⟩ =
      t.unturned.matrix.apply ⟨t.center.x, t.center.y, 1⟩ + t.drift s +
        turn c s ((u - t.center.x) * t.tiling.x) ((v - t.center.y) * t.tiling.y) := by
  rw [unturned_apply, matrixOfTurn_apply]
  ext
  · show _ = t.center.x * t.tiling.x + t.offset.x +
        -(s * t.center.y * (t.tiling.x + t.tiling.y)) +
        (c * ((u - t.center.x) * t.tiling.x) - s * ((v - t.center.y) * t.tiling.y))
    ring
  · show _ = t.center.y * t.tiling.y + t.offset.y +
        s * t.center.x * (t.tiling.x + t.tiling.y) +
        (s * ((u - t.center.x) * t.tiling.x) + c * ((v - t.center.y) * t.tiling.y))
    ring
  · show (1 : ℝ) = 1 + 0 + 0
    ring

/-- The center keeps its place if the linear part is read by its rows: the shift is meant for
    that part. -/
theorem center_stays_by_rows :
    (t.matrixOfTurn c s).applyByRows t.center =
      t.unturned.matrix.apply ⟨t.center.x, t.center.y, 1⟩ := by
  rw [unturned_apply]
  ext
  · show c * t.tiling.x * t.center.x + s * t.tiling.x * t.center.y +
        ((c * -t.center.x + s * -t.center.y + t.center.x) * t.tiling.x + t.offset.x) = _
    ring
  · show -s * t.tiling.y * t.center.x + c * t.tiling.y * t.center.y +
        ((-s * -t.center.x + c * -t.center.y + t.center.y) * t.tiling.y + t.offset.y) = _
    ring
  · rfl

/-! ## 3. The pivot -/

theorem center_apply :
    (t.matrixOfTurn c s).apply ⟨t.center.x, t.center.y, 1⟩ =
      t.unturned.matrix.apply ⟨t.center.x, t.center.y, 1⟩ + t.drift s := by
  have hturn : turn c s ((t.center.x - t.center.x) * t.tiling.x)
      ((t.center.y - t.center.y) * t.tiling.y) = ⟨0, 0, 0⟩ := by
    simp [turn]
  rw [turned_apply, hturn]
  exact (add_eq_left_iff _ _).mpr rfl

theorem drift_eq_zero_iff :
    t.drift s = ⟨0, 0, 0⟩ ↔
      s = 0 ∨ t.tiling.x + t.tiling.y = 0 ∨ t.center.x = 0 ∧ t.center.y = 0 := by
  simp only [drift, Vec3.mk.injEq, neg_eq_zero, mul_eq_zero]
  tauto

/-- **A turn goes around its center, but moves it.**  Without the turn a place is stretched and
    shifted.  With it, what lies beside the center is stretched and turned, while the center drifts
    away from its place; it is the pivot exactly if the sine is zero, or the stretches cancel, or
    the center is the origin.  The same entries with the linear part read by its rows would keep
    every center. -/
theorem pivot_iff :
    (∀ u v, t.unturned.matrix.apply ⟨u, v, 1⟩ =
      ⟨u * t.tiling.x + t.offset.x, v * t.tiling.y + t.offset.y, 1⟩) ∧
    (∀ u v, (t.matrixOfTurn c s).apply ⟨u, v, 1⟩ =
      t.unturned.matrix.apply ⟨t.center.x, t.center.y, 1⟩ + t.drift s +
        turn c s ((u - t.center.x) * t.tiling.x) ((v - t.center.y) * t.tiling.y)) ∧
    ((t.matrixOfTurn c s).apply ⟨t.center.x, t.center.y, 1⟩ =
        t.unturned.matrix.apply ⟨t.center.x, t.center.y, 1⟩ ↔
      s = 0 ∨ t.tiling.x + t.tiling.y = 0 ∨ t.center.x = 0 ∧ t.center.y = 0) ∧
    (t.matrixOfTurn c s).applyByRows t.center =
      t.unturned.matrix.apply ⟨t.center.x, t.center.y, 1⟩ := by
  refine ⟨t.unturned_apply, t.turned_apply c s, ?_, t.center_stays_by_rows c s⟩
  rw [center_apply, add_eq_left_iff, drift_eq_zero_iff]

/-- A quarter turn about the middle of the texture moves the middle. -/
theorem pivot_moves_quarter_turn :
    ¬ ∀ (t : UvTransform ℝ) (c s : ℝ), c * c + s * s = 1 →
      (t.matrixOfTurn c s).apply ⟨t.center.x, t.center.y, 1⟩ =
        (t.matrixOfTurn 1 0).apply ⟨t.center.x, t.center.y, 1⟩ := by
  intro h
  have hstays := h ⟨⟨0, 0⟩, ⟨1, 1⟩, 0, ⟨1 / 2, 1 / 2⟩⟩ 0 1 (by norm_num)
  rw [← matrix_unturned, center_apply, add_eq_left_iff, drift_eq_zero_iff] at hstays
  norm_num at hstays

end UvTransform

end SceneAssembly
