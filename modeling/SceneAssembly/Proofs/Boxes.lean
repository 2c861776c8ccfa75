/-
  SceneAssembly/Proofs/Boxes.lean
  ===============================
  **What boxes hold.**

  A box holds a point if each coordinate of the point lies between those of the
  ends of the box (`Bounds.Holds`).  A union holds what its parts hold, so the box
  of some points holds them.  Where arithmetic is monotone a box that is moved
  holds the moved points (`Bounds.holds_transform`): of the two ends of an axis one
  has the lesser multiple, whatever the sign of the factor, so among the corners
  there is one whose image is below that of the point in a given coordinate, and
  one whose image is above (`Bounds.exists_corners`).
-/
import SceneAssembly.Proofs.Monotone
import SceneAssembly.Shape.Box

namespace SceneAssembly

open Scalar (IsNumber LawfulOrder MonotoneArithmetic)

variable {K : Type}

/-! ## 1. Coordinates -/

namespace Vec3

/-- The coordinate of a point along an axis. -/
def along (p : Vec3 K) : Axis → K
  | .x => p.x
  | .y => p.y
  | .z => p.z

@[simp] theorem along_splat (s : K) (i : Axis) : (splat s).along i = s := by cases i <;> rfl

variable [Scalar K]

/-- A point with numbers for coordinates. -/
def IsNumeric (p : Vec3 K) : Prop := ∀ i, IsNumber (p.along i)

theorem isNumeric_iff {p : Vec3 K} :
    p.IsNumeric ↔ IsNumber p.x ∧ IsNumber p.y ∧ IsNumber p.z := by
  refine ⟨fun h => ⟨h .x, h .y, h .z⟩, fun ⟨hx, hy, hz⟩ i => ?_⟩
  cases i with
  | x => exact hx
  | y => exact hy
  | z => exact hz

instance (p : Vec3 K) : Decidable p.IsNumeric := decidable_of_iff' _ isNumeric_iff

@[simp] theorem along_lesser (p q : Vec3 K) (i : Axis) :
    (p.lesser q).along i = Scalar.lesser (p.along i) (q.along i) := by cases i <;> rfl

@[simp] theorem along_greater (p q : Vec3 K) (i : Axis) :
    (p.greater q).along i = Scalar.greater (p.along i) (q.along i) := by cases i <;> rfl

end Vec3

theorem Affine.along_apply [Scalar K] (m : Affine K) (p : Vec3 K) (i : Axis) :
    (m.apply p).along i = m.linear.colX.along i * p.x + m.linear.colY.along i * p.y +
      m.linear.colZ.along i * p.z + m.offset.along i := by
  cases i <;> rfl

namespace Bounds

/-- The box of one point. -/
def point (p : Vec3 K) : Bounds K := ⟨p, p⟩

/-- A corner takes each coordinate from one of the ends. -/
theorem mem_corners {b : Bounds K} {x y z : K} (hx : x = b.min.x ∨ x = b.max.x)
    (hy : y = b.min.y ∨ y = b.max.y) (hz : z = b.min.z ∨ z = b.max.z) : ⟨x, y, z⟩ ∈ b.corners := by
  rcases hx with rfl | rfl <;> rcases hy with rfl | rfl <;> rcases hz with rfl | rfl <;>
    simp [corners]

variable [Scalar K] {b c : Bounds K} {p : Vec3 K}

/-! ## 2. Points in boxes -/

/-- A box with numbers for ends. -/
structure IsNumeric (b : Bounds K) : Prop where
  min : b.min.IsNumeric
  max : b.max.IsNumeric

/-- The point lies in the box. -/
def Holds (b : Bounds K) (p : Vec3 K) : Prop :=
  ∀ i, b.min.along i ≤ p.along i ∧ p.along i ≤ b.max.along i

theorem isEmpty_iff : b.isEmpty = true ↔ ∃ i, b.max.along i < b.min.along i := by
  simp only [isEmpty, Bool.or_eq_true, decide_eq_true_eq, or_assoc]
  constructor
  · rintro (h | h | h)
    · exact ⟨.x, h⟩
    · exact ⟨.y, h⟩
    · exact ⟨.z, h⟩
  · rintro ⟨i, h⟩
    cases i with
    | x => exact .inl h
    | y => exact .inr (.inl h)
    | z => exact .inr (.inr h)

theorem isNumeric_union (hb : b.IsNumeric) (hc : c.IsNumeric) : (b.union c).IsNumeric where
  min i := by
    show IsNumber ((b.min.lesser c.min).along i)
    rw [Vec3.along_lesser, Scalar.lesser]
    split
    · exact hb.min i
    · exact hc.min i
  max i := by
    show IsNumber ((b.max.greater c.max).along i)
    rw [Vec3.along_greater, Scalar.greater]
    split
    · exact hb.max i
    · exact hc.max i

theorem isNumeric_foldl_union {cs : List (Bounds K)} (hb : b.IsNumeric)
    (hcs : ∀ c ∈ cs, c.IsNumeric) : (cs.foldl union b).IsNumeric := by
  induction cs generalizing b with
  | nil => exact hb
  | cons c rest ih =>
    rw [List.forall_mem_cons] at hcs
    exact ih (isNumeric_union hb hcs.1) hcs.2

theorem ofPoints_cons (p : Vec3 K) (ps : List (Vec3 K)) :
    ofPoints (p :: ps) = (ps.map point).foldl union (point p) := by
  rw [List.foldl_map]
  rfl

theorem isNumeric_point (hp : p.IsNumeric) : (point p).IsNumeric := ⟨hp, hp⟩

theorem holds_point (hp : p.IsNumeric) : (point p).Holds p := fun i => ⟨hp i, hp i⟩

/-- The box of some points is stretched from the empty box, where no value is beyond its ends. -/
theorem ofPoints_eq_foldl (hmin : ∀ x : K, ¬ Scalar.infinity < x)
    (hmax : ∀ x : K, ¬ x < -Scalar.infinity) (ps : List (Vec3 K)) :
    ofPoints ps = ps.foldl extend empty := by
  cases ps with
  | nil => rfl
  | cons p rest =>
    have hpoint : empty.extend p = ⟨p, p⟩ := by
      simp [extend, empty, Vec3.lesser, Vec3.greater, Vec3.splat, Scalar.lesser, Scalar.greater,
        hmin, hmax]
    rw [List.foldl_cons, hpoint]
    rfl

variable {ps : List (Vec3 K)}

theorem isNumeric_map_point (hps : ∀ p ∈ ps, p.IsNumeric) : ∀ c ∈ ps.map point, c.IsNumeric := by
  intro c hc
  obtain ⟨p, hp, rfl⟩ := List.mem_map.mp hc
  exact isNumeric_point (hps p hp)

theorem isNumeric_ofPoints (hne : ps ≠ []) (hps : ∀ p ∈ ps, p.IsNumeric) :
    (ofPoints ps).IsNumeric := by
  cases ps with
  | nil => exact absurd rfl hne
  | cons q rest =>
    rw [List.forall_mem_cons] at hps
    rw [ofPoints_cons]
    exact isNumeric_foldl_union (isNumeric_point hps.1) (isNumeric_map_point hps.2)

/-- The ends of a union are those of its parts, coordinate by coordinate. -/
theorem ends_union (b c : Bounds K) (i : Axis) :
    ((b.union c).min.along i = b.min.along i ∨ (b.union c).min.along i = c.min.along i) ∧
      ((b.union c).max.along i = b.max.along i ∨ (b.union c).max.along i = c.max.along i) := by
  rw [union, Vec3.along_lesser, Vec3.along_greater, Scalar.lesser, Scalar.greater]
  exact ⟨ite_eq_or_eq _ _ _, ite_eq_or_eq _ _ _⟩

/-- What every union takes from one of its parts, a union of many takes from one of them. -/
theorem exists_eq_foldl_union (value : Bounds K → K)
    (h : ∀ b c, value (b.union c) = value b ∨ value (b.union c) = value c)
    (cs : List (Bounds K)) (b : Bounds K) :
    ∃ c ∈ b :: cs, value (cs.foldl union b) = value c := by
  induction cs generalizing b with
  | nil => exact ⟨b, List.mem_cons_self, rfl⟩
  | cons c rest ih =>
    obtain ⟨d, hd, hvalue⟩ := ih (b.union c)
    rw [List.foldl_cons, hvalue]
    rcases List.mem_cons.mp hd with rfl | hd
    · rcases h b c with hb | hc
      · exact ⟨b, List.mem_cons_self, hb⟩
      · exact ⟨c, List.mem_cons_of_mem _ List.mem_cons_self, hc⟩
    · exact ⟨d, List.mem_cons_of_mem _ (List.mem_cons_of_mem _ hd), rfl⟩

/-- On each side of the box of some points lies one of them. -/
theorem exists_ends_ofPoints (hne : ps ≠ []) (i : Axis) :
    (∃ p ∈ ps, (ofPoints ps).min.along i = p.along i) ∧
      ∃ p ∈ ps, (ofPoints ps).max.along i = p.along i := by
  cases ps with
  | nil => exact absurd rfl hne
  | cons q rest =>
    have hmin := exists_eq_foldl_union (fun b => b.min.along i) (fun b c => (ends_union b c i).1)
      (rest.map point) (point q)
    have hmax := exists_eq_foldl_union (fun b => b.max.along i) (fun b c => (ends_union b c i).2)
      (rest.map point) (point q)
    rw [← List.map_cons] at hmin hmax
    rw [ofPoints_cons]
    obtain ⟨_, hleast, hmin⟩ := hmin
    obtain ⟨_, hgreatest, hmax⟩ := hmax
    obtain ⟨p, hp, rfl⟩ := List.mem_map.mp hleast
    obtain ⟨p', hp', rfl⟩ := List.mem_map.mp hgreatest
    exact ⟨⟨p, hp, hmin⟩, p', hp', hmax⟩

section LawfulOrder

variable [LawfulOrder K]

theorem Holds.isEmpty_eq_false (h : b.Holds p) : b.isEmpty = false := by
  rw [Bool.eq_false_iff, ne_eq, isEmpty_iff]
  rintro ⟨i, hi⟩
  exact (LawfulOrder.lt_iff.mp hi).2 (LawfulOrder.le_trans (h i).1 (h i).2)

/-- A union holds what its parts hold. -/
theorem holds_union (hb : b.IsNumeric) (hc : c.IsNumeric) (h : b.Holds p ∨ c.Holds p) :
    (b.union c).Holds p := by
  intro i
  have hmin := Scalar.lesser_le (hb.min i) (hc.min i)
  have hmax := Scalar.le_greater (hb.max i) (hc.max i)
  rw [← Vec3.along_lesser] at hmin
  rw [← Vec3.along_greater] at hmax
  rcases h with h | h
  · exact ⟨LawfulOrder.le_trans hmin.1 (h i).1, LawfulOrder.le_trans (h i).2 hmax.1⟩
  · exact ⟨LawfulOrder.le_trans hmin.2 (h i).1, LawfulOrder.le_trans (h i).2 hmax.2⟩

theorem holds_foldl_union {cs : List (Bounds K)} (hb : b.IsNumeric) (hcs : ∀ c ∈ cs, c.IsNumeric)
    (h : b.Holds p ∨ ∃ c ∈ cs, c.Holds p) : (cs.foldl union b).Holds p := by
  induction cs generalizing b with
  | nil => exact h.resolve_right (by simp)
  | cons c rest ih =>
    rw [List.forall_mem_cons] at hcs
    rw [List.exists_mem_cons_iff, ← or_assoc] at h
    exact ih (isNumeric_union hb hcs.1) hcs.2 (h.imp_left (holds_union hb hcs.1))

/-- The box of some points holds them. -/
theorem holds_ofPoints (hps : ∀ p ∈ ps, p.IsNumeric) (hp : p ∈ ps) : (ofPoints ps).Holds p := by
  have hself := holds_point (hps p hp)
  cases ps with
  | nil => cases hp
  | cons q rest =>
    rw [List.forall_mem_cons] at hps
    rw [ofPoints_cons]
    refine holds_foldl_union (isNumeric_point hps.1) (isNumeric_map_point hps.2) ?_
    rcases List.mem_cons.mp hp with rfl | hp
    · exact .inl hself
    · exact .inr ⟨point p, List.mem_map_of_mem hp, hself⟩

end LawfulOrder

/-! ## 3. Boxes that are moved -/

variable {m : Affine K}

theorem transform_eq (h : b.isEmpty = false) :
    b.transform m = ofPoints (b.corners.map m.apply) := by
  rw [transform, h]
  rfl

section MonotoneArithmetic

variable [MonotoneArithmetic K] {q : Vec3 K}

/-- If a coordinate of an image is a number, so is all that it is made from. -/
theorem isNumber_terms {i : Axis} (h : IsNumber ((m.apply p).along i)) :
    IsNumber (m.linear.colX.along i * p.x) ∧ IsNumber (m.linear.colY.along i * p.y) ∧
      IsNumber (m.linear.colZ.along i * p.z) ∧ IsNumber (m.offset.along i) := by
  rw [Affine.along_apply] at h
  obtain ⟨hlinear, hoffset⟩ := MonotoneArithmetic.isNumber_of_add h
  obtain ⟨hxy, hz⟩ := MonotoneArithmetic.isNumber_of_add hlinear
  obtain ⟨hx, hy⟩ := MonotoneArithmetic.isNumber_of_add hxy
  exact ⟨hx, hy, hz, hoffset⟩

theorem isNumeric_of_apply (h : (m.apply p).IsNumeric) : p.IsNumeric := by
  obtain ⟨hx, hy, hz, -⟩ := isNumber_terms (h .x)
  exact Vec3.isNumeric_iff.mpr ⟨(MonotoneArithmetic.isNumber_of_mul hx).2,
    (MonotoneArithmetic.isNumber_of_mul hy).2, (MonotoneArithmetic.isNumber_of_mul hz).2⟩

/-- Images are in order if their terms are. -/
theorem along_apply_le {i : Axis} (hp : IsNumber ((m.apply p).along i))
    (hq : IsNumber ((m.apply q).along i))
    (hx : m.linear.colX.along i * p.x ≤ m.linear.colX.along i * q.x)
    (hy : m.linear.colY.along i * p.y ≤ m.linear.colY.along i * q.y)
    (hz : m.linear.colZ.along i * p.z ≤ m.linear.colZ.along i * q.z) :
    (m.apply p).along i ≤ (m.apply q).along i := by
  have hoffset := (isNumber_terms hp).2.2.2
  rw [Affine.along_apply] at hp hq
  rw [Affine.along_apply, Affine.along_apply]
  have hp' := (MonotoneArithmetic.isNumber_of_add hp).1
  have hq' := (MonotoneArithmetic.isNumber_of_add hq).1
  have hxy := MonotoneArithmetic.add_le_add hx hy (MonotoneArithmetic.isNumber_of_add hp').1
    (MonotoneArithmetic.isNumber_of_add hq').1
  exact MonotoneArithmetic.add_le_add (MonotoneArithmetic.add_le_add hxy hz hp' hq') hoffset hp hq

/-- Among the corners one has its image below that of a point in the box, and one has it above. -/
theorem exists_corners (h : b.Holds p) (hp : (m.apply p).IsNumeric)
    (hcorners : ∀ c ∈ b.corners, (m.apply c).IsNumeric) (i : Axis) :
    ∃ u ∈ b.corners, ∃ v ∈ b.corners, (m.apply u).along i ≤ (m.apply p).along i ∧
      (m.apply p).along i ≤ (m.apply v).along i := by
  have hmin := isNumber_terms (hcorners _ (mem_corners (.inl rfl) (.inl rfl) (.inl rfl)) i)
  have hmax := isNumber_terms (hcorners _ (mem_corners (.inr rfl) (.inr rfl) (.inr rfl)) i)
  have himage := isNumber_terms (hp i)
  obtain ⟨ux, vx, hux, hvx, hxu, hxv⟩ :=
    Scalar.exists_ends (h .x).1 (h .x).2 hmin.1 himage.1 hmax.1
  obtain ⟨uy, vy, huy, hvy, hyu, hyv⟩ :=
    Scalar.exists_ends (h .y).1 (h .y).2 hmin.2.1 himage.2.1 hmax.2.1
  obtain ⟨uz, vz, huz, hvz, hzu, hzv⟩ :=
    Scalar.exists_ends (h .z).1 (h .z).2 hmin.2.2.1 himage.2.2.1 hmax.2.2.1
  have hu := mem_corners hux huy huz
  have hv := mem_corners hvx hvy hvz
  exact ⟨_, hu, _, hv, along_apply_le (hcorners _ hu i) (hp i) hxu hyu hzu,
    along_apply_le (hp i) (hcorners _ hv i) hxv hyv hzv⟩

/-- A box that is moved holds the images of what it holds. -/
theorem holds_transform (h : b.Holds p) (hp : (m.apply p).IsNumeric)
    (hcorners : ∀ c ∈ b.corners, (m.apply c).IsNumeric) : (b.transform m).Holds (m.apply p) := by
  have himages : ∀ c ∈ b.corners, (ofPoints (b.corners.map m.apply)).Holds (m.apply c) :=
    fun c hc => holds_ofPoints (by simpa using hcorners) (List.mem_map_of_mem hc)
  rw [transform_eq h.isEmpty_eq_false]
  intro i
  obtain ⟨u, hu, v, hv, hlo, hhi⟩ := exists_corners h hp hcorners i
  exact ⟨LawfulOrder.le_trans (himages u hu i).1 hlo, LawfulOrder.le_trans hhi (himages v hv i).2⟩

end MonotoneArithmetic

end Bounds

end SceneAssembly
