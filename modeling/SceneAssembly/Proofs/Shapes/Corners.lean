/-
  SceneAssembly/Proofs/Shapes/Corners.lean
  ========================================
  **Rectangles and boxes between two corners.**

  What is built between two corners lies around the origin and has the extents
  that the corners are apart by, so it can be said without the corners.  A
  rectangle is one grid (`RectangleSpec.vertex`).  A box has a face on either
  side of each axis, and a face is a grid along the other two
  (`BoxSpec.IsFace`): it has the extents of the box along them and its counts of
  parts, and its columns and rows run in such directions that going from a step
  down to a step across turns around the side the face is on.

  The axes are named, so that what holds of all three is said once, by the
  coordinate along an axis.  Corners that agree in a coordinate enclose nothing,
  and this is the only reason not to build (`RectangleSpec.exists_build_iff`,
  `BoxSpec.build_eq_ok_iff`).
-/
import SceneAssembly.Proofs.Exact
import SceneAssembly.Proofs.Boxes
import SceneAssembly.Proofs.Shapes.WellFormed

namespace SceneAssembly

/-! ## 1. Coordinates along axes -/

namespace Vec3

variable {K : Type} {p q : Vec3 K}

theorem ext_along (h : ∀ i, p.along i = q.along i) : p = q := by
  ext
  · exact h .x
  · exact h .y
  · exact h .z

@[simp] theorem along_set (v : Vec3 K) (i j : Axis) (s : K) :
    (v.set i s).along j = if j = i then s else v.along j := by
  cases i <;> cases j <;> rfl

variable (u v : Vec3 ℝ) (i : Axis)

@[simp] theorem along_zero : (zero : Vec3 ℝ).along i = 0 := by
  cases i <;> exact Exact.ofNat_zero

@[simp] theorem along_add : (u + v).along i = u.along i + v.along i := by cases i <;> rfl

@[simp] theorem along_sub : (u - v).along i = u.along i - v.along i := by cases i <;> rfl

@[simp] theorem along_mul : (u * v).along i = u.along i * v.along i := by cases i <;> rfl

@[simp] theorem along_neg : (-u).along i = -u.along i := by cases i <;> rfl

@[simp] theorem along_scale (s : ℝ) : (u.scale s).along i = u.along i * s := by cases i <;> rfl

@[simp] theorem along_abs : u.abs.along i = |u.along i| := by cases i <;> rfl

end Vec3

/-- Whether a turn from `v` to `u` is one around `w` or around its opposite; zero if these are not
    three different axes. -/
def Axis.turn : (u v w : Axis) → ℝ
  | .z, .y, .x | .x, .z, .y | .y, .x, .z => 1
  | .y, .z, .x | .z, .x, .y | .x, .y, .z => -1
  | _, _, _ => 0

theorem Axis.apart_of_turn {u v w : Axis} (h : turn u v w ≠ 0) : u ≠ v ∧ u ≠ w ∧ v ≠ w := by
  revert h
  cases u <;> cases v <;> cases w <;> simp [turn]

theorem Vec3.cross_set {u v w : Axis} (h : Axis.turn u v w ≠ 0) (s t : ℝ) :
    (zero.set v s).cross (zero.set u t) = zero.set w (Axis.turn u v w * (s * t)) := by
  revert h
  cases u <;> cases v <;> cases w <;> simp [Axis.turn, cross, set, zero, mul_comm]

/-! ## 2. Rectangles -/

theorem Grid.map_vertices {α β : Type} (g : α → β) (cols rows : Nat) (f : Nat → Nat → α) :
    (vertices cols rows f).map g = vertices cols rows fun ix iy => g (f ix iy) := by
  simp only [vertices, List.map_flatMap, List.map_map]
  rfl

namespace RectangleSpec

def cols {K : Type} (r : RectangleSpec K) : Nat := max r.partsX 1

def rows {K : Type} (r : RectangleSpec K) : Nat := max r.partsY 1

variable (r : RectangleSpec ℝ)

/-- How far the corners are apart along X. -/
def width : ℝ := |r.corner2.x - r.corner1.x|

/-- How far the corners are apart along Y. -/
def height : ℝ := |r.corner2.y - r.corner1.y|

/-- A vertex of the rectangle around the origin, from the left and from the top. -/
noncomputable def vertex (ix iy : Nat) : Vec3 ℝ :=
  ⟨ix * (r.width / r.cols) - r.width / 2, r.height / 2 - iy * (r.height / r.rows), 0⟩

/-- The buffers of the rectangle around the origin. -/
noncomputable def centred : Buffers ℝ :=
  { r.buffers with positions := Grid.vertices r.cols r.rows r.vertex }

theorem size_eq : r.size = ⟨r.width, r.height⟩ := by
  show (⟨Scalar.greater r.corner1.x r.corner2.x - Scalar.lesser r.corner1.x r.corner2.x,
    Scalar.greater r.corner1.y r.corner2.y - Scalar.lesser r.corner1.y r.corner2.y⟩ : Vec2 ℝ) = _
  simp only [Exact.greater_eq_max, Exact.lesser_eq_min, max_sub_min_eq_abs, width, height,
    abs_sub_comm]

/-- The lesser and the greater of two coordinates, seen from their middle. -/
theorem sub_middle (a b : ℝ) :
    Scalar.lesser a b - (a + b) * 0.5 = -(|b - a| / 2) ∧
      Scalar.greater a b - (a + b) * 0.5 = |b - a| / 2 := by
  have hsum := min_add_max a b
  have hgap := max_sub_min_eq_abs a b
  rw [Exact.lesser_eq_min, Exact.greater_eq_max]
  constructor
  · linarith
  · linarith

/-- Moved to its middle, the rectangle lies around the origin. -/
theorem moved_buffers : r.buffers.moved r.offset = r.centred := by
  obtain ⟨hleft, -⟩ := sub_middle r.corner1.x r.corner2.x
  obtain ⟨-, htop⟩ := sub_middle r.corner1.y r.corner2.y
  rw [Buffers.moved, centred, Buffers.mk.injEq]
  refine ⟨?_, rfl, rfl, rfl⟩
  simp only [buffers, offset, Exact.ofNat_zero]
  rw [r.size_eq, Grid.map_vertices]
  show Grid.vertices r.cols r.rows _ = Grid.vertices r.cols r.rows r.vertex
  congr
  funext ix iy
  ext
  · show Scalar.lesser r.corner1.x r.corner2.x + ix * (r.width / r.cols) +
      -((r.corner1.x + r.corner2.x) * 0.5) = ix * (r.width / r.cols) - r.width / 2
    rw [width] at *
    linarith
  · show Scalar.greater r.corner1.y r.corner2.y - iy * (r.height / r.rows) +
      -((r.corner1.y + r.corner2.y) * 0.5) = r.height / 2 - iy * (r.height / r.rows)
    rw [height] at *
    linarith
  · exact add_neg_cancel (_ : ℝ)

variable {r}

/-- The corners of a rectangle that has no area agree in a coordinate. -/
theorem flat_iff : (r.width ≤ 0 ∨ r.height ≤ 0) ↔
    r.corner1.x = r.corner2.x ∨ r.corner1.y = r.corner2.y := by
  rw [width, height, abs_nonpos_iff, abs_nonpos_iff, sub_eq_zero, sub_eq_zero, eq_comm,
    eq_comm (a := r.corner2.y)]

theorem build_eq_error_iff : r.build = .error (.degenerate (.rectangle r.corner1 r.corner2)) ↔
    r.corner1.x = r.corner2.x ∨ r.corner1.y = r.corner2.y := by
  rw [← flat_iff, build, r.size_eq, Exact.ofNat_zero]
  split
  next h => exact iff_of_true rfl h
  next h => exact iff_of_false nofun h

theorem exists_build_iff : (∃ g, r.build = .ok g) ↔
    ¬ (r.corner1.x = r.corner2.x ∨ r.corner1.y = r.corner2.y) := by
  have hmoved := Geometry.isSome_translate?_ofBuffers r.buffers r.offset
  simp only [build_eq_ok_iff, exists_and_left, Option.isSome_iff_exists.mp hmoved, and_true]
  rw [← flat_iff, r.size_eq, Exact.ofNat_zero]

/-- A rectangle that is built is the one around the origin. -/
theorem packs_centred {g : Geometry ℝ} (h : r.build = .ok g) : g.Packs r.centred := by
  rw [← r.moved_buffers]
  exact packs_of_build h

end RectangleSpec

/-- A rectangle in two parts, between its upper right and its lower left corner. -/
noncomputable def RectangleSpec.banner : RectangleSpec ℝ where
  corner1 := ⟨2, 1⟩
  corner2 := ⟨0, 0⟩
  partsX := 2
  partsY := 0

theorem RectangleSpec.banner_apart :
    ¬ (banner.corner1.x = banner.corner2.x ∨ banner.corner1.y = banner.corner2.y) := by
  norm_num [banner]

/-! ## 3. Faces of boxes -/

namespace BoxFace

section Grid

variable {K : Type} [Scalar K] (f : BoxFace K)

/-- The vertex of a face in a column and a row of its grid. -/
def vertex (ix iy : Nat) : Vec3 K :=
  ((Vec3.zero.set f.u (((ix : K) * (f.width / (f.cols : K)) - f.width / 2) * f.signU)).set f.v
    (((iy : K) * (f.height / (f.rows : K)) - f.height / 2) * f.signV)).set f.w (f.depth / 2)

/-- The normal at all vertices of a face. -/
def normal : Vec3 K := Vec3.zero.set f.w (Scalar.sign f.depth)

/-- The vertices of a face. -/
def grid : List (Vec3 K) := Grid.vertices f.cols f.rows f.vertex

end Grid

end BoxFace

namespace BoxSpec

/-- The counts of parts along the axes; at least one. -/
def parts {K : Type} (b : BoxSpec K) : Axis → Nat
  | .x => max b.partsX 1
  | .y => max b.partsY 1
  | .z => max b.partsZ 1

/-- A face of a box, on a side of an axis. -/
structure IsFace (b : BoxSpec ℝ) (w : Axis) (side : ℝ) (f : BoxFace ℝ) : Prop where
  axis : f.w = w
  depth : f.depth = side * b.size.along w
  width : f.width = b.size.along f.u
  height : f.height = b.size.along f.v
  cols : f.cols = b.parts f.u
  rows : f.rows = b.parts f.v
  signs : |f.signU| = 1 ∧ |f.signV| = 1
  /-- A step down and a step across turn around the side of the face. -/
  turn : Axis.turn f.u f.v w * (f.signV * f.signU) = side
  side : side = 1 ∨ side = -1

/-- The sides of a box, in the order of its faces. -/
def sides : List (Axis × ℝ) := [(.x, 1), (.x, -1), (.y, 1), (.y, -1), (.z, 1), (.z, -1)]

theorem isFace_mk (b : BoxSpec ℝ) {u v w : Axis} {side signU signV : ℝ}
    (hsigns : |signU| = 1 ∧ |signV| = 1) (hturn : Axis.turn u v w * (signV * signU) = side)
    (hside : side = 1 ∨ side = -1) :
    b.IsFace w side ⟨u, v, w, signU, signV, b.size.along u, b.size.along v,
      side * b.size.along w, b.parts u, b.parts v⟩ :=
  ⟨rfl, rfl, rfl, rfl, rfl, rfl, hsigns, hturn, hside⟩

theorem faces_eq (b : BoxSpec ℝ) : b.faces =
    [⟨.z, .y, .x, -1, -1, b.size.z, b.size.y, 1 * b.size.x, b.parts .z, b.parts .y⟩,
     ⟨.z, .y, .x, 1, -1, b.size.z, b.size.y, -1 * b.size.x, b.parts .z, b.parts .y⟩,
     ⟨.x, .z, .y, 1, 1, b.size.x, b.size.z, 1 * b.size.y, b.parts .x, b.parts .z⟩,
     ⟨.x, .z, .y, 1, -1, b.size.x, b.size.z, -1 * b.size.y, b.parts .x, b.parts .z⟩,
     ⟨.x, .y, .z, 1, -1, b.size.x, b.size.y, 1 * b.size.z, b.parts .x, b.parts .y⟩,
     ⟨.x, .y, .z, -1, -1, b.size.x, b.size.y, -1 * b.size.z, b.parts .x, b.parts .y⟩] := by
  simp [faces, parts]

/-- The faces are those on the sides of the box. -/
theorem isFace_faces (b : BoxSpec ℝ) :
    List.Forall₂ (fun side f => b.IsFace side.1 side.2 f) sides b.faces := by
  have hout : (1 : ℝ) = 1 ∨ (1 : ℝ) = -1 := .inl rfl
  have hback : (-1 : ℝ) = 1 ∨ (-1 : ℝ) = -1 := .inr rfl
  rw [faces_eq]
  refine .cons (b.isFace_mk ?_ ?_ hout) (.cons (b.isFace_mk ?_ ?_ hback)
    (.cons (b.isFace_mk ?_ ?_ hout) (.cons (b.isFace_mk ?_ ?_ hback)
      (.cons (b.isFace_mk ?_ ?_ hout) (.cons (b.isFace_mk ?_ ?_ hback) .nil)))))
  all_goals norm_num [Axis.turn]

theorem exists_isFace {b : BoxSpec ℝ} {f : BoxFace ℝ} (hf : f ∈ b.faces) :
    ∃ w side, b.IsFace w side f := by
  obtain ⟨i, hi, rfl⟩ := List.mem_iff_getElem.mp hf
  exact ⟨_, _, b.isFace_faces.get (b.isFace_faces.length_eq.symm ▸ hi) hi⟩

theorem exists_face (b : BoxSpec ℝ) (w : Axis) {side : ℝ} (hside : side = 1 ∨ side = -1) :
    ∃ f ∈ b.faces, b.IsFace w side f := by
  have hmem : (w, side) ∈ sides := by
    rcases hside with rfl | rfl <;> cases w <;> simp [sides]
  obtain ⟨i, hi, hget⟩ := List.mem_iff_getElem.mp hmem
  have hface := b.isFace_faces.get hi (b.isFace_faces.length_eq ▸ hi)
  rw [List.get_eq_getElem, hget] at hface
  exact ⟨_, List.get_mem _ _, hface⟩

namespace IsFace

variable {b : BoxSpec ℝ} {w : Axis} {side : ℝ} {f : BoxFace ℝ}

theorem side_ne_zero (h : b.IsFace w side f) : side ≠ 0 := by
  rcases h.side with rfl | rfl <;> norm_num

theorem turn_ne_zero (h : b.IsFace w side f) : Axis.turn f.u f.v w ≠ 0 :=
  left_ne_zero_of_mul (h.turn ▸ h.side_ne_zero)

/-- A vertex of a face by its coordinates. -/
theorem along_vertex (h : b.IsFace w side f) (ix iy : Nat) :
    (f.vertex ix iy).along w = side * b.size.along w / 2 ∧
    (f.vertex ix iy).along f.u =
      (ix * (b.size.along f.u / b.parts f.u) - b.size.along f.u / 2) * f.signU ∧
    (f.vertex ix iy).along f.v =
      (iy * (b.size.along f.v / b.parts f.v) - b.size.along f.v / 2) * f.signV := by
  obtain ⟨huv, huw, hvw⟩ := Axis.apart_of_turn h.turn_ne_zero
  simp [BoxFace.vertex, h.axis, h.depth, h.width, h.height, h.cols, h.rows, huv, huw, hvw]

theorem normal_eq (h : b.IsFace w side f) (hpos : 0 < b.size.along w) :
    f.normal = Vec3.zero.set w side := by
  have hsign : Scalar.sign f.depth = side := by
    show (if f.depth < 0 then -1 else 1 : ℝ) = side
    rw [h.depth]
    rcases h.side with rfl | rfl
    · rw [one_mul, if_neg hpos.not_gt]
    · rw [neg_one_mul, if_pos (neg_lt_zero.mpr hpos)]
  rw [BoxFace.normal, h.axis, hsign]

end IsFace

/-! ### Which boxes are built -/

theorem along_size (b : BoxSpec ℝ) (i : Axis) :
    b.size.along i = |b.corner2.along i - b.corner1.along i| := by
  rw [size, Vec3.along_abs, Vec3.along_sub]

theorem least_nonpos_iff (v : Vec3 ℝ) : v.least ≤ 0 ↔ ∃ i, v.along i ≤ 0 := by
  rw [Vec3.least, Exact.lesser_eq_min, Exact.lesser_eq_min, min_le_iff, min_le_iff]
  constructor
  · rintro (h | h | h)
    · exact ⟨.x, h⟩
    · exact ⟨.y, h⟩
    · exact ⟨.z, h⟩
  · rintro ⟨i, h⟩
    cases i with
    | x => exact .inl h
    | y => exact .inr (.inl h)
    | z => exact .inr (.inr h)

/-- The corners of a box that has no volume agree in a coordinate. -/
theorem flat_iff (b : BoxSpec ℝ) :
    b.size.least ≤ 0 ↔ ∃ i, b.corner1.along i = b.corner2.along i := by
  rw [least_nonpos_iff]
  refine exists_congr fun i => ?_
  rw [along_size, abs_nonpos_iff, sub_eq_zero, eq_comm]

theorem build_eq (b : BoxSpec ℝ) : b.build =
    if b.size.least ≤ 0 then .error (.degenerate (.box b.corner1 b.corner2))
    else .ok (.ofBuffers b.buffers) := by
  simp only [build, Exact.ofNat_zero]

theorem build_eq_error_iff (b : BoxSpec ℝ) :
    b.build = .error (.degenerate (.box b.corner1 b.corner2)) ↔
      ∃ i, b.corner1.along i = b.corner2.along i := by
  rw [build_eq, ← flat_iff]
  split
  next h => exact iff_of_true rfl h
  next h => exact iff_of_false (by simp) h

theorem build_eq_ok_iff {b : BoxSpec ℝ} {g : Geometry ℝ} : b.build = .ok g ↔
    (¬ ∃ i, b.corner1.along i = b.corner2.along i) ∧ g = .ofBuffers b.buffers := by
  rw [build_eq, ← flat_iff]
  split
  next h => exact iff_of_false (by simp) fun hok => hok.1 h
  next h => rw [Except.ok.injEq, eq_comm, and_iff_right h]

/-- A box that is built extends along every axis. -/
theorem size_pos {b : BoxSpec ℝ} (h : ¬ ∃ i, b.corner1.along i = b.corner2.along i) (i : Axis) :
    0 < b.size.along i := by
  rw [along_size, abs_pos, sub_ne_zero]
  exact fun heq => h ⟨i, heq.symm⟩

theorem parts_pos {K : Type} (b : BoxSpec K) (i : Axis) : 0 < b.parts i := by
  cases i <;> exact Nat.le_max_right _ _

/-- A box in two parts along X, neither of whose corners is its least one. -/
noncomputable def brick : BoxSpec ℝ where
  corner1 := ⟨0, 2, 0⟩
  corner2 := ⟨4, 0, 1⟩
  partsX := 2
  partsY := 1
  partsZ := 0

theorem brick_apart : ¬ ∃ i, brick.corner1.along i = brick.corner2.along i := by
  rintro ⟨i, hi⟩
  cases i <;> norm_num [brick, Vec3.along] at hi

end BoxSpec

end SceneAssembly
