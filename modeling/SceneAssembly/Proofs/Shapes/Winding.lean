/-
  SceneAssembly/Proofs/Shapes/Winding.lean
  ========================================
  **Which way triangles face.**

  A triangle faces the side from which its corners run counterclockwise: the
  cross product of its edges points there.  In a grid with even steps this is
  the same for all triangles, the turn from the step down to the step across
  (`Grid.wound_of_isSheet`).  So each face of a rectangle, of a box and of a sky
  box is looked at once, and the parts of a shape are put together as they are
  joined (`Buffers.Wound.append`).
-/
import SceneAssembly.Proofs.Shapes.Corners
import SceneAssembly.Proofs.Shapes.GridTriangles

namespace SceneAssembly

/-! ## 1. Triangles and their normals -/

/-- A triangle with an area, counterclockwise as seen from where the normal points. -/
structure Counterclockwise (n p q r : Vec3 ℝ) : Prop where
  area : (q - p).cross (r - p) ≠ ⟨0, 0, 0⟩
  turn : ∃ c : ℝ, 0 < c ∧ (q - p).cross (r - p) = n.scale c

/-- A vertex with its position and its normal. -/
structure IsVertex (positions normals : List (Vec3 ℝ)) (i : Nat) (p n : Vec3 ℝ) : Prop where
  position : positions[i]? = some p
  normal : normals[i]? = some n

/-- A triangle between vertices with one normal, which it faces and which points as it should at each
    of them. -/
def Faces (points : Vec3 ℝ → Vec3 ℝ → Prop) (positions normals : List (Vec3 ℝ))
    (t : Nat × Nat × Nat) : Prop :=
  ∃ n p q r, IsVertex positions normals t.1 p n ∧ IsVertex positions normals t.2.1 q n ∧
    IsVertex positions normals t.2.2 r n ∧ Counterclockwise n p q r ∧
    points p n ∧ points q n ∧ points r n

/-- All triangles of a geometry face the normals of their corners. -/
def Geometry.FacesBy (g : Geometry ℝ) (points : Vec3 ℝ → Vec3 ℝ → Prop) : Prop :=
  ∃ positions normals, g.positions? = some positions ∧ g.normals? = some normals ∧
    ∀ t ∈ g.triangles, Faces points positions normals t

theorem counterclockwise_of_turn {n p q r : Vec3 ℝ} {c : ℝ} (hc : 0 < c) (hn : n ≠ ⟨0, 0, 0⟩)
    (h : (q - p).cross (r - p) = n.scale c) : Counterclockwise n p q r := by
  refine ⟨fun hzero => hn ?_, c, hc, h⟩
  rw [hzero] at h
  ext
  · exact (mul_eq_zero.mp (congrArg Vec3.x h).symm).resolve_right hc.ne'
  · exact (mul_eq_zero.mp (congrArg Vec3.y h).symm).resolve_right hc.ne'
  · exact (mul_eq_zero.mp (congrArg Vec3.z h).symm).resolve_right hc.ne'

/-! ## 2. Parts of a shape -/

/-- A triangle with its corners numbered from `base`. -/
def shifted (base : Nat) (t : Nat × Nat × Nat) : Nat × Nat × Nat :=
  (base + t.1, base + t.2.1, base + t.2.2)

@[simp] theorem shifted_zero (t : Nat × Nat × Nat) : shifted 0 t = t := by simp [shifted]

variable {points : Vec3 ℝ → Vec3 ℝ → Prop}

section Append

variable {positions normals : List (Vec3 ℝ)} {t : Nat × Nat × Nat}

theorem IsVertex.append_left {i : Nat} {p n : Vec3 ℝ} (h : IsVertex positions normals i p n)
    (positions' normals' : List (Vec3 ℝ)) :
    IsVertex (positions ++ positions') (normals ++ normals') i p n where
  position := by
    rw [List.getElem?_append_left (List.getElem?_eq_some_iff.mp h.position).1]
    exact h.position
  normal := by
    rw [List.getElem?_append_left (List.getElem?_eq_some_iff.mp h.normal).1]
    exact h.normal

theorem IsVertex.append_right {i : Nat} {p n : Vec3 ℝ} (h : IsVertex positions normals i p n)
    {positions' normals' : List (Vec3 ℝ)} (hlength : normals'.length = positions'.length) :
    IsVertex (positions' ++ positions) (normals' ++ normals) (positions'.length + i) p n where
  position := by
    rw [List.getElem?_append_right (Nat.le_add_right _ _), Nat.add_sub_cancel_left]
    exact h.position
  normal := by
    rw [← hlength, List.getElem?_append_right (Nat.le_add_right _ _), Nat.add_sub_cancel_left]
    exact h.normal

theorem Faces.append_left (h : Faces points positions normals t)
    (positions' normals' : List (Vec3 ℝ)) :
    Faces points (positions ++ positions') (normals ++ normals') t := by
  obtain ⟨n, p, q, r, hp, hq, hr, hrest⟩ := h
  exact ⟨n, p, q, r, hp.append_left _ _, hq.append_left _ _, hr.append_left _ _, hrest⟩

theorem Faces.append_right (h : Faces points positions normals t)
    {positions' normals' : List (Vec3 ℝ)} (hlength : normals'.length = positions'.length) :
    Faces points (positions' ++ positions) (normals' ++ normals)
      (shifted positions'.length t) := by
  obtain ⟨n, p, q, r, hp, hq, hr, hrest⟩ := h
  exact ⟨n, p, q, r, hp.append_right hlength, hq.append_right hlength, hr.append_right hlength,
    hrest⟩

end Append

namespace Buffers

/-- The triangles of buffers whose vertices are numbered from `base` face their normals. -/
def Wound (points : Vec3 ℝ → Vec3 ℝ → Prop) (b : Buffers ℝ) (base : Nat) : Prop :=
  ∀ t ∈ Triangles.cut b.indices, ∃ t', t = shifted base t' ∧ Faces points b.positions b.normals t'

variable {a b : Buffers ℝ}

theorem Wound.append (ha : a.Wound points 0) (hb : b.Wound points a.positions.length)
    (hfits : a.Fits 0) : (a.append b).Wound points 0 := by
  intro t ht
  simp only [Buffers.append, Triangles.cut_append hfits.triangles.whole, List.mem_append] at ht
  refine ⟨t, (shifted_zero t).symm, ?_⟩
  rcases ht with ht | ht
  · obtain ⟨t', rfl, ht'⟩ := ha t ht
    rw [shifted_zero]
    exact ht'.append_left b.positions b.normals
  · obtain ⟨t', rfl, ht'⟩ := hb t ht
    exact ht'.append_right hfits.normals

/-- Parts that are added one by one, each numbered from where the one before ended. -/
theorem Wound.joined {α : Type} {part : α → Nat → Buffers ℝ} {xs : List α}
    (hfits : ∀ x base, (part x base).Fits base)
    (hwound : ∀ x ∈ xs, ∀ base, (part x base).Wound points base)
    (ha : a.Wound points 0) (hafits : a.Fits 0) :
    (xs.foldl (fun acc x => acc.append (part x acc.positions.length)) a).Wound points 0 := by
  -- by induction on the parts still to come, whatever there is before them
  induction xs generalizing a with
  | nil => exact ha
  | cons x rest ih =>
    rw [List.forall_mem_cons] at hwound
    exact ih hwound.2 (ha.append (hwound.1 _) hafits) (hafits.append (hfits x _))

theorem wound_empty : (empty : Buffers ℝ).Wound points 0 := fun _ ht => absurd ht List.not_mem_nil

end Buffers

theorem Geometry.Packs.facesBy {g : Geometry ℝ} {b : Buffers ℝ} (hpacks : g.Packs b)
    (h : b.Wound points 0) : g.FacesBy points := by
  refine ⟨b.positions, b.normals, hpacks.positions, hpacks.normals, fun t ht => ?_⟩
  rw [Geometry.triangles, hpacks.indices] at ht
  obtain ⟨t', rfl, ht'⟩ := h t ht
  rwa [shifted_zero]

/-! ## 3. Grids with even steps -/

section Steps

variable (a d e : Vec3 ℝ)

theorem add_sub_self : a + d - a = d := Vec3.ext_along fun i => by simp

theorem cross_sub_self : e.cross (e - d) = d.cross e := by
  ext
  · show e.y * (e.z - d.z) - (e.y - d.y) * e.z = d.y * e.z - e.y * d.z
    ring
  · show e.z * (e.x - d.x) - (e.z - d.z) * e.x = d.z * e.x - e.z * d.x
    ring
  · show e.x * (e.y - d.y) - (e.x - d.x) * e.y = d.x * e.y - e.x * d.y
    ring

/-- The second triangle of a cell turns as the first one does. -/
theorem cross_second : (a + e + d - (a + d)).cross (a + e - (a + d)) = d.cross e := by
  have hacross : a + e + d - (a + d) = e := Vec3.ext_along fun i => by simp
  have hback : a + e - (a + d) = e - d := Vec3.ext_along fun i => by simp
  rw [hacross, hback, cross_sub_self]

end Steps

namespace Grid

theorem first_eq_shifted (base cols : Nat) (c : Nat × Nat) :
    first base cols c = shifted base (first 0 cols c) := by
  simp [first, shifted, number, Nat.add_assoc]

theorem second_eq_shifted (base cols : Nat) (c : Nat × Nat) :
    second base cols c = shifted base (second 0 cols c) := by
  simp [second, shifted, number, Nat.add_assoc]

/-- A grid with steps `down` from row to row and `across` from column to column, all of whose
    vertices have one normal. -/
structure IsSheet (f : Nat → Nat → Vec3 ℝ) (n down across : Vec3 ℝ) : Prop where
  step_down : ∀ ix iy, f ix (iy + 1) = f ix iy + down
  step_across : ∀ ix iy, f (ix + 1) iy = f ix iy + across
  normal : n ≠ ⟨0, 0, 0⟩
  turn : ∃ c : ℝ, 0 < c ∧ down.cross across = n.scale c

variable {base cols rows : Nat} {f : Nat → Nat → Vec3 ℝ} {n down across : Vec3 ℝ}

theorem isVertex_vertices (f : Nat → Nat → Vec3 ℝ) (n : Vec3 ℝ) {ix iy : Nat} (hx : ix ≤ cols)
    (hy : iy ≤ rows) :
    IsVertex (vertices cols rows f) (vertices cols rows fun _ _ => n) (number 0 cols ix iy)
      (f ix iy) n := by
  have hnumber : number 0 cols ix iy = (cols + 1) * iy + ix := by
    rw [number, Nat.zero_add, Nat.add_comm]
  rw [hnumber]
  exact ⟨getElem?_vertices f hx hy, getElem?_vertices (fun _ _ => n) hx hy⟩

/-- All triangles of a grid with even steps face the side of the turn from a step down to a step
    across. -/
theorem wound_of_isSheet {b : Buffers ℝ} (hsheet : IsSheet f n down across)
    (hpoints : ∀ ix ≤ cols, ∀ iy ≤ rows, points (f ix iy) n)
    (hpositions : b.positions = vertices cols rows f)
    (hnormals : b.normals = vertices cols rows fun _ _ => n)
    (hindices : b.indices = indices base cols rows) : b.Wound points base := by
  obtain ⟨c, hc, hturn⟩ := hsheet.turn
  intro t ht
  rw [hindices, cut_indices, List.mem_flatMap] at ht
  obtain ⟨⟨ix, iy⟩, hcell, ht⟩ := ht
  obtain ⟨hx, hy⟩ : ix < cols ∧ iy < rows := mem_cells_iff.mp hcell
  have ha := isVertex_vertices f n hx.le hy.le
  have hb := isVertex_vertices f n hx.le (Nat.succ_le_of_lt hy)
  have hc' := isVertex_vertices f n (Nat.succ_le_of_lt hx) (Nat.succ_le_of_lt hy)
  have hd := isVertex_vertices f n (Nat.succ_le_of_lt hx) hy.le
  have hpa := hpoints ix hx.le iy hy.le
  have hpb := hpoints ix hx.le (iy + 1) (Nat.succ_le_of_lt hy)
  have hpc := hpoints (ix + 1) (Nat.succ_le_of_lt hx) (iy + 1) (Nat.succ_le_of_lt hy)
  have hpd := hpoints (ix + 1) (Nat.succ_le_of_lt hx) iy hy.le
  rw [hpositions, hnormals]
  -- the edges of the second triangle are those of the first, seen from another corner
  rcases List.mem_pair.mp ht with rfl | rfl
  · refine ⟨_, first_eq_shifted base cols (ix, iy), n, _, _, _, ha, hb, hd, ?_, hpa, hpb, hpd⟩
    refine counterclockwise_of_turn hc hsheet.normal ?_
    rw [hsheet.step_down, hsheet.step_across, add_sub_self, add_sub_self, hturn]
  · refine ⟨_, second_eq_shifted base cols (ix, iy), n, _, _, _, hb, hc', hd, ?_, hpb, hpc, hpd⟩
    refine counterclockwise_of_turn hc hsheet.normal ?_
    rw [hsheet.step_down, hsheet.step_down, hsheet.step_across, cross_second, hturn]

end Grid

/-! ## 4. Rectangles and boxes -/

theorem unitZ_eq : (Vec3.unitZ : Vec3 ℝ) = ⟨0, 0, 1⟩ := by
  rw [Vec3.unitZ, Exact.ofNat_zero, Exact.ofNat_one]

theorem RectangleSpec.isSheet_vertex {r : RectangleSpec ℝ} (hwidth : 0 < r.width)
    (hheight : 0 < r.height) : Grid.IsSheet r.vertex Vec3.unitZ ⟨0, -(r.height / r.rows), 0⟩
      ⟨r.width / r.cols, 0, 0⟩ := by
  have hcols : (0 : ℝ) < r.cols := Nat.cast_pos.mpr (Nat.le_max_right r.partsX 1)
  have hrows : (0 : ℝ) < r.rows := Nat.cast_pos.mpr (Nat.le_max_right r.partsY 1)
  rw [unitZ_eq]
  constructor
  case step_down =>
    intro ix iy
    ext
    · exact (add_zero _).symm
    · show r.height / 2 - (iy + 1 : ℕ) * (r.height / r.rows) =
        r.height / 2 - iy * (r.height / r.rows) + -(r.height / r.rows)
      push_cast
      ring
    · exact (add_zero (0 : ℝ)).symm
  case step_across =>
    intro ix iy
    ext
    · show (ix + 1 : ℕ) * (r.width / r.cols) - r.width / 2 =
        ix * (r.width / r.cols) - r.width / 2 + r.width / r.cols
      push_cast
      ring
    · exact (add_zero _).symm
    · exact (add_zero (0 : ℝ)).symm
  case normal => simp
  case turn =>
    refine ⟨r.width / r.cols * (r.height / r.rows), by positivity, ?_⟩
    ext <;> simp [Vec3.cross, Vec3.scale]

theorem RectangleSpec.wound_centred {r : RectangleSpec ℝ} (hwidth : 0 < r.width)
    (hheight : 0 < r.height) : r.centred.Wound (fun _ n => n = Vec3.unitZ) 0 :=
  Grid.wound_of_isSheet (isSheet_vertex hwidth hheight) (fun _ _ _ _ => rfl) rfl rfl rfl

namespace Vec3

theorem dot_set (p : Vec3 ℝ) (w : Axis) (s : ℝ) : p.dot (zero.set w s) = p.along w * s := by
  cases w <;> simp [dot, set, zero, along]

theorem scale_set (w : Axis) (s c : ℝ) : (zero.set w s).scale c = zero.set w (s * c) := by
  cases w <;> simp [scale, set, zero]

theorem scale_scale (v : Vec3 ℝ) (s t : ℝ) : (v.scale s).scale t = v.scale (s * t) :=
  ext_along fun i => by simp [mul_assoc]

theorem set_ne_zero {s : ℝ} (hs : s ≠ 0) (w : Axis) : zero.set w s ≠ ⟨0, 0, 0⟩ := by
  cases w <;> simp [set, zero, hs]

end Vec3

namespace BoxFace

variable {f : BoxFace ℝ}

theorem vertex_down (hvw : f.v ≠ f.w) (ix iy : Nat) :
    f.vertex ix (iy + 1) =
      f.vertex ix iy + Vec3.zero.set f.v (f.height / f.rows * f.signV) := by
  refine Vec3.ext_along fun i => ?_
  by_cases hw : i = f.w
  · subst hw
    simp [vertex, hvw.symm]
  by_cases hv : i = f.v
  · subst hv
    simp [vertex, hvw]
    ring
  · simp [vertex, hw, hv]

theorem vertex_across (huv : f.u ≠ f.v) (huw : f.u ≠ f.w) (ix iy : Nat) :
    f.vertex (ix + 1) iy =
      f.vertex ix iy + Vec3.zero.set f.u (f.width / f.cols * f.signU) := by
  refine Vec3.ext_along fun i => ?_
  by_cases hu : i = f.u
  · subst hu
    simp [vertex, huv, huw]
    ring
  · simp [vertex, hu]

end BoxFace

namespace BoxSpec

namespace IsFace

variable {b : BoxSpec ℝ} {w : Axis} {side : ℝ} {f : BoxFace ℝ}

theorem isSheet_vertex (h : b.IsFace w side f) (hpos : ∀ i, 0 < b.size.along i) :
    Grid.IsSheet f.vertex f.normal (Vec3.zero.set f.v (f.height / f.rows * f.signV))
      (Vec3.zero.set f.u (f.width / f.cols * f.signU)) := by
  obtain ⟨huv, huw, hvw⟩ := Axis.apart_of_turn h.turn_ne_zero
  have hwidth : 0 < f.width / f.cols := by
    rw [h.width, h.cols]
    exact div_pos (hpos _) (Nat.cast_pos.mpr (b.parts_pos _))
  have hheight : 0 < f.height / f.rows := by
    rw [h.height, h.rows]
    exact div_pos (hpos _) (Nat.cast_pos.mpr (b.parts_pos _))
  rw [← h.axis] at huw hvw
  rw [h.normal_eq (hpos w)]
  constructor
  case step_down => exact BoxFace.vertex_down hvw
  case step_across => exact BoxFace.vertex_across huv huw
  case normal => exact Vec3.set_ne_zero h.side_ne_zero w
  case turn =>
    refine ⟨f.width / f.cols * (f.height / f.rows), mul_pos hwidth hheight, ?_⟩
    rw [Vec3.cross_set h.turn_ne_zero, Vec3.scale_set, ← h.turn]
    congr 1
    ring

theorem wound_buffers (h : b.IsFace w side f) (hpos : ∀ i, 0 < b.size.along i) (base : Nat) :
    (f.buffers base).Wound (fun p n => 0 < p.dot n) base := by
  refine Grid.wound_of_isSheet (h.isSheet_vertex hpos) (fun ix _ iy _ => ?_) rfl rfl rfl
  rw [h.normal_eq (hpos w), Vec3.dot_set, (h.along_vertex ix iy).1]
  rcases h.side with rfl | rfl
  · linarith [hpos w]
  · linarith [hpos w]

end IsFace

theorem wound_buffers {b : BoxSpec ℝ} (hpos : ∀ i, 0 < b.size.along i) :
    b.buffers.Wound (fun p n => 0 < p.dot n) 0 := by
  refine Buffers.Wound.joined BoxFace.fits_buffers (fun f hf base => ?_) Buffers.wound_empty .empty
  obtain ⟨w, side, hface⟩ := exists_isFace hf
  exact hface.wound_buffers hpos base

end BoxSpec

/-! ## 5. Sky boxes -/

theorem Vec3.set_mul (w : Axis) (s : ℝ) (v : Vec3 ℝ) :
    zero.set w s * v = zero.set w (s * v.along w) :=
  Vec3.ext_along fun i => by by_cases h : i = w <;> simp [h]

theorem Vec3.neg_set (w : Axis) (s : ℝ) : -(zero.set w s : Vec3 ℝ) = zero.set w (-s) :=
  Vec3.ext_along fun i => by by_cases h : i = w <;> simp [h]

theorem Vec3.cross_combine (a b : Vec3 ℝ) (s t s' t' : ℝ) :
    (a.scale s + b.scale t).cross (a.scale s' + b.scale t') =
      (a.cross b).scale (s * t' - t * s') := by
  ext
  · show (a.y * s + b.y * t) * (a.z * s' + b.z * t') - (a.y * s' + b.y * t') * (a.z * s + b.z * t) =
      (a.y * b.z - b.y * a.z) * (s * t' - t * s')
    ring
  · show (a.z * s + b.z * t) * (a.x * s' + b.x * t') - (a.z * s' + b.z * t') * (a.x * s + b.x * t) =
      (a.z * b.x - b.z * a.x) * (s * t' - t * s')
    ring
  · show (a.x * s + b.x * t) * (a.y * s' + b.y * t') - (a.x * s' + b.x * t') * (a.y * s + b.y * t) =
      (a.x * b.y - b.x * a.y) * (s * t' - t * s')
    ring

namespace SkyboxSpec

/-- How far a sky box extends from its centre. -/
noncomputable def half (s : SkyboxSpec ℝ) : Vec3 ℝ := s.size.abs.scale 0.5

/-- The point of a face with coordinates `su` and `sv` in its texture, from -1 to 1. -/
noncomputable def point (s : SkyboxSpec ℝ) (f : Face ℝ) (su sv : ℝ) : Vec3 ℝ :=
  s.center + (f.towards + f.u.scale su + f.v.scale sv) * s.half

/-- A face along axes, its texture turning towards the centre. -/
structure Face.TurnsInwards (f : Face ℝ) (i j w : Axis) (a b t : ℝ) : Prop where
  towards : f.towards = Vec3.zero.set w t
  u : f.u = Vec3.zero.set i a
  v : f.v = Vec3.zero.set j b
  side : t = 1 ∨ t = -1
  turn : Axis.turn j i w * (a * b) = -t

theorem faceAxes_eq : (faceAxes : List (Face ℝ)) =
    [⟨Vec3.zero.set .z (-1), Vec3.zero.set .x 1, Vec3.zero.set .y 1⟩,
     ⟨Vec3.zero.set .z 1, Vec3.zero.set .x (-1), Vec3.zero.set .y 1⟩,
     ⟨Vec3.zero.set .y 1, Vec3.zero.set .x 1, Vec3.zero.set .z 1⟩,
     ⟨Vec3.zero.set .y (-1), Vec3.zero.set .x 1, Vec3.zero.set .z (-1)⟩,
     ⟨Vec3.zero.set .x (-1), Vec3.zero.set .z (-1), Vec3.zero.set .y 1⟩,
     ⟨Vec3.zero.set .x 1, Vec3.zero.set .z 1, Vec3.zero.set .y 1⟩] := by
  simp [faceAxes, Vec3.unitX, Vec3.unitY, Vec3.unitZ, Vec3.set, Vec3.zero]

theorem turnsInwards {f : Face ℝ} (hf : f ∈ faceAxes) :
    ∃ i j w a b t, f.TurnsInwards i j w a b t := by
  have hfront : (-1 : ℝ) = 1 ∨ (-1 : ℝ) = -1 := .inr rfl
  have hback : (1 : ℝ) = 1 ∨ (1 : ℝ) = -1 := .inl rfl
  simp only [faceAxes_eq, List.mem_cons, List.not_mem_nil, or_false] at hf
  rcases hf with rfl | rfl | rfl | rfl | rfl | rfl
  · exact ⟨.x, .y, .z, 1, 1, -1, rfl, rfl, rfl, hfront, by norm_num [Axis.turn]⟩
  · exact ⟨.x, .y, .z, -1, 1, 1, rfl, rfl, rfl, hback, by norm_num [Axis.turn]⟩
  · exact ⟨.x, .z, .y, 1, 1, 1, rfl, rfl, rfl, hback, by norm_num [Axis.turn]⟩
  · exact ⟨.x, .z, .y, 1, -1, -1, rfl, rfl, rfl, hfront, by norm_num [Axis.turn]⟩
  · exact ⟨.z, .y, .x, -1, 1, -1, rfl, rfl, rfl, hfront, by norm_num [Axis.turn]⟩
  · exact ⟨.z, .y, .x, 1, 1, 1, rfl, rfl, rfl, hback, by norm_num [Axis.turn]⟩

variable {s : SkyboxSpec ℝ} {f : Face ℝ}

theorem half_pos (hsize : ∀ i, s.size.along i ≠ 0) (i : Axis) : 0 < s.half.along i := by
  rw [half, Vec3.along_scale, Vec3.along_abs]
  exact mul_pos (abs_pos.mpr (hsize i)) (by norm_num)

theorem point_sub (su sv su' sv' : ℝ) : s.point f su' sv' - s.point f su sv =
    (f.u * s.half).scale (su' - su) + (f.v * s.half).scale (sv' - sv) := by
  refine Vec3.ext_along fun i => ?_
  simp only [point, Vec3.along_sub, Vec3.along_add, Vec3.along_mul, Vec3.along_scale]
  ring

namespace Face.TurnsInwards

variable {i j w : Axis} {a b t : ℝ}

theorem out_ne_zero (h : f.TurnsInwards i j w a b t) : -t ≠ 0 := by
  rcases h.side with rfl | rfl <;> norm_num

theorem turn_ne_zero (h : f.TurnsInwards i j w a b t) : Axis.turn j i w ≠ 0 :=
  left_ne_zero_of_mul (h.turn ▸ h.out_ne_zero)

/-- The texture turns around the direction opposite to that of the face. -/
theorem cross_eq (h : f.TurnsInwards i j w a b t) (half : Vec3 ℝ) :
    (f.u * half).cross (f.v * half) = (-f.towards).scale (half.along i * half.along j) := by
  rw [h.u, h.v, h.towards, Vec3.set_mul, Vec3.set_mul, Vec3.cross_set h.turn_ne_zero,
    Vec3.neg_set, Vec3.scale_set, ← h.turn]
  congr 1
  ring

/-- Seen from a point of the face, the centre is on the side of the normal. -/
theorem inwards (h : f.TurnsInwards i j w a b t) (hpos : 0 < s.half.along w) (su sv : ℝ) :
    0 < (s.center - s.point f su sv).dot (-f.towards) := by
  obtain ⟨-, hjw, hiw⟩ := Axis.apart_of_turn h.turn_ne_zero
  have hout : (s.point f su sv).along w = s.center.along w + t * s.half.along w := by
    simp [point, h.towards, h.u, h.v, hiw.symm, hjw.symm]
  rw [h.towards, Vec3.neg_set, Vec3.dot_set, Vec3.along_sub, hout]
  rcases h.side with rfl | rfl
  · linarith
  · linarith

end Face.TurnsInwards

theorem counterclockwise_point {i j w : Axis} {a b t : ℝ} (h : f.TurnsInwards i j w a b t)
    (hpos : ∀ i, 0 < s.half.along i) {su sv su' sv' su'' sv'' : ℝ}
    (hturn : 0 < (su' - su) * (sv'' - sv) - (sv' - sv) * (su'' - su)) :
    Counterclockwise (-f.towards) (s.point f su sv) (s.point f su' sv') (s.point f su'' sv'') := by
  have hnormal : -f.towards ≠ ⟨0, 0, 0⟩ := by
    rw [h.towards, Vec3.neg_set]
    exact Vec3.set_ne_zero h.out_ne_zero w
  refine counterclockwise_of_turn (mul_pos (mul_pos (hpos i) (hpos j)) hturn) hnormal ?_
  rw [point_sub, point_sub, Vec3.cross_combine, h.cross_eq, Vec3.scale_scale]

theorem wound_faceBuffers (hsize : ∀ i, s.size.along i ≠ 0) (hf : f ∈ faceAxes) (base : Nat) :
    (s.faceBuffers f base).Wound (fun p n => 0 < (s.center - p).dot n) base := by
  have hpos := half_pos hsize
  obtain ⟨i, j, w, a, b, t, hface⟩ := turnsInwards hf
  have hvertex (su sv : ℝ) := hface.inwards (hpos w) su sv
  have hpositions : (s.faceBuffers f base).positions =
      [s.point f (-1) (-1), s.point f 1 (-1), s.point f 1 1, s.point f (-1) 1] := by
    simp [faceBuffers, corners, point, half]
  intro t ht
  have ht : t ∈ [(base, base + 1, base + 2), (base, base + 2, base + 3)] := ht
  rw [hpositions]
  rcases List.mem_pair.mp ht with rfl | rfl
  · refine ⟨(0, 1, 2), rfl, -f.towards, _, _, _, ⟨rfl, rfl⟩, ⟨rfl, rfl⟩, ⟨rfl, rfl⟩, ?_,
      hvertex _ _, hvertex _ _, hvertex _ _⟩
    exact counterclockwise_point hface hpos (by norm_num)
  · refine ⟨(0, 2, 3), rfl, -f.towards, _, _, _, ⟨rfl, rfl⟩, ⟨rfl, rfl⟩, ⟨rfl, rfl⟩, ?_,
      hvertex _ _, hvertex _ _, hvertex _ _⟩
    exact counterclockwise_point hface hpos (by norm_num)

theorem wound_buffers (hsize : ∀ i, s.size.along i ≠ 0) :
    s.buffers.Wound (fun p n => 0 < (s.center - p).dot n) 0 :=
  Buffers.Wound.joined s.fits_faceBuffers (fun _ hf => wound_faceBuffers hsize hf)
    Buffers.wound_empty .empty

/-- The groups of a sky box do not change its triangles. -/
theorem facesBy_build {points : Vec3 ℝ → Vec3 ℝ → Prop} (h : s.buffers.Wound points 0) :
    s.build.FacesBy points := by
  rw [groups_build]
  exact (Geometry.packs_ofBuffers s.buffers).facesBy h

end SkyboxSpec

/-! ## 6. Shapes that are built -/

/-- Triangles face the normals of their corners: those of a rectangle face +Z, those of a box away
    from its centre, which is the origin, and those of a sky box towards its centre. -/
theorem triangles_face_normals :
    (∀ (r : RectangleSpec ℝ) (g : Geometry ℝ), r.build = .ok g →
      g.FacesBy fun _ n => n = Vec3.unitZ) ∧
    (∀ (b : BoxSpec ℝ) (g : Geometry ℝ), b.build = .ok g → g.FacesBy fun p n => 0 < p.dot n) ∧
    ∀ s : SkyboxSpec ℝ, (∀ i, s.size.along i ≠ 0) →
      s.build.FacesBy fun p n => 0 < (s.center - p).dot n := by
  refine ⟨fun r g hg => ?_, fun b g hg => ?_, fun s hsize => ?_⟩
  · have hcorners := RectangleSpec.exists_build_iff.mp ⟨g, hg⟩
    rw [← RectangleSpec.flat_iff, not_or, not_le, not_le] at hcorners
    exact (RectangleSpec.packs_centred hg).facesBy
      (RectangleSpec.wound_centred hcorners.1 hcorners.2)
  · obtain ⟨hcorners, rfl⟩ := BoxSpec.build_eq_ok_iff.mp hg
    exact (Geometry.packs_ofBuffers b.buffers).facesBy
      (BoxSpec.wound_buffers (BoxSpec.size_pos hcorners))
  · exact SkyboxSpec.facesBy_build (SkyboxSpec.wound_buffers hsize)

/-- A sky box with a negative extent, away from the origin. -/
noncomputable def SkyboxSpec.aside : SkyboxSpec ℝ where
  size := ⟨1, -1, 2⟩
  center := ⟨5, 0, 0⟩
  emissive := Vec3.zero
  intensity := 1
  faces := default

/-- A rectangle in two parts, a box in two parts and a sky box. -/
theorem triangles_face_normals_of_samples :
    (∃ g, RectangleSpec.banner.build = .ok g ∧ g.triangles.length = 4 ∧
      g.FacesBy fun _ n => n = Vec3.unitZ) ∧
    (∃ g, BoxSpec.brick.build = .ok g ∧ g.triangles.length = 20 ∧
      g.FacesBy fun p n => 0 < p.dot n) ∧
    (∀ i, SkyboxSpec.aside.size.along i ≠ 0) ∧
    SkyboxSpec.aside.build.FacesBy fun p n => 0 < ((⟨5, 0, 0⟩ : Vec3 ℝ) - p).dot n := by
  obtain ⟨hrectangle, hbox, hskybox⟩ := triangles_face_normals
  have hsize (i : Axis) : SkyboxSpec.aside.size.along i ≠ 0 := by
    cases i <;> norm_num [SkyboxSpec.aside, Vec3.along]
  obtain ⟨g, hbanner⟩ := RectangleSpec.exists_build_iff.mpr RectangleSpec.banner_apart
  have hcount : g.triangles.length = 4 := by
    rw [Geometry.triangles, (RectangleSpec.packs_centred hbanner).indices]
    rfl
  have hbrick := BoxSpec.build_eq_ok_iff.mpr ⟨BoxSpec.brick_apart, rfl⟩
  exact ⟨⟨g, hbanner, hcount, hrectangle _ _ hbanner⟩, ⟨_, hbrick, rfl, hbox _ _ hbrick⟩, hsize,
    hskybox _ hsize⟩

end SceneAssembly
