/-
  SceneAssembly/Proofs/Shapes/Centred.lean
  ========================================
  **Shapes that span their corners.**

  A rectangle is built between its corners and then moved, a box is built around
  the origin from its size; both end up as far to one side of the origin as to
  the other.  In an even grid around the origin no vertex is further out than
  half the extent (`abs_step_sub_half_le`), and the first and the last one are
  just there, so the box of the vertices is known (`Bounds.ofPoints_around`).
  A rectangle takes of its corners the lesser and the greater coordinates and their
  middle, a box takes how far they are apart, so each coordinate can be exchanged
  between them.
-/
import SceneAssembly.Proofs.Shapes.Corners

namespace SceneAssembly

/-! ## 1. Points around the origin -/

/-- Points around the origin that lie within half an extent of it, and the box of them. -/
structure SpansAround (half : Vec3 ℝ) (positions : List (Vec3 ℝ)) (bounds : Bounds ℝ) : Prop where
  within : ∀ p ∈ positions, ∀ i, |p.along i| ≤ half.along i
  bounds : bounds = ⟨-half, half⟩

theorem Bounds.ofPoints_around {half : Vec3 ℝ} {ps : List (Vec3 ℝ)}
    (hwithin : ∀ p ∈ ps, ∀ i, |p.along i| ≤ half.along i)
    (hleast : ∀ i, ∃ p ∈ ps, p.along i = -half.along i)
    (hgreatest : ∀ i, ∃ p ∈ ps, p.along i = half.along i) : ofPoints ps = ⟨-half, half⟩ := by
  have hne : ps ≠ [] := by
    obtain ⟨p, hp, -⟩ := hleast .x
    exact List.ne_nil_of_mem hp
  have hnumeric : ∀ p ∈ ps, p.IsNumeric := fun p _ i => le_refl (p.along i)
  have hmin : (ofPoints ps).min = -half := by
    refine Vec3.ext_along fun i => ?_
    obtain ⟨⟨p, hp, hend⟩, -⟩ := exists_ends_ofPoints hne i
    obtain ⟨q, hq, hleast⟩ := hleast i
    refine le_antisymm ?_ ?_
    · rw [Vec3.along_neg, ← hleast]
      exact (holds_ofPoints hnumeric hq i).1
    · rw [Vec3.along_neg, hend]
      exact (abs_le.mp (hwithin p hp i)).1
  have hmax : (ofPoints ps).max = half := by
    refine Vec3.ext_along fun i => ?_
    obtain ⟨-, p, hp, hend⟩ := exists_ends_ofPoints hne i
    obtain ⟨q, hq, hgreatest⟩ := hgreatest i
    refine le_antisymm ?_ ?_
    · rw [hend]
      exact (abs_le.mp (hwithin p hp i)).2
    · rw [← hgreatest]
      exact (holds_ofPoints hnumeric hq i).2
  rw [← hmin, ← hmax]

/-! ### Even steps -/

section Steps

variable {n : ℕ} {e : ℝ}

theorem step_first (e : ℝ) (n : ℕ) : (0 : ℕ) * (e / n) - e / 2 = -(e / 2) := by
  rw [Nat.cast_zero, zero_mul, zero_sub]

theorem step_last (hn : 0 < n) (e : ℝ) : n * (e / n) - e / 2 = e / 2 := by
  have hn : (n : ℝ) ≠ 0 := Nat.cast_ne_zero.mpr hn.ne'
  field_simp
  ring

/-- No step from minus half an extent is beyond half of it. -/
theorem abs_step_sub_half_le (he : 0 ≤ e) (hn : 0 < n) {k : ℕ} (hk : k ≤ n) :
    |k * (e / n) - e / 2| ≤ e / 2 := by
  have hstep : 0 ≤ e / n := div_nonneg he (Nat.cast_nonneg n)
  have hfirst : 0 ≤ k * (e / n) := mul_nonneg (Nat.cast_nonneg k) hstep
  have hlast : k * (e / n) ≤ n * (e / n) :=
    mul_le_mul_of_nonneg_right (Nat.cast_le.mpr hk) hstep
  have hend := step_last hn e
  rw [abs_le]
  constructor
  · linarith
  · linarith

end Steps

theorem Grid.mem_vertices {α : Type} {cols rows : Nat} {f : Nat → Nat → α} {p : α} :
    p ∈ vertices cols rows f ↔ ∃ ix ≤ cols, ∃ iy ≤ rows, f ix iy = p := by
  simp only [vertices, List.mem_flatMap, List.mem_map, List.mem_range, Nat.lt_succ_iff]
  constructor
  · rintro ⟨iy, hy, ix, hx, rfl⟩
    exact ⟨ix, hx, iy, hy, rfl⟩
  · rintro ⟨ix, hx, iy, hy, rfl⟩
    exact ⟨iy, hy, ix, hx, rfl⟩

/-- The positions of parts that are added one by one. -/
theorem Buffers.positions_joined {α : Type} (part : α → Nat → Buffers ℝ) (grid : α → List (Vec3 ℝ))
    (h : ∀ x base, (part x base).positions = grid x) (xs : List α) (a : Buffers ℝ) :
    (xs.foldl (fun acc x => acc.append (part x acc.positions.length)) a).positions =
      a.positions ++ (xs.map grid).flatten := by
  induction xs generalizing a with
  | nil => exact (List.append_nil _).symm
  | cons x rest ih =>
    rw [List.foldl_cons, ih, List.map_cons, List.flatten_cons, ← List.append_assoc, append, h]

/-! ## 2. Rectangles -/

namespace RectangleSpec

/-- The rectangle with coordinates exchanged between its corners. -/
def exchanged {K : Type} (r : RectangleSpec K) (swapX swapY : Bool) : RectangleSpec K :=
  { r with
    corner1 := ⟨if swapX then r.corner2.x else r.corner1.x,
      if swapY then r.corner2.y else r.corner1.y⟩
    corner2 := ⟨if swapX then r.corner1.x else r.corner2.x,
      if swapY then r.corner1.y else r.corner2.y⟩ }

variable (r : RectangleSpec ℝ)

/-- Half of what the corners are apart by, along each axis. -/
noncomputable def half : Vec3 ℝ :=
  ⟨|r.corner2.x - r.corner1.x| / 2, |r.corner2.y - r.corner1.y| / 2, 0⟩

/-- A geometry with the even grid of a rectangle for its vertices, around the origin. -/
def IsSpannedBy (g : Geometry ℝ) : Prop :=
  ∃ positions, g.positions? = some positions ∧ positions = Grid.vertices r.cols r.rows r.vertex ∧
    SpansAround r.half positions g.bounds

theorem spansAround_centred :
    SpansAround r.half r.centred.positions (Bounds.ofPoints r.centred.positions) := by
  have hcols : 0 < r.cols := Nat.le_max_right r.partsX 1
  have hrows : 0 < r.rows := Nat.le_max_right r.partsY 1
  have hmem {ix iy : Nat} (hx : ix ≤ r.cols) (hy : iy ≤ r.rows) :
      r.vertex ix iy ∈ r.centred.positions := Grid.mem_vertices.mpr ⟨ix, hx, iy, hy, rfl⟩
  have hwithin : ∀ p ∈ r.centred.positions, ∀ i, |p.along i| ≤ r.half.along i := by
    intro p hp i
    obtain ⟨ix, hx, iy, hy, rfl⟩ := Grid.mem_vertices.mp hp
    cases i with
    | x => exact abs_step_sub_half_le (abs_nonneg _) hcols hx
    | y =>
      rw [← abs_neg]
      show |-(r.height / 2 - iy * (r.height / r.rows))| ≤ r.height / 2
      rw [neg_sub]
      exact abs_step_sub_half_le (abs_nonneg _) hrows hy
    | z => exact abs_zero.le
  refine ⟨hwithin, Bounds.ofPoints_around hwithin (fun i => ?_) fun i => ?_⟩
  · refine ⟨r.vertex 0 r.rows, hmem (Nat.zero_le _) le_rfl, ?_⟩
    cases i with
    | x => exact step_first r.width r.cols
    | y =>
      have hlast := step_last hrows r.height
      show r.height / 2 - r.rows * (r.height / r.rows) = -(r.height / 2)
      linarith
    | z => exact neg_zero.symm
  · refine ⟨r.vertex r.cols 0, hmem le_rfl (Nat.zero_le _), ?_⟩
    cases i with
    | x => exact step_last hcols r.width
    | y =>
      have hfirst := step_first r.height r.rows
      show r.height / 2 - (0 : ℕ) * (r.height / r.rows) = r.height / 2
      linarith
    | z => rfl

theorem isSpannedBy_of_build {g : Geometry ℝ} (h : r.build = .ok g) : r.IsSpannedBy g := by
  have hpacks := packs_centred h
  refine ⟨_, hpacks.positions, rfl, ?_⟩
  rw [hpacks.bounds]
  exact r.spansAround_centred

/-! ### Exchanged corners -/

theorem lesser_exchanged (swapX swapY : Bool) :
    (r.exchanged swapX swapY).corner1.lesser (r.exchanged swapX swapY).corner2 =
      r.corner1.lesser r.corner2 := by
  cases swapX <;> cases swapY <;>
    simp [exchanged, Vec2.lesser, Exact.lesser_eq_min, min_comm]

theorem greater_exchanged (swapX swapY : Bool) :
    (r.exchanged swapX swapY).corner1.greater (r.exchanged swapX swapY).corner2 =
      r.corner1.greater r.corner2 := by
  cases swapX <;> cases swapY <;>
    simp [exchanged, Vec2.greater, Exact.greater_eq_max, max_comm]

theorem size_exchanged (swapX swapY : Bool) : (r.exchanged swapX swapY).size = r.size := by
  rw [size, size, lesser_exchanged, greater_exchanged]

theorem center_exchanged (swapX swapY : Bool) : (r.exchanged swapX swapY).center = r.center := by
  rw [center, center]
  congr 1
  ext
  · cases swapX
    · rfl
    · exact add_comm r.corner2.x r.corner1.x
  · cases swapY
    · rfl
    · exact add_comm r.corner2.y r.corner1.y

theorem buffers_exchanged (swapX swapY : Bool) : (r.exchanged swapX swapY).buffers = r.buffers := by
  rw [buffers, buffers, size_exchanged, lesser_exchanged, greater_exchanged]
  rfl

/-- Nothing that is built of a rectangle tells which corner a coordinate is from. -/
theorem build_exchanged (swapX swapY : Bool) {g : Geometry ℝ} :
    (r.exchanged swapX swapY).build = .ok g ↔ r.build = .ok g := by
  rw [build_eq_ok_iff, build_eq_ok_iff, buffers_exchanged, size_exchanged, offset,
    center_exchanged, offset]

end RectangleSpec

/-! ## 3. Boxes -/

/-- The coordinates of `p`, but those of `q` along the axes of `swap`. -/
def Vec3.exchange {K : Type} (swap : Axis → Bool) (p q : Vec3 K) : Vec3 K :=
  ⟨if swap .x then q.x else p.x, if swap .y then q.y else p.y, if swap .z then q.z else p.z⟩

theorem Vec3.along_exchange {K : Type} (swap : Axis → Bool) (p q : Vec3 K) (i : Axis) :
    (exchange swap p q).along i = if swap i then q.along i else p.along i := by
  cases i <;> rfl

theorem Axis.eq_of_apart {u v w : Axis} (h : u ≠ v ∧ u ≠ w ∧ v ≠ w) (i : Axis) :
    i = u ∨ i = v ∨ i = w := by
  revert h
  cases u <;> cases v <;> cases w <;> cases i <;> simp

namespace BoxSpec

/-- The box with coordinates exchanged between its corners. -/
def exchanged {K : Type} (b : BoxSpec K) (swap : Axis → Bool) : BoxSpec K :=
  { b with
    corner1 := Vec3.exchange swap b.corner1 b.corner2
    corner2 := Vec3.exchange swap b.corner2 b.corner1 }

variable (b : BoxSpec ℝ)

/-- Half of what the corners are apart by, along each axis. -/
noncomputable def half : Vec3 ℝ :=
  ⟨|b.corner2.x - b.corner1.x| / 2, |b.corner2.y - b.corner1.y| / 2,
    |b.corner2.z - b.corner1.z| / 2⟩

/-- The even grid of a face, on a side of an axis: it has the parts of the box along the two other
    axes, with steps in a direction of each. -/
def IsFaceGrid (w : Axis) (side : ℝ) (ps : List (Vec3 ℝ)) : Prop :=
  ∃ u v signU signV f, (u ≠ v ∧ u ≠ w ∧ v ≠ w) ∧ (|signU| = 1 ∧ |signV| = 1) ∧
    ps = Grid.vertices (b.parts u) (b.parts v) f ∧ ∀ ix iy : Nat,
      (f ix iy).along w = side * b.size.along w / 2 ∧
      (f ix iy).along u = (ix * (b.size.along u / b.parts u) - b.size.along u / 2) * signU ∧
      (f ix iy).along v = (iy * (b.size.along v / b.parts v) - b.size.along v / 2) * signV

/-- A geometry with the even grids of the sides of a box for its vertices, around the origin. -/
def IsSpannedBy (g : Geometry ℝ) : Prop :=
  ∃ faces, g.positions? = some faces.flatten ∧
    List.Forall₂ (fun side ps => b.IsFaceGrid side.1 side.2 ps) sides faces ∧
    SpansAround b.half faces.flatten g.bounds

variable {b}

theorem along_half (i : Axis) : b.half.along i = b.size.along i / 2 := by cases i <;> rfl

theorem size_nonneg (i : Axis) : 0 ≤ b.size.along i := by
  rw [along_size]
  exact abs_nonneg _

/-! ### Faces -/

namespace IsFace

variable {w : Axis} {side : ℝ} {f : BoxFace ℝ}

theorem isFaceGrid (h : b.IsFace w side f) : b.IsFaceGrid w side f.grid := by
  refine ⟨f.u, f.v, f.signU, f.signV, f.vertex, Axis.apart_of_turn h.turn_ne_zero, h.signs, ?_,
    h.along_vertex⟩
  rw [BoxFace.grid, h.cols, h.rows]

theorem within (h : b.IsFace w side f) {p : Vec3 ℝ} (hp : p ∈ f.grid) (i : Axis) :
    |p.along i| ≤ b.half.along i := by
  obtain ⟨ix, hx, iy, hy, rfl⟩ := Grid.mem_vertices.mp hp
  obtain ⟨hw, hu, hv⟩ := h.along_vertex ix iy
  rw [h.cols] at hx
  rw [h.rows] at hy
  rw [along_half]
  -- the three axes of a face are all that there are
  obtain rfl | rfl | rfl := Axis.eq_of_apart (Axis.apart_of_turn h.turn_ne_zero) i
  · rw [hu, abs_mul, h.signs.1, mul_one]
    exact abs_step_sub_half_le (size_nonneg _) (b.parts_pos _) hx
  · rw [hv, abs_mul, h.signs.2, mul_one]
    exact abs_step_sub_half_le (size_nonneg _) (b.parts_pos _) hy
  · have hside : |side| = 1 := by rcases h.side with rfl | rfl <;> norm_num
    rw [hw, abs_div, abs_mul, hside, one_mul, abs_of_nonneg (size_nonneg _), abs_two]

theorem exists_mem (h : b.IsFace w side f) : ∃ p ∈ f.grid, p.along w = side * b.half.along w := by
  refine ⟨f.vertex 0 0, Grid.mem_vertices.mpr ⟨0, Nat.zero_le _, 0, Nat.zero_le _, rfl⟩, ?_⟩
  rw [(h.along_vertex 0 0).1, along_half, mul_div_assoc]

end IsFace

variable (b)

theorem positions_buffers_eq : b.buffers.positions = (b.faces.map BoxFace.grid).flatten := by
  rw [buffers, Buffers.positions_joined BoxFace.buffers BoxFace.grid fun _ _ => rfl]
  exact List.nil_append _

theorem spansAround_buffers :
    SpansAround b.half b.buffers.positions (Bounds.ofPoints b.buffers.positions) := by
  have hmem {f : BoxFace ℝ} {p : Vec3 ℝ} (hf : f ∈ b.faces) (hp : p ∈ f.grid) :
      p ∈ b.buffers.positions := by
    rw [positions_buffers_eq, ← List.flatMap_def]
    exact List.mem_flatMap.mpr ⟨f, hf, hp⟩
  have hwithin : ∀ p ∈ b.buffers.positions, ∀ i, |p.along i| ≤ b.half.along i := by
    intro p hp
    rw [positions_buffers_eq, ← List.flatMap_def] at hp
    obtain ⟨f, hf, hp⟩ := List.mem_flatMap.mp hp
    obtain ⟨w, side, hface⟩ := exists_isFace hf
    exact hface.within hp
  refine ⟨hwithin, Bounds.ofPoints_around hwithin (fun i => ?_) fun i => ?_⟩
  · obtain ⟨f, hf, hface⟩ := b.exists_face i (.inr rfl)
    obtain ⟨p, hp, hend⟩ := hface.exists_mem
    exact ⟨p, hmem hf hp, by rw [hend, neg_one_mul]⟩
  · obtain ⟨f, hf, hface⟩ := b.exists_face i (.inl rfl)
    obtain ⟨p, hp, hend⟩ := hface.exists_mem
    exact ⟨p, hmem hf hp, by rw [hend, one_mul]⟩

/-! ### Exchanged corners -/

theorem size_exchanged (swap : Axis → Bool) : (b.exchanged swap).size = b.size := by
  refine Vec3.ext_along fun i => ?_
  rw [along_size, along_size, exchanged, Vec3.along_exchange, Vec3.along_exchange]
  cases swap i
  · rfl
  · exact abs_sub_comm _ _

theorem buffers_exchanged (swap : Axis → Bool) : (b.exchanged swap).buffers = b.buffers := by
  rw [buffers, buffers, faces, size_exchanged]
  rfl

theorem build_exchanged (swap : Axis → Bool) {g : Geometry ℝ} :
    (b.exchanged swap).build = .ok g ↔ b.build = .ok g := by
  rw [build_eq_ok_iff, build_eq_ok_iff, ← flat_iff, ← flat_iff, size_exchanged, buffers_exchanged]

theorem isSpannedBy_ofBuffers : b.IsSpannedBy (.ofBuffers b.buffers) := by
  have hspans := b.spansAround_buffers
  refine ⟨b.faces.map BoxFace.grid, ?_, ?_, ?_⟩
  · rw [← positions_buffers_eq]
    exact Geometry.positions?_ofBuffers b.buffers
  · exact List.forall₂_map_right_iff.mpr (b.isFace_faces.imp fun _ _ h => h.isFaceGrid)
  · rw [positions_buffers_eq] at hspans
    show SpansAround _ _ (Bounds.ofPoints b.buffers.positions)
    rwa [positions_buffers_eq]

end BoxSpec

/-! ## 4. Shapes between corners -/

/-- Rectangles and boxes are built unless their corners agree in a coordinate.  They span as much as
    their corners, around the origin, and the corners can exchange coordinates. -/
theorem corners_spanned :
    (∀ r : RectangleSpec ℝ,
      (r.build = .error (.degenerate (.rectangle r.corner1 r.corner2)) ↔
        r.corner1.x = r.corner2.x ∨ r.corner1.y = r.corner2.y) ∧
      (¬ (r.corner1.x = r.corner2.x ∨ r.corner1.y = r.corner2.y) →
        ∃ g, r.build = .ok g ∧ r.IsSpannedBy g ∧
          ∀ swapX swapY, (r.exchanged swapX swapY).build = .ok g)) ∧
    ∀ b : BoxSpec ℝ,
      (b.build = .error (.degenerate (.box b.corner1 b.corner2)) ↔
        ∃ i, b.corner1.along i = b.corner2.along i) ∧
      ((¬ ∃ i, b.corner1.along i = b.corner2.along i) →
        ∃ g, b.build = .ok g ∧ b.IsSpannedBy g ∧ ∀ swap, (b.exchanged swap).build = .ok g) := by
  constructor
  · refine fun r => ⟨RectangleSpec.build_eq_error_iff, fun hcorners => ?_⟩
    obtain ⟨g, hbuild⟩ := RectangleSpec.exists_build_iff.mpr hcorners
    exact ⟨g, hbuild, r.isSpannedBy_of_build hbuild, fun _ _ => (r.build_exchanged _ _).mpr hbuild⟩
  · refine fun b => ⟨b.build_eq_error_iff, fun hcorners => ?_⟩
    have hbuild := BoxSpec.build_eq_ok_iff.mpr ⟨hcorners, rfl⟩
    exact ⟨_, hbuild, b.isSpannedBy_ofBuffers, fun _ => (b.build_exchanged _).mpr hbuild⟩

/-- A rectangle of 2 by 1 and a box of 4 by 2 by 1. -/
theorem corners_spanned_of_samples :
    (∃ g, RectangleSpec.banner.build = .ok g ∧ RectangleSpec.banner.IsSpannedBy g ∧
      RectangleSpec.banner.half = ⟨1, 1 / 2, 0⟩) ∧
    ∃ g, BoxSpec.brick.build = .ok g ∧ BoxSpec.brick.IsSpannedBy g ∧
      BoxSpec.brick.half = ⟨2, 1, 1 / 2⟩ := by
  obtain ⟨hrectangle, hbox⟩ := corners_spanned
  obtain ⟨g, hg, hspanned, -⟩ := (hrectangle RectangleSpec.banner).2 RectangleSpec.banner_apart
  obtain ⟨g', hg', hspanned', -⟩ := (hbox BoxSpec.brick).2 BoxSpec.brick_apart
  refine ⟨⟨g, hg, hspanned, ?_⟩, g', hg', hspanned', ?_⟩
  · norm_num [RectangleSpec.half, RectangleSpec.banner]
  · norm_num [BoxSpec.half, BoxSpec.brick]

end SceneAssembly
