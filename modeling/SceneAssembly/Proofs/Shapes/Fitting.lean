/-
  SceneAssembly/Proofs/Shapes/Fitting.lean
  ========================================
  **Buffers that fit together.**

  Buffers fit if each vertex has a normal and a place in the texture, and the
  triangles lie between vertices that exist (`Buffers.Fits`).  Parts that fit
  where they are numbered from fit when they are joined (`Fits.append`), so each
  shape is looked at part by part: most parts are grids, whose cells name four
  vertices that are close to each other (`Grid.vertex_lt`).
-/
import Mathlib.Algebra.BigOperators.Group.List.Lemmas
import Mathlib.Algebra.Order.Ring.Nat
import Mathlib.Tactic.Ring
import SceneAssembly.Shape.Build

namespace SceneAssembly

variable {K : Type}

/-! ## 1. Lists of parts -/

section Parts

variable {α β : Type} {n : Nat} {f : α → List β} {l : List α} {i : Nat} {a : α}

theorem drop_flatMap (h : ∀ a, (f a).length = n) (l : List α) (i : Nat) :
    (l.flatMap f).drop (n * i) = (l.drop i).flatMap f := by
  induction l generalizing i with
  | nil => simp
  | cons b rest ih =>
    cases i with
    | zero => rw [Nat.mul_zero, List.drop_zero, List.drop_zero]
    | succ i =>
      rw [List.flatMap_cons, Nat.mul_succ, Nat.add_comm, ← List.drop_drop, List.drop_left' (h b)]
      exact ih i

theorem exists_drop_flatMap (h : ∀ a, (f a).length = n) (ha : l[i]? = some a) :
    ∃ rest, (l.flatMap f).drop (n * i) = f a ++ rest := by
  obtain ⟨hi, rfl⟩ := List.getElem?_eq_some_iff.mp ha
  rw [drop_flatMap h, List.drop_eq_getElem_cons hi, List.flatMap_cons]
  exact ⟨_, rfl⟩

/-- A part of a list of parts, all of one length. -/
theorem take_drop_flatMap (h : ∀ a, (f a).length = n) (ha : l[i]? = some a) :
    ((l.flatMap f).drop (n * i)).take n = f a := by
  obtain ⟨rest, hrest⟩ := exists_drop_flatMap h ha
  rw [hrest, List.take_left' (h a)]

/-- An item of a part. -/
theorem getElem?_flatMap (h : ∀ a, (f a).length = n) (ha : l[i]? = some a) {k : Nat}
    (hk : k < n) : (l.flatMap f)[n * i + k]? = (f a)[k]? := by
  obtain ⟨rest, hrest⟩ := exists_drop_flatMap h ha
  rw [← List.getElem?_drop, hrest, List.getElem?_append_left (by rwa [h a])]

end Parts

/-! ## 2. Triangles between vertices -/

/-- A list of triangles, by the numbers of their corners, which are below `n`. -/
structure Triangles (n : Nat) (l : List Nat) : Prop where
  whole : 3 ∣ l.length
  inside : ∀ i ∈ l, i < n

namespace Triangles

variable {m n : Nat} {l l' : List Nat}

theorem nil (n : Nat) : Triangles n [] := ⟨⟨0, rfl⟩, by simp⟩

theorem append (h : Triangles n l) (h' : Triangles n l') : Triangles n (l ++ l') := by
  constructor
  · rw [List.length_append]
    exact Nat.dvd_add h.whole h'.whole
  · intro i hi
    rcases List.mem_append.mp hi with hi | hi
    · exact h.inside i hi
    · exact h'.inside i hi

theorem mono (h : Triangles m l) (hmn : m ≤ n) : Triangles n l :=
  ⟨h.whole, fun i hi => Nat.lt_of_lt_of_le (h.inside i hi) hmn⟩

theorem flatMap {α : Type} {as : List α} {f : α → List Nat} (h : ∀ a ∈ as, Triangles n (f a)) :
    Triangles n (as.flatMap f) := by
  induction as with
  | nil => exact nil n
  | cons a rest ih =>
    rw [List.flatMap_cons]
    exact (h a List.mem_cons_self).append (ih fun b hb => h b (List.mem_cons_of_mem a hb))

/-- The triangles of cells, row by row or column by column. -/
theorem cells {p q : Nat} {f : Nat → Nat → List Nat}
    (h : ∀ i j, i < p → j < q → Triangles n (f i j)) :
    Triangles n ((List.range p).flatMap fun i => (List.range q).flatMap (f i)) :=
  flatMap fun i hi => flatMap fun j hj => h i j (List.mem_range.mp hi) (List.mem_range.mp hj)

theorem one {a b c : Nat} (ha : a < n) (hb : b < n) (hc : c < n) : Triangles n [a, b, c] :=
  ⟨⟨1, rfl⟩, by simp [ha, hb, hc]⟩

theorem two {a b c d e f : Nat} (ha : a < n) (hb : b < n) (hc : c < n) (hd : d < n) (he : e < n)
    (hf : f < n) : Triangles n [a, b, c, d, e, f] :=
  (one ha hb hc).append (one hd he hf)

/-- The triangles of a list of indices, by their corners. -/
def cut : List Nat → List (Nat × Nat × Nat)
  | a :: b :: c :: rest => (a, b, c) :: cut rest
  | _ => []

theorem length_lt_of_short (h : ∀ a b c rest, l = a :: b :: c :: rest → False) : l.length < 3 := by
  match l with
  | [] => simp
  | [_] => simp
  | [_, _] => simp
  | a :: b :: c :: rest => exact (h a b c rest rfl).elim

theorem cut_append (h : 3 ∣ l.length) (l' : List Nat) : cut (l ++ l') = cut l ++ cut l' := by
  fun_induction cut l with
  | case1 a b c rest ih =>
    have hrest : 3 ∣ rest.length := (Nat.dvd_add_left (Nat.dvd_refl 3)).mp h
    rw [List.cons_append, List.cons_append, List.cons_append, cut, ih hrest, List.cons_append]
  | case2 l hshort =>
    obtain rfl := List.length_eq_zero_iff.mp
      (Nat.eq_zero_of_dvd_of_lt h (length_lt_of_short hshort))
    rfl

theorem cut_flatMap {α : Type} {as : List α} {f : α → List Nat}
    (h : ∀ a ∈ as, 3 ∣ (f a).length) : cut (as.flatMap f) = as.flatMap fun a => cut (f a) := by
  induction as with
  | nil => rfl
  | cons a rest ih =>
    rw [List.flatMap_cons, List.flatMap_cons, cut_append (h a List.mem_cons_self),
      ih fun b hb => h b (List.mem_cons_of_mem a hb)]

theorem length_cut (l : List Nat) : (cut l).length = l.length / 3 := by
  fun_induction cut l with
  | case1 a b c rest ih =>
    rw [List.length_cons, ih]
    exact (Nat.add_div_right rest.length (by decide)).symm
  | case2 l hshort => exact (Nat.div_eq_of_lt (length_lt_of_short hshort)).symm

end Triangles

/-- The triangles of a geometry, by the numbers of their corners. -/
def Geometry.triangles (g : Geometry K) : List (Nat × Nat × Nat) := Triangles.cut g.indices

theorem Geometry.length_triangles (g : Geometry K) : g.triangles.length = g.triangleCount :=
  Triangles.length_cut g.indices

/-! ## 3. Buffers that fit -/

namespace Buffers

/-- Buffers whose vertices are numbered from `base` are complete. -/
structure Fits (b : Buffers K) (base : Nat) : Prop where
  normals : b.normals.length = b.positions.length
  uvs : b.uvs.length = b.positions.length
  triangles : Triangles (base + b.positions.length) b.indices

namespace Fits

variable {a b : Buffers K}

theorem empty : (empty : Buffers K).Fits 0 := ⟨rfl, rfl, .nil 0⟩

theorem append (ha : a.Fits 0) (hb : b.Fits a.positions.length) : (a.append b).Fits 0 where
  normals := by simp [Buffers.append, ha.normals, hb.normals]
  uvs := by simp [Buffers.append, ha.uvs, hb.uvs]
  triangles := by
    have hlength : 0 + (a.append b).positions.length = a.positions.length + b.positions.length := by
      simp [Buffers.append]
    rw [hlength]
    exact (ha.triangles.mono (by omega)).append hb.triangles

/-- Parts that are added one by one, each numbered from where the one before ended. -/
theorem joined {α : Type} {part : α → Nat → Buffers K} (h : ∀ x base, (part x base).Fits base)
    (xs : List α) (ha : a.Fits 0) :
    (xs.foldl (fun acc x => acc.append (part x acc.positions.length)) a).Fits 0 := by
  induction xs generalizing a with
  | nil => exact ha
  | cons x rest ih => exact ih (ha.append (h x _))

/-- Moving the positions changes no count. -/
theorem moved [Scalar K] {base : Nat} (h : b.Fits base) (offset : Vec3 K) :
    (b.moved offset).Fits base where
  normals := by rw [Buffers.moved, List.length_map, h.normals]
  uvs := by rw [Buffers.moved, List.length_map, h.uvs]
  triangles := by
    rw [Buffers.moved, List.length_map]
    exact h.triangles

end Fits

end Buffers

/-! ## 4. Grids -/

namespace Grid

variable {base cols rows ix iy : Nat}

@[simp] theorem length_vertices {α : Type} (cols rows : Nat) (f : Nat → Nat → α) :
    (vertices cols rows f).length = (cols + 1) * (rows + 1) := by
  simp [vertices, Nat.mul_comm]

/-- The vertices of a grid, numbered row by row. -/
theorem vertex_lt (hx : ix ≤ cols) (hy : iy ≤ rows) :
    ix + (cols + 1) * iy < (cols + 1) * (rows + 1) :=
  calc ix + (cols + 1) * iy < (cols + 1) + (cols + 1) * iy :=
        Nat.add_lt_add_right (Nat.lt_succ_of_le hx) _
    _ = (cols + 1) * (iy + 1) := by ring
    _ ≤ (cols + 1) * (rows + 1) := Nat.mul_le_mul_left _ (Nat.succ_le_succ hy)

theorem vertex_lt' (hx : ix ≤ cols) (hy : iy ≤ rows) :
    iy * (cols + 1) + ix < (cols + 1) * (rows + 1) := by
  have h := vertex_lt hx hy
  rwa [Nat.add_comm, Nat.mul_comm] at h

/-- Vertices that are numbered row by row have different numbers. -/
theorem vertex_inj {w x y x' y' : Nat} (hx : x < w) (hx' : x' < w)
    (h : y * w + x = y' * w + x') : x = x' ∧ y = y' := by
  have hcolumn : x = x' := by
    have hmod := congrArg (· % w) h
    simpa [Nat.mul_add_mod_self_right, Nat.mod_eq_of_lt hx, Nat.mod_eq_of_lt hx'] using hmod
  subst hcolumn
  exact ⟨rfl, Nat.eq_of_mul_eq_mul_right (Nat.zero_lt_of_lt hx) (Nat.add_right_cancel h)⟩

/-- The value at a vertex. -/
theorem getElem?_vertices {α : Type} (f : Nat → Nat → α) (hx : ix ≤ cols) (hy : iy ≤ rows) :
    (vertices cols rows f)[(cols + 1) * iy + ix]? = some (f ix iy) := by
  have hrow : (List.range (rows + 1))[iy]? = some iy :=
    List.getElem?_range (Nat.lt_succ_of_le hy)
  rw [vertices, getElem?_flatMap (fun iy => by simp) hrow (Nat.lt_succ_of_le hx),
    List.getElem?_map, List.getElem?_range (Nat.lt_succ_of_le hx), Option.map_some]

theorem triangles_cell (base : Nat) (hx : ix < cols) (hy : iy < rows) :
    Triangles (base + (cols + 1) * (rows + 1)) (cell base cols ix iy) := by
  have hx' : ix + 1 ≤ cols := hx
  have hy' : iy + 1 ≤ rows := hy
  have ha := vertex_lt (Nat.le_of_lt hx) (Nat.le_of_lt hy)
  have hb := vertex_lt (Nat.le_of_lt hx) hy'
  have hc := vertex_lt hx' hy'
  have hd := vertex_lt hx' (Nat.le_of_lt hy)
  apply Triangles.two <;> omega

theorem triangles_indices (base cols rows : Nat) :
    Triangles (base + (cols + 1) * (rows + 1)) (indices base cols rows) :=
  Triangles.cells fun _ _ hy hx => triangles_cell base hx hy

end Grid

/-! ## 5. The parts of shapes -/

variable [Scalar K]

theorem RectangleSpec.fits_buffers (r : RectangleSpec K) : r.buffers.Fits 0 where
  normals := by simp [buffers]
  uvs := by simp [buffers]
  triangles := by
    simp only [buffers, Grid.length_vertices]
    exact Grid.triangles_indices 0 _ _

theorem BoxFace.fits_buffers (f : BoxFace K) (base : Nat) : (f.buffers base).Fits base where
  normals := by simp [buffers]
  uvs := by simp [buffers]
  triangles := by
    simp only [buffers, Grid.length_vertices]
    exact Grid.triangles_indices base _ _

theorem BoxSpec.fits_buffers (b : BoxSpec K) : b.buffers.Fits 0 :=
  .joined BoxFace.fits_buffers b.faces .empty

namespace CylinderSpec

theorem fits_side (c : CylinderSpec K) : c.side.Fits 0 where
  normals := by simp [side]
  uvs := by simp [side]
  triangles := by
    simp only [side, Grid.length_vertices, Nat.zero_add]
    refine Triangles.cells fun x y hx hy => ?_
    have ha := Grid.vertex_lt' (Nat.le_of_lt hx) (Nat.le_of_lt hy)
    have hb := Grid.vertex_lt' (Nat.le_of_lt hx) (Nat.succ_le_of_lt hy)
    have hc := Grid.vertex_lt' (Nat.succ_le_of_lt hx) (Nat.succ_le_of_lt hy)
    have hd := Grid.vertex_lt' (Nat.succ_le_of_lt hx) (Nat.le_of_lt hy)
    exact .two ha hb hd hb hc hd

/-- A cap has its centres before its rim, which has one vertex more. -/
theorem fits_cap (c : CylinderSpec K) (base : Nat) (top : Bool) : (c.cap base top).Fits base where
  normals := by simp [cap]
  uvs := by simp [cap]
  triangles := by
    simp only [cap, List.length_append, List.length_map, List.length_range]
    refine Triangles.flatMap fun x hx => ?_
    have hx : x < c.around := List.mem_range.mp hx
    cases top with
    | true => exact .one (by omega) (by omega) (by omega)
    | false => exact .one (by omega) (by omega) (by omega)

theorem fits_withCap {c : CylinderSpec K} {b : Buffers K} (hb : b.Fits 0) (top : Bool) :
    (c.withCap top b).Fits 0 := by
  by_cases hopen : 0 < (if top then c.top else c.base)
  · rw [withCap, if_pos hopen]
    exact hb.append (c.fits_cap _ top)
  · rwa [withCap, if_neg hopen]

end CylinderSpec

namespace SphereSpec

/-- The buffers of a sphere. -/
def buffers (s : SphereSpec K) : Buffers K where
  positions := Grid.vertices s.around s.along fun x y => (s.direction x y).scale s.radius
  normals := Grid.vertices s.around s.along s.direction
  uvs := Grid.vertices s.around s.along fun x y =>
    ⟨(x : K) / (s.around : K) + s.poleShift y, 1 - (y : K) / (s.along : K)⟩
  indices := (List.range s.along).flatMap fun y => (List.range s.around).flatMap fun x =>
    s.cell x y

theorem build_eq (s : SphereSpec K) : s.build = .ofBuffers s.buffers := rfl

/-- What is drawn of a cell lies between its vertices, at the poles too. -/
theorem fits_buffers (s : SphereSpec K) : s.buffers.Fits 0 where
  normals := by simp [buffers]
  uvs := by simp [buffers]
  triangles := by
    simp only [buffers, Grid.length_vertices, Nat.zero_add]
    refine Triangles.cells fun y x hy hx => ?_
    have ha := Grid.vertex_lt' (Nat.succ_le_of_lt hx) (Nat.le_of_lt hy)
    have hb := Grid.vertex_lt' (Nat.le_of_lt hx) (Nat.le_of_lt hy)
    have hc := Grid.vertex_lt' (Nat.le_of_lt hx) (Nat.succ_le_of_lt hy)
    have hd := Grid.vertex_lt' (Nat.succ_le_of_lt hx) (Nat.succ_le_of_lt hy)
    refine Triangles.append ?_ ?_
    · split
      · exact .one ha hb hd
      · exact .nil _
    · split
      · exact .one hb hc hd
      · exact .nil _

end SphereSpec

namespace PolygonSpec

/-- The buffers of a fan, without its colours. -/
def buffers (p : PolygonSpec K) : Buffers K where
  positions := Grid.vertices p.around p.rings fun i j =>
    let ring := p.radius * ((j : K) / (p.rings : K))
    ⟨ring * Scalar.cos ((i : K) / (p.around : K) * Scalar.tau),
      ring * Scalar.sin ((i : K) / (p.around : K) * Scalar.tau), 0⟩
  normals := Grid.vertices p.around p.rings fun _ _ => Vec3.unitZ
  uvs := Grid.vertices p.around p.rings fun i j =>
    ⟨(i : K) / (p.around : K), (j : K) / (p.rings : K)⟩
  indices := indices p.rings p.around

theorem build_eq (p : PolygonSpec K) :
    p.build = (Geometry.ofBuffers p.buffers).setAttribute "color"
      (.ofTriples (Grid.vertices p.around p.rings fun _ j =>
        p.centerColor.lerp p.rimColor ((j : K) / (p.rings : K)))) := rfl

theorem fits_buffers (p : PolygonSpec K) : p.buffers.Fits 0 where
  normals := by simp [buffers]
  uvs := by simp [buffers]
  triangles := by
    simp only [buffers, Grid.length_vertices, Nat.zero_add]
    refine Triangles.cells fun j i hj hi => ?_
    have hnext : (j + 1) * (p.around + 1) = j * (p.around + 1) + (p.around + 1) := Nat.succ_mul _ _
    have hk := Grid.vertex_lt' (Nat.le_of_lt hi) (Nat.le_of_lt hj)
    have hk1 := Grid.vertex_lt' (Nat.succ_le_of_lt hi) (Nat.le_of_lt hj)
    have hk2 := Grid.vertex_lt' (Nat.le_of_lt hi) (Nat.succ_le_of_lt hj)
    have hk3 := Grid.vertex_lt' (Nat.succ_le_of_lt hi) (Nat.succ_le_of_lt hj)
    simp only [Nat.succ_eq_add_one] at hk1 hk2 hk3
    refine Triangles.append ?_ (.one (by omega) (by omega) (by omega))
    split
    · exact .one (by omega) (by omega) (by omega)
    · exact .nil _

end PolygonSpec

theorem SkyboxSpec.fits_faceBuffers (s : SkyboxSpec K) (f : SkyboxSpec.Face K) (base : Nat) :
    (s.faceBuffers f base).Fits base where
  normals := rfl
  uvs := rfl
  triangles := by
    show Triangles (base + 4) [base, base + 1, base + 2, base, base + 2, base + 3]
    apply Triangles.two <;> omega

namespace SurfaceSpec

/-- The buffers of a surface that is sampled. -/
def buffers (s : SurfaceSpec K) : Buffers K :=
  let partsU := max s.partsU 1
  let partsV := max s.partsV 1
  let samples := Grid.vertices partsV partsU fun iv iu =>
    s.evaluate ((iu : K) / (partsU : K)) ((iv : K) / (partsV : K))
  { positions := samples.map Prod.fst
    normals := samples.map fun p => p.2.unit?.getD Vec3.unitZ
    uvs := Grid.vertices partsV partsU fun iv iu => ⟨(iu : K) / (partsU : K), (iv : K) / (partsV : K)⟩
    indices := indices partsU partsV }

theorem build_ok {s : SurfaceSpec K} {g : Geometry K} (h : s.build = .ok g) :
    g = .ofBuffers s.buffers := by
  unfold build at h
  split at h
  · cases h
  · simp only at h
    split at h
    · exact (Except.ok.inj h).symm
    · cases h

theorem fits_buffers (s : SurfaceSpec K) : s.buffers.Fits 0 where
  normals := by simp [buffers]
  uvs := by simp [buffers]
  triangles := by
    simp only [buffers, List.length_map, Grid.length_vertices, Nat.zero_add]
    refine Triangles.cells fun iu iv hu hv => ?_
    have ha := Grid.vertex_lt' (Nat.le_of_lt hv) (Nat.le_of_lt hu)
    have hc := Grid.vertex_lt' (Nat.succ_le_of_lt hv) (Nat.succ_le_of_lt hu)
    have hnext := Nat.succ_mul iu (max s.partsV 1 + 1)
    simp only [Nat.succ_eq_add_one] at hc hnext
    apply Triangles.two <;> omega

end SurfaceSpec

namespace Track

theorem length_framesFrom (previous : Frame K) (steps : List (Option (Vec3 K))) :
    (framesFrom previous steps).length = steps.length := by
  induction steps generalizing previous with
  | nil => rfl
  | cons step rest ih => simp [framesFrom, ih]

theorem length_frames (samples : List (Vec3 K)) (closed : Bool) :
    (frames samples closed).length = samples.length := by
  rw [frames, length_framesFrom]
  cases samples <;> simp [steps]

/-- A segment lies between its section and the next one, which is the first after the last. -/
theorem triangles_segment {sections i : Nat} (hi : i < sections) :
    Triangles (4 * sections) (segment sections i) := by
  constructor
  · rw [segment, List.length_map]
    decide
  · intro n hn
    obtain ⟨k, hk, rfl⟩ := List.mem_map.mp hn
    have hcorner : ∀ k ∈ segmentTemplate, k < 8 := by decide
    have hk := hcorner k hk
    split <;> omega

theorem triangles_indices (sections : Nat) (closed : Bool) :
    Triangles (4 * sections) (indices sections closed) := by
  refine Triangles.flatMap fun i hi => triangles_segment ?_
  have hi := List.mem_range.mp hi
  cases closed with
  | true => exact hi
  | false => exact Nat.lt_of_lt_of_le hi (Nat.sub_le _ _)

end Track

namespace TrackSpec

/-- The buffers of a ribbon, without its colour. -/
def buffers (t : TrackSpec K) (samples : List (Vec3 K)) : Buffers K :=
  let framed := samples.zip (Track.frames samples t.closed)
  { positions := framed.flatMap fun (point, frame) =>
      Track.corners.map fun (ns, bs, _) => t.corner point frame (ns, bs)
    normals := framed.flatMap fun (_, frame) => Track.corners.map fun (_ : K × K × Vec2 K) =>
      frame.binormal
    uvs := framed.flatMap fun _ => Track.corners.map fun (_, _, uv) => uv
    indices := Track.indices samples.length t.closed }

theorem build_ok {t : TrackSpec K} {samples : List (Vec3 K)} {g : Geometry K}
    (h : t.build samples = .ok g) :
    g = (Geometry.ofBuffers (t.buffers samples)).setAttribute "color"
      (.ofTriples ((t.buffers samples).positions.map fun _ => Track.color)) := by
  unfold build at h
  split at h
  · cases h
  · exact (Except.ok.inj h).symm

theorem length_positions (t : TrackSpec K) (samples : List (Vec3 K)) :
    (t.buffers samples).positions.length = 4 * samples.length := by
  simp [buffers, Track.corners, Track.length_frames, Nat.mul_comm]

theorem fits_buffers (t : TrackSpec K) (samples : List (Vec3 K)) :
    (t.buffers samples).Fits 0 where
  normals := by simp [buffers, Track.corners]
  uvs := by simp [buffers, Track.corners]
  triangles := by
    rw [length_positions, Nat.zero_add]
    exact Track.triangles_indices samples.length t.closed

end TrackSpec

end SceneAssembly
