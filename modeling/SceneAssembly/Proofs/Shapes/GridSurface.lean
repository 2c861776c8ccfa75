/-
  SceneAssembly/Proofs/Shapes/GridSurface.lean
  ============================================
  **The triangles of a grid are an oriented surface.**

  The number of a vertex tells its column and row (`Grid.place_number`), so an
  edge of a triangle can be looked at by where its ends are: it belongs to one
  cell (`Grid.home_of_mem_sides`), and it goes one step along a column, along a
  row or across a cell (`Grid.mem_allSides_iff`).  No edge is run through twice
  the same way, and those that are not run through the other way as well are
  those along the four sides of the grid.  In the plane the triangles are all
  turned the same way, leave nothing out and do not overlap.
-/
import Mathlib.Algebra.Order.Floor.Semiring
import SceneAssembly.Proofs.Shapes.Corners
import SceneAssembly.Proofs.Shapes.GridTriangles

namespace SceneAssembly

/-! ## 1. Edges -/

namespace Triangles

/-- The edges of a triangle, from corner to corner. -/
def edgesOf (t : Nat × Nat × Nat) : List (Nat × Nat) := [(t.1, t.2.1), (t.2.1, t.2.2), (t.2.2, t.1)]

/-- The edges of some triangles. -/
def edges (ts : List (Nat × Nat × Nat)) : List (Nat × Nat) := ts.flatMap edgesOf

/-- No two corners of the triangle are one vertex. -/
def Proper (t : Nat × Nat × Nat) : Prop := t.1 ≠ t.2.1 ∧ t.2.1 ≠ t.2.2 ∧ t.2.2 ≠ t.1

variable {ts : List (Nat × Nat × Nat)} {t t' : Nat × Nat × Nat} {e : Nat × Nat}

theorem mem_edges_iff : e ∈ edges ts ↔ ∃ t ∈ ts, e ∈ edgesOf t := List.mem_flatMap

/-- If no edge is there twice, it belongs to one triangle only. -/
theorem eq_of_mem_edgesOf (h : (edges ts).Nodup) (ht : t ∈ ts) (ht' : t' ∈ ts)
    (he : e ∈ edgesOf t) (he' : e ∈ edgesOf t') : t = t' := by
  by_contra hne
  have : Std.Symm (Function.onFun List.Disjoint edgesOf) := ⟨fun _ _ hxy => hxy.symm⟩
  exact (List.nodup_flatMap.mp h).2.forall ht ht' hne he he'

/-- A triangle does not run through an edge both ways. -/
theorem swap_notMem_edgesOf (h : Proper t) (he : e ∈ edgesOf t) : e.swap ∉ edgesOf t := by
  obtain ⟨a, b, c⟩ := t
  obtain ⟨hab, hbc, hca⟩ := h
  simp only [edgesOf, List.mem_cons, List.not_mem_nil, or_false] at he
  simp only at hab hbc hca
  rcases he with rfl | rfl | rfl <;>
    simp [edgesOf, hab, hab.symm, hbc, hbc.symm, hca, hca.symm]

end Triangles

namespace Grid

variable {base cols rows : Nat}

/-! ## 2. Numbers and places -/

/-- The column and the row of the vertex with a number. -/
def place (base cols v : Nat) : Nat × Nat := ((v - base) % (cols + 1), (v - base) / (cols + 1))

theorem place_number {x y : Nat} (hx : x ≤ cols) :
    place base cols (number base cols x y) = (x, y) := by
  have hsub : number base cols x y - base = x + (cols + 1) * y := by
    rw [number, Nat.add_assoc, Nat.add_sub_cancel_left]
  rw [place, hsub, Nat.add_mul_mod_self_left, Nat.add_mul_div_left _ _ (Nat.succ_pos cols),
    Nat.mod_eq_of_lt (Nat.lt_succ_of_le hx), Nat.div_eq_of_lt (Nat.lt_succ_of_le hx), Nat.zero_add]

/-- Vertices at different places have different numbers. -/
theorem number_ne {x y x' y' : Nat} (hx : x ≤ cols) (hx' : x' ≤ cols) (h : (x, y) ≠ (x', y')) :
    number base cols x y ≠ number base cols x' y' := fun heq =>
  h (by rw [← place_number hx, heq, place_number hx'])

theorem number_mem_range {x y : Nat} (hx : x ≤ cols) (hy : y ≤ rows) :
    base ≤ number base cols x y ∧ number base cols x y < base + (cols + 1) * (rows + 1) := by
  have hlt := vertex_lt hx hy
  simp only [number]
  omega

/-- Every number in the range is that of a vertex. -/
theorem exists_number {v : Nat} (hlo : base ≤ v) (hhi : v < base + (cols + 1) * (rows + 1)) :
    ∃ x ≤ cols, ∃ y ≤ rows, v = number base cols x y := by
  have hoff : v - base < (cols + 1) * (rows + 1) := by omega
  refine ⟨(v - base) % (cols + 1), Nat.le_of_lt_succ (Nat.mod_lt _ (Nat.succ_pos cols)),
    (v - base) / (cols + 1), Nat.le_of_lt_succ (Nat.div_lt_of_lt_mul hoff), ?_⟩
  have hsplit := Nat.mod_add_div (v - base) (cols + 1)
  rw [number, Nat.add_assoc, hsplit]
  omega

/-! ## 3. The edges of cells -/

/-- The edges of the two triangles of a cell, by the places of their ends. -/
def sides (c : Nat × Nat) : List ((Nat × Nat) × (Nat × Nat)) :=
  [((c.1, c.2), (c.1, c.2 + 1)), ((c.1, c.2 + 1), (c.1 + 1, c.2)), ((c.1 + 1, c.2), (c.1, c.2)),
    ((c.1, c.2 + 1), (c.1 + 1, c.2 + 1)), ((c.1 + 1, c.2 + 1), (c.1 + 1, c.2)),
    ((c.1 + 1, c.2), (c.1, c.2 + 1))]

/-- The edges of all cells. -/
def allSides (cols rows : Nat) : List ((Nat × Nat) × (Nat × Nat)) :=
  (cells cols rows).flatMap sides

/-- An edge between places, as an edge between numbers. -/
def numbered (base cols : Nat) (s : (Nat × Nat) × (Nat × Nat)) : Nat × Nat :=
  (number base cols s.1.1 s.1.2, number base cols s.2.1 s.2.2)

/-- The cell that an edge belongs to: the one before it if the edge goes up along a column or forth
    along a row, and the one after it otherwise. -/
def home (s : (Nat × Nat) × (Nat × Nat)) : Nat × Nat :=
  (min s.1.1 s.2.1 - (if s.1.1 = s.2.1 ∧ s.2.2 < s.1.2 then 1 else 0),
    min s.1.2 s.2.2 - if s.1.2 = s.2.2 ∧ s.1.1 < s.2.1 then 1 else 0)

theorem home_of_mem_sides {c : Nat × Nat} {s : (Nat × Nat) × (Nat × Nat)} (h : s ∈ sides c) :
    home s = c := by
  simp only [sides, List.mem_cons, List.not_mem_nil, or_false] at h
  rcases h with rfl | rfl | rfl | rfl | rfl | rfl <;> simp [home]

theorem nodup_sides (c : Nat × Nat) : (sides c).Nodup := by
  obtain ⟨x, y⟩ := c
  simp [sides]

/-- No edge is run through twice the same way. -/
theorem nodup_allSides (cols rows : Nat) : (allSides cols rows).Nodup := by
  rw [allSides, List.nodup_flatMap]
  refine ⟨fun c _ => nodup_sides c, (nodup_cells cols rows).imp fun hne s hs hs' => hne ?_⟩
  rw [← home_of_mem_sides hs, ← home_of_mem_sides hs']

/-- The steps that edges take: along a column down or up, along a row back or forth, and across a
    cell either way. -/
inductive IsSide (cols rows : Nat) : (Nat × Nat) × (Nat × Nat) → Prop
  | down {x y : Nat} : x < cols → y < rows → IsSide cols rows ((x, y), (x, y + 1))
  | up {x y : Nat} : x < cols → y < rows → IsSide cols rows ((x + 1, y + 1), (x + 1, y))
  | back {x y : Nat} : x < cols → y < rows → IsSide cols rows ((x + 1, y), (x, y))
  | forth {x y : Nat} : x < cols → y < rows → IsSide cols rows ((x, y + 1), (x + 1, y + 1))
  | rising {x y : Nat} : x < cols → y < rows → IsSide cols rows ((x, y + 1), (x + 1, y))
  | falling {x y : Nat} : x < cols → y < rows → IsSide cols rows ((x + 1, y), (x, y + 1))

theorem mem_allSides_iff {s : (Nat × Nat) × (Nat × Nat)} :
    s ∈ allSides cols rows ↔ IsSide cols rows s := by
  simp only [allSides, List.mem_flatMap, mem_cells_iff, sides, List.mem_cons, List.not_mem_nil,
    or_false]
  constructor
  · rintro ⟨c, ⟨hx, hy⟩, rfl | rfl | rfl | rfl | rfl | rfl⟩
    exacts [.down hx hy, .rising hx hy, .back hx hy, .forth hx hy, .up hx hy, .falling hx hy]
  · rintro (⟨hx, hy⟩ | ⟨hx, hy⟩ | ⟨hx, hy⟩ | ⟨hx, hy⟩ | ⟨hx, hy⟩ | ⟨hx, hy⟩) <;>
      exact ⟨(_, _), ⟨hx, hy⟩, by simp⟩

theorem column_le_of_mem {s : (Nat × Nat) × (Nat × Nat)} (h : s ∈ allSides cols rows) :
    s.1.1 ≤ cols ∧ s.2.1 ≤ cols := by
  cases mem_allSides_iff.mp h <;> constructor <;> simp only <;> omega

/-- An edge lies along a side if both its ends are on that side. -/
def AlongSide (cols rows : Nat) (s : (Nat × Nat) × (Nat × Nat)) : Prop :=
  s.1.1 = 0 ∧ s.2.1 = 0 ∨ s.1.1 = cols ∧ s.2.1 = cols ∨ s.1.2 = 0 ∧ s.2.2 = 0 ∨
    s.1.2 = rows ∧ s.2.2 = rows
deriving Decidable

/-- An edge is run through the other way as well unless it lies along a side of the grid. -/
theorem swap_mem_allSides_iff {s : (Nat × Nat) × (Nat × Nat)} (h : s ∈ allSides cols rows) :
    s.swap ∈ allSides cols rows ↔ ¬ AlongSide cols rows s := by
  rw [mem_allSides_iff] at h ⊢
  -- The way back belongs to the neighbouring cell, which is not there beyond a side; the two edges
  -- across a cell both belong to it.
  cases h with
  | @down x y hx hy =>
    constructor
    · rintro (_ | ⟨hx', -⟩)
      simp only [AlongSide]
      omega
    · intro hinner
      obtain _ | x := x
      · exact absurd (.inl ⟨rfl, rfl⟩) hinner
      · exact .up (by omega) hy
  | @up x y hx hy =>
    constructor
    · rintro (⟨hx', -⟩ | _)
      simp only [AlongSide]
      omega
    · intro hinner
      have hx' : x + 1 ≠ cols := fun hside => hinner (.inr (.inl ⟨hside, hside⟩))
      exact .down (by omega) hy
  | @back x y hx hy =>
    constructor
    · rintro (_ | _ | _ | ⟨-, hy'⟩)
      simp only [AlongSide]
      omega
    · intro hinner
      obtain _ | y := y
      · exact absurd (.inr (.inr (.inl ⟨rfl, rfl⟩))) hinner
      · exact .forth hx (by omega)
  | @forth x y hx hy =>
    constructor
    · rintro (_ | _ | ⟨-, hy'⟩)
      simp only [AlongSide]
      omega
    · intro hinner
      have hy' : y + 1 ≠ rows := fun hside => hinner (.inr (.inr (.inr ⟨hside, hside⟩)))
      exact .back hx (by omega)
  | rising hx hy => exact iff_of_true (.falling hx hy) (by simp only [AlongSide]; omega)
  | falling hx hy => exact iff_of_true (.rising hx hy) (by simp only [AlongSide]; omega)

/-! ## 4. The edges of a grid -/

/-- An edge on the outer border of a grid. -/
def OnBorder (base cols rows : Nat) (e : Nat × Nat) : Prop :=
  AlongSide cols rows (place base cols e.1, place base cols e.2)
deriving Decidable

/-- The triangles of a grid, by the numbers of their corners. -/
abbrev triangles (base cols rows : Nat) : List (Nat × Nat × Nat) :=
  Triangles.cut (indices base cols rows)

/-- The edges of the triangles of a grid, cell by cell. -/
def edges (base cols rows : Nat) : List (Nat × Nat) := Triangles.edges (triangles base cols rows)

theorem edges_eq (base cols rows : Nat) :
    edges base cols rows = (allSides cols rows).map (numbered base cols) := by
  rw [edges, triangles, cut_indices, Triangles.edges, List.flatMap_assoc, allSides, List.map_flatMap]
  rfl

/-- The places of the ends of an edge, from their numbers. -/
theorem places_numbered (base : Nat) {s : (Nat × Nat) × (Nat × Nat)} (h : s ∈ allSides cols rows) :
    (place base cols (numbered base cols s).1, place base cols (numbered base cols s).2) = s := by
  obtain ⟨hx, hx'⟩ := column_le_of_mem h
  rw [numbered, place_number hx, place_number hx']

theorem numbered_inj {s s' : (Nat × Nat) × (Nat × Nat)} (h : s ∈ allSides cols rows)
    (h' : s' ∈ allSides cols rows) (heq : numbered base cols s = numbered base cols s') :
    s = s' := by
  rw [← places_numbered base h, heq, places_numbered base h']

theorem nodup_edges (base cols rows : Nat) : (edges base cols rows).Nodup := by
  rw [edges_eq]
  exact (nodup_allSides cols rows).map_on fun _ h _ h' => numbered_inj h h'

theorem swap_mem_edges_iff {e : Nat × Nat} (h : e ∈ edges base cols rows) :
    e.swap ∈ edges base cols rows ↔ ¬ OnBorder base cols rows e := by
  rw [edges_eq] at h ⊢
  obtain ⟨s, hs, rfl⟩ := List.mem_map.mp h
  rw [OnBorder, places_numbered base hs, ← swap_mem_allSides_iff hs, List.mem_map]
  constructor
  · rintro ⟨s', hs', heq⟩
    have hplaces := places_numbered base hs'
    rw [heq] at hplaces
    have hback : s.swap = s' := (congrArg Prod.swap (places_numbered base hs)).symm.trans hplaces
    rwa [hback]
  · exact fun hswap => ⟨s.swap, hswap, rfl⟩

/-! ## 5. The vertices of a grid -/

theorem mem_triangles_iff {t : Nat × Nat × Nat} : t ∈ triangles base cols rows ↔
    ∃ c : Nat × Nat, (c.1 < cols ∧ c.2 < rows) ∧
      (t = first base cols c ∨ t = second base cols c) := by
  simp only [triangles, cut_indices, List.mem_flatMap, mem_cells_iff, List.mem_cons,
    List.not_mem_nil, or_false]

theorem proper_of_mem {t : Nat × Nat × Nat} (h : t ∈ triangles base cols rows) :
    Triangles.Proper t := by
  obtain ⟨⟨x, y⟩, ⟨hx, -⟩, rfl | rfl⟩ := mem_triangles_iff.mp h
  · exact ⟨number_ne hx.le hx.le (by simp), number_ne hx.le hx (by simp),
      number_ne hx hx.le (by simp)⟩
  · exact ⟨number_ne hx.le hx (by simp), number_ne hx hx (by simp), number_ne hx hx.le (by simp)⟩

theorem mem_indices_iff {v : Nat} : v ∈ indices base cols rows ↔
    ∃ c : Nat × Nat, (c.1 < cols ∧ c.2 < rows) ∧ v ∈ cell base cols c.1 c.2 := by
  rw [indices, ← flatMap_cells fun c => cell base cols c.1 c.2, List.mem_flatMap]
  simp only [mem_cells_iff]

/-- Between the ends of a row every vertex is one end of a part. -/
theorem exists_part {n x : Nat} (hn : 1 ≤ n) (hx : x ≤ n) : ∃ i < n, x = i ∨ x = i + 1 :=
  ⟨min x (n - 1), by omega, by omega⟩

/-- The corners of the triangles are the vertices of the grid. -/
theorem mem_indices_iff_range (hcols : 1 ≤ cols) (hrows : 1 ≤ rows) {v : Nat} :
    v ∈ indices base cols rows ↔ base ≤ v ∧ v < base + (cols + 1) * (rows + 1) := by
  constructor
  · rw [mem_indices_iff]
    rintro ⟨c, ⟨hx, hy⟩, hv⟩
    have hcorner : ∃ x ≤ cols, ∃ y ≤ rows, v = number base cols x y := by
      simp only [cell, List.mem_cons, List.not_mem_nil, or_false] at hv
      rcases hv with rfl | rfl | rfl | rfl | rfl | rfl
      exacts [⟨_, hx.le, _, hy.le, rfl⟩, ⟨_, hx.le, _, hy, rfl⟩, ⟨_, hx, _, hy.le, rfl⟩,
        ⟨_, hx.le, _, hy, rfl⟩, ⟨_, hx, _, hy, rfl⟩, ⟨_, hx, _, hy.le, rfl⟩]
    obtain ⟨x, hx, y, hy, rfl⟩ := hcorner
    exact number_mem_range hx hy
  · rintro ⟨hlo, hhi⟩
    obtain ⟨x, hx, y, hy, rfl⟩ := exists_number hlo hhi
    obtain ⟨cx, hcx, hx⟩ := exists_part hcols hx
    obtain ⟨cy, hcy, hy⟩ := exists_part hrows hy
    refine mem_indices_iff.mpr ⟨(cx, cy), ⟨hcx, hcy⟩, ?_⟩
    rcases hx with rfl | rfl <;> rcases hy with rfl | rfl <;> simp [cell, number]

/-! ## 6. In the plane -/

/-- A vertex as a point, one apart from its neighbours in the row and in the column. -/
def spot (base cols v : Nat) : ℝ × ℝ := ((place base cols v).1, (place base cols v).2)

/-- Twice the area of the triangle from an edge to a point; it is positive on one side of the edge
    and negative on the other. -/
def turn (a b q : ℝ × ℝ) : ℝ := (b.2 - a.2) * (q.1 - a.1) - (b.1 - a.1) * (q.2 - a.2)

/-- On which side of each edge of a triangle a point is. -/
def turns (base cols : Nat) (t : Nat × Nat × Nat) (q : ℝ × ℝ) : List ℝ :=
  (Triangles.edgesOf t).map fun e => turn (spot base cols e.1) (spot base cols e.2) q

/-- The point is in the triangle, maybe on an edge of it. -/
def Covers (base cols : Nat) (t : Nat × Nat × Nat) (q : ℝ × ℝ) : Prop :=
  ∀ s ∈ turns base cols t q, 0 ≤ s

/-- The point is inside the triangle, not on an edge of it. -/
def Encloses (base cols : Nat) (t : Nat × Nat × Nat) (q : ℝ × ℝ) : Prop :=
  ∀ s ∈ turns base cols t q, 0 < s

theorem spot_number {x y : Nat} (hx : x ≤ cols) :
    spot base cols (number base cols x y) = (↑x, ↑y) := by
  rw [spot, place_number hx]

variable {c : Nat × Nat} {q : ℝ × ℝ}

theorem turns_first (hx : c.1 < cols) : turns base cols (first base cols c) q =
    [q.1 - c.1, c.1 + c.2 + 1 - (q.1 + q.2), q.2 - c.2] := by
  simp only [turns, Triangles.edgesOf, first, List.map_cons, List.map_nil, spot_number hx.le,
    spot_number (show c.1 + 1 ≤ cols from hx), turn, Nat.cast_add, Nat.cast_one, List.cons.injEq,
    and_true]
  exact ⟨by ring, by ring, by ring⟩

theorem turns_second (hx : c.1 < cols) : turns base cols (second base cols c) q =
    [c.2 + 1 - q.2, c.1 + 1 - q.1, q.1 + q.2 - (c.1 + c.2 + 1)] := by
  simp only [turns, Triangles.edgesOf, second, List.map_cons, List.map_nil, spot_number hx.le,
    spot_number (show c.1 + 1 ≤ cols from hx), turn, Nat.cast_add, Nat.cast_one, List.cons.injEq,
    and_true]
  exact ⟨by ring, by ring, by ring⟩

theorem covers_first_iff (hx : c.1 < cols) : Covers base cols (first base cols c) q ↔
    c.1 ≤ q.1 ∧ q.1 + q.2 ≤ c.1 + c.2 + 1 ∧ c.2 ≤ q.2 := by
  simp [Covers, turns_first hx]

theorem covers_second_iff (hx : c.1 < cols) : Covers base cols (second base cols c) q ↔
    q.2 ≤ c.2 + 1 ∧ q.1 ≤ c.1 + 1 ∧ c.1 + c.2 + 1 ≤ q.1 + q.2 := by
  simp [Covers, turns_second hx]

theorem encloses_first_iff (hx : c.1 < cols) : Encloses base cols (first base cols c) q ↔
    c.1 < q.1 ∧ q.1 + q.2 < c.1 + c.2 + 1 ∧ c.2 < q.2 := by
  simp [Encloses, turns_first hx]

theorem encloses_second_iff (hx : c.1 < cols) : Encloses base cols (second base cols c) q ↔
    q.2 < c.2 + 1 ∧ q.1 < c.1 + 1 ∧ c.1 + c.2 + 1 < q.1 + q.2 := by
  simp [Encloses, turns_second hx]

variable {t t' : Nat × Nat × Nat}

/-- All triangles are turned the same way, and are half as large as a cell. -/
theorem turn_of_mem (h : t ∈ triangles base cols rows) :
    turn (spot base cols t.1) (spot base cols t.2.1) (spot base cols t.2.2) = 1 := by
  obtain ⟨c, ⟨hx, -⟩, rfl | rfl⟩ := mem_triangles_iff.mp h
  all_goals
    simp only [first, second, spot_number hx.le, spot_number (show c.1 + 1 ≤ cols from hx), turn,
      Nat.cast_add, Nat.cast_one]
    ring

/-- A point in a triangle is in the square of its cell. -/
theorem exists_cell_of_covers (ht : t ∈ triangles base cols rows)
    (hq : Covers base cols t q) : ∃ c : Nat × Nat, (c.1 < cols ∧ c.2 < rows) ∧
      (t = first base cols c ∨ t = second base cols c) ∧
      (c.1 ≤ q.1 ∧ q.1 ≤ c.1 + 1) ∧ c.2 ≤ q.2 ∧ q.2 ≤ c.2 + 1 := by
  obtain ⟨c, hc, rfl | rfl⟩ := mem_triangles_iff.mp ht
  · obtain ⟨hleft, hdiagonal, htop⟩ := (covers_first_iff hc.1).mp hq
    exact ⟨c, hc, .inl rfl, ⟨hleft, by linarith⟩, htop, by linarith⟩
  · obtain ⟨hbottom, hright, hdiagonal⟩ := (covers_second_iff hc.1).mp hq
    exact ⟨c, hc, .inr rfl, ⟨by linarith, hright⟩, by linarith, hbottom⟩

/-- A coordinate along a row lies in one of its parts. -/
theorem exists_part_around {n : Nat} (hn : 1 ≤ n) {r : ℝ} (hlo : 0 ≤ r) (hhi : r ≤ n) :
    ∃ i < n, (i : ℝ) ≤ r ∧ r ≤ i + 1 := by
  rcases Nat.lt_or_ge ⌊r⌋₊ n with hinner | hend
  · exact ⟨⌊r⌋₊, hinner, Nat.floor_le hlo, (Nat.lt_floor_add_one r).le⟩
  · have hend : (n : ℝ) ≤ r := (Nat.cast_le.mpr hend).trans (Nat.floor_le hlo)
    refine ⟨n - 1, Nat.sub_lt hn Nat.one_pos, ?_⟩
    rw [Nat.cast_sub hn, Nat.cast_one]
    constructor <;> linarith

/-- The triangles leave nothing of the grid out, and do not reach beyond it. -/
theorem exists_covers_iff (hcols : 1 ≤ cols) (hrows : 1 ≤ rows) :
    (∃ t ∈ triangles base cols rows, Covers base cols t q) ↔
      (0 ≤ q.1 ∧ q.1 ≤ cols) ∧ 0 ≤ q.2 ∧ q.2 ≤ rows := by
  constructor
  · rintro ⟨t, ht, hq⟩
    obtain ⟨c, ⟨hx, hy⟩, -, ⟨hleft, hright⟩, htop, hbottom⟩ := exists_cell_of_covers ht hq
    have hx' : (c.1 : ℝ) + 1 ≤ cols := by exact_mod_cast hx
    have hy' : (c.2 : ℝ) + 1 ≤ rows := by exact_mod_cast hy
    exact ⟨⟨(Nat.cast_nonneg _).trans hleft, hright.trans hx'⟩, (Nat.cast_nonneg _).trans htop,
      hbottom.trans hy'⟩
  · rintro ⟨⟨hleft, hright⟩, htop, hbottom⟩
    obtain ⟨x, hx, hleft, hright⟩ := exists_part_around hcols hleft hright
    obtain ⟨y, hy, htop, hbottom⟩ := exists_part_around hrows htop hbottom
    rcases le_total (q.1 + q.2) (x + y + 1) with hdiagonal | hdiagonal
    · exact ⟨_, mem_triangles_iff.mpr ⟨(x, y), ⟨hx, hy⟩, .inl rfl⟩,
        (covers_first_iff hx).mpr ⟨hleft, hdiagonal, htop⟩⟩
    · exact ⟨_, mem_triangles_iff.mpr ⟨(x, y), ⟨hx, hy⟩, .inr rfl⟩,
        (covers_second_iff hx).mpr ⟨hbottom, hright, hdiagonal⟩⟩

/-- Parts of a row do not overlap. -/
theorem part_eq {i j : Nat} {r : ℝ} (hi : (i : ℝ) < r ∧ r < i + 1) (hj : (j : ℝ) ≤ r ∧ r ≤ j + 1) :
    i = j := by
  have hij : (i : ℝ) < ↑(j + 1) := by push_cast; linarith [hi.1, hj.2]
  have hji : (j : ℝ) < ↑(i + 1) := by push_cast; linarith [hj.1, hi.2]
  exact Nat.le_antisymm (Nat.le_of_lt_succ (Nat.cast_lt.mp hij))
    (Nat.le_of_lt_succ (Nat.cast_lt.mp hji))

/-- A point inside a triangle is in no other one. -/
theorem eq_of_encloses (ht : t ∈ triangles base cols rows)
    (ht' : t' ∈ triangles base cols rows) (hq : Encloses base cols t q)
    (hq' : Covers base cols t' q) : t = t' := by
  obtain ⟨c', hc', htriangle', hx', hy'⟩ := exists_cell_of_covers ht' hq'
  obtain ⟨c, hc, rfl | rfl⟩ := mem_triangles_iff.mp ht
  · obtain ⟨hleft, hdiagonal, htop⟩ := (encloses_first_iff hc.1).mp hq
    have hcell : c = c' := Prod.ext (part_eq ⟨hleft, by linarith⟩ hx')
      (part_eq ⟨htop, by linarith⟩ hy')
    subst hcell
    rcases htriangle' with rfl | rfl
    · rfl
    · obtain ⟨-, -, hdiagonal'⟩ := (covers_second_iff hc.1).mp hq'
      exact absurd hdiagonal (not_lt.mpr hdiagonal')
  · obtain ⟨hbottom, hright, hdiagonal⟩ := (encloses_second_iff hc.1).mp hq
    have hcell : c = c' := Prod.ext (part_eq ⟨by linarith, hright⟩ hx')
      (part_eq ⟨by linarith, hbottom⟩ hy')
    subst hcell
    rcases htriangle' with rfl | rfl
    · obtain ⟨-, hdiagonal', -⟩ := (covers_first_iff hc.1).mp hq'
      exact absurd hdiagonal (not_lt.mpr hdiagonal')
    · rfl

/-! ## 7. Grids as surfaces -/

/-- Two triangles that run through an edge in opposite directions, and no others beside it. -/
structure Shares (ts : List (Nat × Nat × Nat)) (e : Nat × Nat) (t t' : Nat × Nat × Nat) : Prop where
  ne : t ≠ t'
  mem : t ∈ ts ∧ t' ∈ ts
  forth : e ∈ Triangles.edgesOf t
  back : e.swap ∈ Triangles.edgesOf t'
  only : ∀ s ∈ ts, e ∈ Triangles.edgesOf s ∨ e.swap ∈ Triangles.edgesOf s → s = t ∨ s = t'

theorem exists_shares {e : Nat × Nat} (he : e ∈ edges base cols rows)
    (hinner : ¬ OnBorder base cols rows e) :
    ∃ t t', Shares (triangles base cols rows) e t t' := by
  obtain ⟨t, ht, het⟩ := Triangles.mem_edges_iff.mp he
  obtain ⟨t', ht', het'⟩ := Triangles.mem_edges_iff.mp ((swap_mem_edges_iff he).mpr hinner)
  have hnodup := nodup_edges base cols rows
  refine ⟨t, t', fun heq => ?_, ⟨ht, ht'⟩, het, het', fun s hs => ?_⟩
  · subst heq
    exact Triangles.swap_notMem_edgesOf (proper_of_mem ht) het het'
  · rintro (hes | hes)
    · exact .inl (Triangles.eq_of_mem_edgesOf hnodup hs ht hes het)
    · exact .inr (Triangles.eq_of_mem_edgesOf hnodup hs ht' hes het')

/-- The triangles of a grid are an oriented surface without gaps or overlaps. -/
structure IsSurface (base cols rows : Nat) : Prop where
  /-- No number goes out of the range of 32 bits. -/
  words : words base cols rows = (indices base cols rows).map (↑)
  whole : 3 ∣ (indices base cols rows).length
  count : (triangles base cols rows).length = 2 * cols * rows
  proper : ∀ t ∈ triangles base cols rows, Triangles.Proper t
  /-- The vertices that are used are those of the grid, without exception. -/
  mem_iff : ∀ v, v ∈ indices base cols rows ↔ base ≤ v ∧ v < base + (cols + 1) * (rows + 1)
  /-- No edge is run through twice the same way, in one triangle or in two. -/
  nodup : (edges base cols rows).Nodup
  /-- Only the edges on the border are not run through the other way. -/
  back : ∀ e ∈ edges base cols rows, e.swap ∈ edges base cols rows ↔ ¬ OnBorder base cols rows e
  shared : ∀ e ∈ edges base cols rows, ¬ OnBorder base cols rows e →
    ∃ t t', Shares (triangles base cols rows) e t t'
  oriented : ∀ t ∈ triangles base cols rows,
    turn (spot base cols t.1) (spot base cols t.2.1) (spot base cols t.2.2) = 1
  /-- No point of the grid is left out, and none beyond it is taken in. -/
  covered : ∀ q : ℝ × ℝ, (∃ t ∈ triangles base cols rows, Covers base cols t q) ↔
    (0 ≤ q.1 ∧ q.1 ≤ cols) ∧ 0 ≤ q.2 ∧ q.2 ≤ rows
  /-- What is inside one triangle is in no other. -/
  apart : ∀ q : ℝ × ℝ, ∀ t ∈ triangles base cols rows,
    ∀ t' ∈ triangles base cols rows, Encloses base cols t q → Covers base cols t' q →
      t = t'

theorem isSurface (hcols : 1 ≤ cols) (hrows : 1 ≤ rows)
    (hsize : base + (cols + 1) * (rows + 1) ≤ 2 ^ 32) : IsSurface base cols rows where
  words := words_eq hsize
  whole := (triangles_indices base cols rows).whole
  count := (length_cut_indices base cols rows).trans (Nat.mul_assoc 2 cols rows).symm
  proper _ := proper_of_mem
  mem_iff _ := mem_indices_iff_range hcols hrows
  nodup := nodup_edges base cols rows
  back _ := swap_mem_edges_iff
  shared _ := exists_shares
  oriented _ := turn_of_mem
  covered _ := exists_covers_iff hcols hrows
  apart _ _ ht _ ht' := eq_of_encloses ht ht'

end Grid

/-- A rectangle lists the triangles of its grid. -/
theorem RectangleSpec.indices_build {K : Type} [Scalar K] {r : RectangleSpec K} {g : Geometry K}
    (h : r.build = .ok g) : g.indices = Grid.indices 0 (max r.partsX 1) (max r.partsY 1) :=
  (packs_of_build h).indices

/-- **The triangles of a grid are an oriented surface.**  As long as its vertices can be numbered in
    32 bits, a grid with at least one column and one row has two triangles for each cell, with three
    corners each, and all its vertices are used.  Every edge is run through at most once each way,
    and both ways exactly by the two triangles on its sides unless it lies on the border.  Laid out
    in the plane the triangles are turned the same way, leave nothing out and do not overlap.  A
    rectangle is made of such triangles. -/
theorem grids_are_surfaces :
    (∀ base cols rows : Nat, 1 ≤ cols → 1 ≤ rows → base + (cols + 1) * (rows + 1) ≤ 2 ^ 32 →
      Grid.IsSurface base cols rows) ∧
    ∀ (K : Type) [Scalar K] (r : RectangleSpec K) (g : Geometry K), r.build = .ok g →
      g.indices = Grid.indices 0 (max r.partsX 1) (max r.partsY 1) :=
  ⟨fun _ _ _ => Grid.isSurface, fun _ _ _ _ => RectangleSpec.indices_build⟩

/-- The last twelve numbers in 32 bits are enough for a grid of three columns and two rows.  One
    edge of it is shared, and one lies on the border. -/
theorem grids_are_surfaces_at_end :
    4294967284 + (3 + 1) * (2 + 1) ≤ 2 ^ 32 ∧
    Grid.IsSurface 4294967284 3 2 ∧
    ((4294967285, 4294967289) ∈ Grid.edges 4294967284 3 2 ∧
      (4294967289, 4294967285) ∈ Grid.edges 4294967284 3 2) ∧
    ((4294967284, 4294967288) ∈ Grid.edges 4294967284 3 2 ∧
      (4294967288, 4294967284) ∉ Grid.edges 4294967284 3 2) ∧
    ∃ g, RectangleSpec.banner.build = .ok g ∧ g.indices = Grid.indices 0 2 1 := by
  obtain ⟨hsurfaces, hbuilt⟩ := grids_are_surfaces
  have hsize : 4294967284 + (3 + 1) * (2 + 1) ≤ 2 ^ 32 := by decide
  have hsurface := hsurfaces 4294967284 3 2 (by decide) (by decide) hsize
  have hinner : (4294967285, 4294967289) ∈ Grid.edges 4294967284 3 2 := by decide
  have hborder : (4294967284, 4294967288) ∈ Grid.edges 4294967284 3 2 := by decide
  obtain ⟨g, hbanner⟩ := RectangleSpec.exists_build_iff.mpr RectangleSpec.banner_apart
  exact ⟨hsize, hsurface, ⟨hinner, (hsurface.back _ hinner).mpr (by decide)⟩,
    ⟨hborder, fun h => (hsurface.back _ hborder).mp h (by decide)⟩,
    g, hbanner, hbuilt ℝ RectangleSpec.banner g hbanner⟩

end SceneAssembly
