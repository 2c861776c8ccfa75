/-
  SceneAssembly/Proofs/Shapes/GridTriangles.lean
  ==============================================
  **The triangles of a grid, and shapes that list them on their own.**

  The triangles of a grid are two for each cell, cell by cell (`cut_indices`).
  Three shapes list the triangles of their grid in loops of their own.  A
  surface lists the same indices.  The side of a cylinder goes through the cells
  column by column, so its triangles are the same in another order
  (`columns_perm_cells`).  A fan leaves out the first triangle in the cells at
  its centre and starts every second triangle at another corner
  (`PolygonSpec.fanned`).
-/
import Mathlib.Data.List.ProdSigma
import Mathlib.Data.List.Nodup
import SceneAssembly.Proofs.Exact
import SceneAssembly.Proofs.Shapes.WellFormed

namespace SceneAssembly

/-! ## 1. Cells and their triangles -/

namespace Grid

/-- The cells of a grid by column and row, row by row. -/
def cells (cols rows : Nat) : List (Nat × Nat) :=
  (List.range rows).flatMap fun iy => (List.range cols).map fun ix => (ix, iy)

/-- The cells of a grid, column by column. -/
def columns (cols rows : Nat) : List (Nat × Nat) :=
  (List.range cols).flatMap fun ix => (List.range rows).map fun iy => (ix, iy)

/-- The number of a vertex. -/
def number (base cols ix iy : Nat) : Nat := base + ix + (cols + 1) * iy

/-- The first triangle of a cell. -/
def first (base cols : Nat) (c : Nat × Nat) : Nat × Nat × Nat :=
  (number base cols c.1 c.2, number base cols c.1 (c.2 + 1), number base cols (c.1 + 1) c.2)

/-- The second triangle of a cell. -/
def second (base cols : Nat) (c : Nat × Nat) : Nat × Nat × Nat :=
  (number base cols c.1 (c.2 + 1), number base cols (c.1 + 1) (c.2 + 1),
    number base cols (c.1 + 1) c.2)

variable {base cols rows : Nat}

theorem mem_cells_iff {c : Nat × Nat} : c ∈ cells cols rows ↔ c.1 < cols ∧ c.2 < rows := by
  simp only [cells, List.mem_flatMap, List.mem_map, List.mem_range]
  constructor
  · rintro ⟨iy, hy, ix, hx, rfl⟩
    exact ⟨hx, hy⟩
  · rintro ⟨hx, hy⟩
    exact ⟨c.2, hy, c.1, hx, rfl⟩

theorem mem_columns_iff {c : Nat × Nat} : c ∈ columns cols rows ↔ c.1 < cols ∧ c.2 < rows := by
  simp only [columns, List.mem_flatMap, List.mem_map, List.mem_range]
  constructor
  · rintro ⟨ix, hx, iy, hy, rfl⟩
    exact ⟨hx, hy⟩
  · rintro ⟨hx, hy⟩
    exact ⟨c.1, hx, c.2, hy, rfl⟩

theorem nodup_columns (cols rows : Nat) : (columns cols rows).Nodup :=
  List.Nodup.product List.nodup_range List.nodup_range

theorem nodup_cells (cols rows : Nat) : (cells cols rows).Nodup := by
  have hswap : cells cols rows = (columns rows cols).map Prod.swap := by
    simp only [cells, columns, List.map_flatMap, List.map_map]
    rfl
  rw [hswap]
  exact (nodup_columns rows cols).map Prod.swap_injective

/-- The cells are the same, whichever way they are gone through. -/
theorem columns_perm_cells (cols rows : Nat) : (columns cols rows).Perm (cells cols rows) :=
  (List.perm_ext_iff_of_nodup (nodup_columns cols rows) (nodup_cells cols rows)).mpr fun _ =>
    mem_columns_iff.trans mem_cells_iff.symm

@[simp] theorem length_cells (cols rows : Nat) : (cells cols rows).length = cols * rows := by
  simp [cells, List.length_flatMap, Nat.mul_comm]

/-- A loop over the rows and, within each, over the columns. -/
theorem flatMap_cells {α : Type} (f : Nat × Nat → List α) :
    (cells cols rows).flatMap f =
      (List.range rows).flatMap fun iy => (List.range cols).flatMap fun ix => f (ix, iy) := by
  simp only [cells, List.flatMap_assoc, List.flatMap_map]

theorem flatMap_columns {α : Type} (f : Nat × Nat → List α) :
    (columns cols rows).flatMap f =
      (List.range cols).flatMap fun ix => (List.range rows).flatMap fun iy => f (ix, iy) := by
  simp only [columns, List.flatMap_assoc, List.flatMap_map]

theorem cut_indices (base cols rows : Nat) :
    Triangles.cut (indices base cols rows) =
      (cells cols rows).flatMap fun c => [first base cols c, second base cols c] := by
  have hcells : indices base cols rows =
      (cells cols rows).flatMap fun c => cell base cols c.1 c.2 :=
    (flatMap_cells fun c => cell base cols c.1 c.2).symm
  rw [hcells, Triangles.cut_flatMap fun _ _ => ⟨2, rfl⟩]
  rfl

/-- The first row, and the others below it. -/
theorem cells_succ (cols rows : Nat) :
    cells cols (rows + 1) = (List.range cols).map (fun ix => (ix, 0)) ++
      (cells cols rows).map fun c => (c.1, c.2 + 1) := by
  rw [cells, List.range_succ_eq_map, List.flatMap_cons, List.flatMap_map, cells, List.map_flatMap]
  simp only [List.map_map]
  rfl

/-- A loop that treats the first row on its own. -/
theorem flatMap_cells_split {α : Type} (f g : Nat × Nat → List α) :
    ((cells cols rows).take cols).flatMap f ++ ((cells cols rows).drop cols).flatMap g =
      (cells cols rows).flatMap fun c => if c.2 = 0 then f c else g c := by
  cases rows with
  | zero => simp [cells]
  | succ rows =>
    have hrow : ((List.range cols).map fun ix => (ix, 0)).length = cols := by simp
    rw [cells_succ, List.take_left' hrow, List.drop_left' hrow, List.flatMap_append]
    simp only [List.flatMap_map, if_true, Nat.succ_ne_zero, if_false]

end Grid

/-! ## 2. Surfaces -/

/-- A surface lists the triangles of its grid as they are. -/
theorem SurfaceSpec.indices_eq (partsU partsV : Nat) :
    indices partsU partsV = Grid.indices 0 partsV partsU := by
  refine List.flatMap_congr fun iu _ => List.flatMap_congr fun iv _ => ?_
  simp only [Grid.cell]
  ring_nf

/-! ## 3. Sides of cylinders -/

namespace CylinderSpec

theorem cut_sideIndices (around along : Nat) :
    Triangles.cut (sideIndices around along) = (Grid.columns around along).flatMap fun c =>
      [Grid.first 0 around c, Grid.second 0 around c] := by
  have hcolumns : sideIndices around along =
      (Grid.columns around along).flatMap fun c => Grid.cell 0 around c.1 c.2 := by
    rw [Grid.flatMap_columns]
    refine List.flatMap_congr fun x _ => List.flatMap_congr fun y _ => ?_
    simp only [Grid.cell]
    ring_nf
  rw [hcolumns, Triangles.cut_flatMap fun _ _ => ⟨2, rfl⟩]
  rfl

/-- The side of a cylinder has the triangles of its grid, in another order. -/
theorem sideIndices_perm (around along : Nat) :
    (Triangles.cut (sideIndices around along)).Perm
      (Triangles.cut (Grid.indices 0 around along)) := by
  rw [cut_sideIndices, Grid.cut_indices]
  exact (Grid.columns_perm_cells around along).flatMap_right _

end CylinderSpec

/-! ## 4. Fans -/

namespace PolygonSpec

/-- A triangle from its last corner on. -/
def turned (t : Nat × Nat × Nat) : Nat × Nat × Nat := (t.2.2, t.1, t.2.1)

/-- Triangles by pairs: the first of a pair is left out in the first `n` pairs, and the second one
    is turned. -/
def fanned : Nat → List (Nat × Nat × Nat) → List (Nat × Nat × Nat)
  | 0, t :: t' :: rest => t :: turned t' :: fanned 0 rest
  | n + 1, _ :: t' :: rest => turned t' :: fanned n rest
  | _, _ => []

theorem fanned_pairs {α : Type} (f g : α → Nat × Nat × Nat) (n : Nat) (l : List α) :
    fanned n (l.flatMap fun a => [f a, g a]) =
      ((l.take n).flatMap fun a => [turned (g a)]) ++
        (l.drop n).flatMap fun a => [f a, turned (g a)] := by
  induction l generalizing n with
  | nil => cases n <;> rfl
  | cons a rest ih =>
    cases n with
    | zero => simpa [fanned] using ih 0
    | succ n => simpa [fanned] using ih n

/-- The triangles of a cell of a fan; at the centre it has only one. -/
def cell (around : Nat) (c : Nat × Nat) : List (Nat × Nat × Nat) :=
  if c.2 = 0 then [turned (Grid.second 0 around c)]
  else [Grid.first 0 around c, turned (Grid.second 0 around c)]

/-- What a fan lists for a cell. -/
def cellIndices (around : Nat) (c : Nat × Nat) : List Nat :=
  let k := c.2 * (around + 1) + c.1
  (if 0 < c.2 then [k, k + around + 1, k + 1] else []) ++
    [k + 1, k + around + 1, k + around + 2]

theorem cut_cellIndices (around : Nat) (c : Nat × Nat) :
    3 ∣ (cellIndices around c).length ∧ Triangles.cut (cellIndices around c) = cell around c := by
  have hnumber (dx dy : Nat) : Grid.number 0 around (c.1 + dx) (c.2 + dy) =
      c.2 * (around + 1) + c.1 + dy * (around + 1) + dx := by
    simp only [Grid.number]
    ring
  have ha := hnumber 0 0
  have hb := hnumber 0 1
  have hc := hnumber 1 1
  have hd := hnumber 1 0
  simp only [Nat.add_zero, Nat.zero_mul, Nat.one_mul] at ha hb hc hd
  simp only [cellIndices, cell, turned, Grid.first, Grid.second, ha, hb, hc, hd]
  by_cases hcenter : c.2 = 0
  · rw [if_pos hcenter, if_neg (Nat.not_lt.mpr hcenter.le)]
    exact ⟨⟨1, rfl⟩, rfl⟩
  · rw [if_neg hcenter, if_pos (Nat.pos_of_ne_zero hcenter)]
    exact ⟨⟨2, rfl⟩, rfl⟩

theorem cut_indices (rings around : Nat) :
    Triangles.cut (indices rings around) = (Grid.cells around rings).flatMap (cell around) := by
  have hcells : indices rings around = (Grid.cells around rings).flatMap (cellIndices around) :=
    (Grid.flatMap_cells (cellIndices around)).symm
  rw [hcells, Triangles.cut_flatMap fun c _ => (cut_cellIndices around c).1]
  exact List.flatMap_congr fun c _ => (cut_cellIndices around c).2

/-- **A fan has the triangles of its grid**, without the first ones of the cells at its centre. -/
theorem cut_indices_eq_fanned (rings around : Nat) :
    Triangles.cut (indices rings around) =
      fanned around (Triangles.cut (Grid.indices 0 around rings)) := by
  rw [cut_indices, Grid.cut_indices, fanned_pairs, Grid.flatMap_cells_split]
  rfl

end PolygonSpec

/-! ## 5. The four loops -/

namespace Grid

/-- The loops of all shapes list the triangles of one and the same grid. -/
structure ToldAlike (cols rows : Nat) : Prop where
  /-- A grid has two triangles for each cell, row by row. -/
  pairs : Triangles.cut (indices 0 cols rows) =
    (cells cols rows).flatMap fun c => [first 0 cols c, second 0 cols c]
  count : (Triangles.cut (indices 0 cols rows)).length = 2 * (cols * rows)
  surface : SurfaceSpec.indices rows cols = indices 0 cols rows
  side : (Triangles.cut (CylinderSpec.sideIndices cols rows)).Perm
    (Triangles.cut (indices 0 cols rows))
  fan : Triangles.cut (PolygonSpec.indices rows cols) =
    PolygonSpec.fanned cols (Triangles.cut (indices 0 cols rows))
  /-- If the vertices can be numbered in 32 bits, no loop goes out of range. -/
  words : (cols + 1) * (rows + 1) < 2 ^ 32 →
    words 0 cols rows = (indices 0 cols rows).map (↑) ∧
    SurfaceSpec.words rows cols = (SurfaceSpec.indices rows cols).map (↑) ∧
    PolygonSpec.words rows cols = (PolygonSpec.indices rows cols).map (↑)

theorem length_cut_indices (base cols rows : Nat) :
    (Triangles.cut (indices base cols rows)).length = 2 * (cols * rows) := by
  rw [cut_indices, List.length_flatMap]
  simp [Nat.mul_comm]

theorem toldAlike (cols rows : Nat) : ToldAlike cols rows where
  pairs := cut_indices 0 cols rows
  count := length_cut_indices 0 cols rows
  surface := SurfaceSpec.indices_eq rows cols
  side := CylinderSpec.sideIndices_perm cols rows
  fan := PolygonSpec.cut_indices_eq_fanned rows cols
  words hsize := ⟨words_eq (by rw [Nat.zero_add]; exact hsize.le), SurfaceSpec.words_eq hsize,
    PolygonSpec.words_eq hsize⟩

end Grid

/-! ### What is built -/

variable {K : Type} [Scalar K]

theorem SurfaceSpec.indices_build {s : SurfaceSpec K} {g : Geometry K} (h : s.build = .ok g) :
    g.indices = Grid.indices 0 (max s.partsV 1) (max s.partsU 1) := by
  obtain rfl := build_ok h
  exact indices_eq _ _

theorem PolygonSpec.triangles_build (p : PolygonSpec K) :
    p.build.triangles = fanned p.around (Triangles.cut (Grid.indices 0 p.around p.rings)) :=
  cut_indices_eq_fanned p.rings p.around

namespace CylinderSpec

/-- Caps come after what there is. -/
theorem indices_withCap (c : CylinderSpec K) (top : Bool) (b : Buffers K) :
    b.indices <+: (c.withCap top b).indices := by
  by_cases hopen : 0 < (if top then c.top else c.base)
  · rw [withCap, if_pos hopen]
    exact List.prefix_append _ _
  · rw [withCap, if_neg hopen]

/-- The triangles of the side are the first ones of a cylinder. -/
theorem take_triangles_build (c : CylinderSpec K) :
    c.build.triangles.take (2 * (c.around * c.along)) =
      Triangles.cut (sideIndices c.around c.along) := by
  have hside : sideIndices c.around c.along <+: c.build.indices := by
    show c.side.indices <+:
      (if c.capped then c.withCap false (c.withCap true c.side) else c.side).indices
    split
    · exact (c.indices_withCap true c.side).trans (c.indices_withCap false _)
    · exact List.prefix_rfl
  obtain ⟨rest, hrest⟩ := hside
  have hwhole : 3 ∣ (sideIndices c.around c.along).length := c.fits_side.triangles.whole
  have hlength := (sideIndices_perm c.around c.along).length_eq
  rw [Grid.length_cut_indices] at hlength
  rw [Geometry.triangles, ← hrest, Triangles.cut_append hwhole, List.take_left' hlength]

end CylinderSpec

/-- **Surfaces, sides of cylinders and fans are cut into triangles as grids are.**  For any counts of
    columns and rows the loop of a surface lists the indices of the grid, that of a side its
    triangles in another order, and that of a fan its triangles without the first ones of the cells
    at the centre, every second one turned.  This is what is built of the three shapes. -/
theorem grids_told_alike :
    (∀ cols rows, Grid.ToldAlike cols rows) ∧
    ∀ (K : Type) [Scalar K],
      (∀ (s : SurfaceSpec K) (g : Geometry K), s.build = .ok g →
        g.indices = Grid.indices 0 (max s.partsV 1) (max s.partsU 1)) ∧
      (∀ c : CylinderSpec K, (c.build.triangles.take (2 * (c.around * c.along))).Perm
        (Triangles.cut (Grid.indices 0 c.around c.along))) ∧
      ∀ p : PolygonSpec K, p.build.triangles =
        PolygonSpec.fanned p.around (Triangles.cut (Grid.indices 0 p.around p.rings)) := by
  refine ⟨Grid.toldAlike, fun K _ => ⟨fun s g h => SurfaceSpec.indices_build h, fun c => ?_,
    PolygonSpec.triangles_build⟩⟩
  rw [c.take_triangles_build]
  exact CylinderSpec.sideIndices_perm c.around c.along

/-- A flat patch of three by two parts. -/
noncomputable def SurfaceSpec.sheet : SurfaceSpec ℝ where
  degreeU := 1
  degreeV := 1
  partsU := 2
  partsV := 3
  controlPoints := [⟨0, 0, 0⟩, ⟨0, 1, 0⟩, ⟨1, 0, 0⟩, ⟨1, 1, 0⟩]
  weights := []

theorem SurfaceSpec.exists_build_sheet : ∃ g, sheet.build = .ok g := by
  have hfault : sheet.fault? = none := by simp [sheet, fault?, expected]
  unfold build
  simp only [hfault]
  exact ⟨_, if_pos (List.all_eq_true.mpr fun _ _ => rfl)⟩

/-- A grid of three columns and two rows; the side of a cylinder lists its triangles in an order of
    its own. -/
theorem grids_told_alike_three_by_two :
    (3 + 1) * (2 + 1) < 2 ^ 32 ∧
    Grid.words 0 3 2 = (Grid.indices 0 3 2).map (↑) ∧
    CylinderSpec.sideIndices 3 2 ≠ Grid.indices 0 3 2 ∧
    (Triangles.cut (CylinderSpec.sideIndices 3 2)).Perm (Triangles.cut (Grid.indices 0 3 2)) ∧
    ∃ g, SurfaceSpec.sheet.build = .ok g ∧ g.indices = Grid.indices 0 3 2 := by
  have hsize : (3 + 1) * (2 + 1) < 2 ^ 32 := by decide
  obtain ⟨hcounts, hbuilt⟩ := grids_told_alike
  obtain ⟨g, hg⟩ := SurfaceSpec.exists_build_sheet
  exact ⟨hsize, ((hcounts 3 2).words hsize).1, by decide, (hcounts 3 2).side, g, hg,
    (hbuilt ℝ).1 SurfaceSpec.sheet g hg⟩

end SceneAssembly
