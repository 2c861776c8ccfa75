/-
  SceneAssembly/Shape/Grid.lean
  =============================
  **Rectangular grids of vertices.**

  A grid of `cols` by `rows` cells has one vertex more each way, numbered row by
  row.  Every cell is cut along the same diagonal into two triangles, both in
  the order first row, second row, first row.
-/
import SceneAssembly.Geometry.Basic

namespace SceneAssembly.Grid

/-- One value per vertex, row by row; `f` takes the column first. -/
def vertices {α : Type} (cols rows : Nat) (f : Nat → Nat → α) : List α :=
  (List.range (rows + 1)).flatMap fun iy => (List.range (cols + 1)).map fun ix => f ix iy

/-- The two triangles of a cell, of a grid whose vertices are numbered from `base`. -/
def cell (base cols ix iy : Nat) : List Nat :=
  let a := base + ix + (cols + 1) * iy
  let b := base + ix + (cols + 1) * (iy + 1)
  let c := base + (ix + 1) + (cols + 1) * (iy + 1)
  let d := base + (ix + 1) + (cols + 1) * iy
  [a, b, d, b, c, d]

/-- The triangles of a grid, row by row. -/
def indices (base cols rows : Nat) : List Nat :=
  (List.range rows).flatMap fun iy => (List.range cols).flatMap fun ix => cell base cols ix iy

end SceneAssembly.Grid
