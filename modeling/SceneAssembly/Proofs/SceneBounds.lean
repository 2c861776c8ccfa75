/-
  SceneAssembly/Proofs/SceneBounds.lean
  =====================================
  **The bounds of a scene contain it.**

  The bounds of a subtree are a union of boxes, one for each mesh: the box that is
  stored with the geometry, moved to the world of the node
  (`SceneNode.bounds_eq_union`).  If each geometry is stored with the box of its
  positions, every vertex is in the world where the bounds hold it, and the bounds
  are empty only where there is no vertex at all
  (`SceneNode.bounds_contain_vertices`).  Shapes are built with such boxes, and
  geometries that are moved get them (`ShapeSpec.isFitted_of_build`,
  `Geometry.isFitted_of_translate`).
-/
import SceneAssembly.Proofs.Boxes
import SceneAssembly.Proofs.Branches
import SceneAssembly.Proofs.Floats.Arithmetic
import SceneAssembly.Proofs.Shapes.WellFormed
import SceneAssembly.SceneNode.Traversal

namespace SceneAssembly

open Scalar (MonotoneArithmetic)

variable {K : Type} [Scalar K]

/-! ## 1. The empty box -/

namespace Bounds

theorem union_self (b : Bounds K) : b.union b = b := by
  simp only [union, Vec3.lesser, Vec3.greater, Scalar.lesser, Scalar.greater, ite_self]

theorem foldl_union_empty {cs : List (Bounds K)} (h : ∀ c ∈ cs, c = empty) :
    cs.foldl union empty = empty := by
  induction cs with
  | nil => rfl
  | cons c rest ih =>
    rw [List.forall_mem_cons] at h
    obtain ⟨rfl, hrest⟩ := h
    rw [List.foldl_cons, union_self]
    exact ih hrest

variable [MonotoneArithmetic K]

theorem isEmpty_empty : (empty : Bounds K).isEmpty = true :=
  isEmpty_iff.mpr ⟨.x, MonotoneArithmetic.neg_infinity_lt⟩

theorem isNumeric_empty : (empty : Bounds K).IsNumeric := by
  have hle := (Scalar.LawfulOrder.lt_iff.mp (MonotoneArithmetic.neg_infinity_lt (K := K))).1
  have hends := Scalar.LawfulOrder.isNumber_of_le hle
  constructor
  · intro i
    rw [empty, Vec3.along_splat]
    exact hends.2
  · intro i
    rw [empty, Vec3.along_splat]
    exact hends.1

end Bounds

/-- In single precision the box of some points is stretched from the empty box. -/
theorem Float32.ofPoints_eq_foldl (ps : List (Vec3 Float32)) :
    Bounds.ofPoints ps = ps.foldl Bounds.extend Bounds.empty :=
  Bounds.ofPoints_eq_foldl not_infinity_lt not_lt_neg_infinity ps

/-! ## 2. The box of a mesh -/

namespace Geometry

def HasVertex {K : Type} (g : Geometry K) (p : Vec3 K) : Prop :=
  ∃ ps, g.positions? = some ps ∧ p ∈ ps

end Geometry

/-- Shapes are built with the box of their positions. -/
theorem ShapeSpec.isFitted_of_build {shape : ShapeSpec K} {settings : Settings K} {g : Geometry K}
    (h : shape.build settings = .ok g) : g.IsFitted := by
  obtain ⟨vertices, hbuilt⟩ := builtRight_asWritten h
  exact ⟨vertices, hbuilt.wellFormed.positions, hbuilt.wellFormed.bounds⟩

namespace Mesh

/-- The box of a mesh in the world. -/
def box (mesh : Mesh K) (world : Affine K) : Bounds K := mesh.bounds.transform world

/-- What is computed of a mesh in the world comes out as numbers: its vertices, and the corners of
    its box where that is moved. -/
structure IsNumericIn (mesh : Mesh K) (world : Affine K) : Prop where
  vertices : ∀ p, mesh.geometry.value.HasVertex p → (world.apply p).IsNumeric
  corners : mesh.bounds.isEmpty = false → ∀ c ∈ mesh.bounds.corners, (world.apply c).IsNumeric

variable [MonotoneArithmetic K] {mesh : Mesh K} {world : Affine K}

theorem box_eq_empty (hfitted : mesh.geometry.value.IsFitted)
    (hnone : ∀ p, ¬ mesh.geometry.value.HasVertex p) : mesh.box world = .empty := by
  obtain ⟨ps, hps, hbounds⟩ := hfitted
  obtain rfl : ps = [] := List.eq_nil_iff_forall_not_mem.mpr fun p hp => hnone p ⟨ps, hps, hp⟩
  have hempty : mesh.bounds = .empty := hbounds
  rw [box, hempty, Bounds.transform, if_pos Bounds.isEmpty_empty]

theorem holds_bounds (hfitted : mesh.geometry.value.IsFitted) (hnumeric : mesh.IsNumericIn world)
    {p : Vec3 K} (hp : mesh.geometry.value.HasVertex p) : mesh.bounds.Holds p := by
  obtain ⟨ps, hps, hbounds⟩ := hfitted
  obtain ⟨ps', hps', hp⟩ := hp
  obtain rfl : ps = ps' := Option.some.inj (hps.symm.trans hps')
  show mesh.geometry.value.bounds.Holds p
  rw [hbounds]
  exact Bounds.holds_ofPoints
    (fun q hq => Bounds.isNumeric_of_apply (hnumeric.vertices q ⟨ps, hps, hq⟩)) hp

theorem holds_box (hfitted : mesh.geometry.value.IsFitted) (hnumeric : mesh.IsNumericIn world)
    {p : Vec3 K} (hp : mesh.geometry.value.HasVertex p) :
    (mesh.box world).Holds (world.apply p) := by
  have hholds := holds_bounds hfitted hnumeric hp
  exact Bounds.holds_transform hholds (hnumeric.vertices p hp)
    (hnumeric.corners hholds.isEmpty_eq_false)

theorem isNumeric_box (hfitted : mesh.geometry.value.IsFitted) (hnumeric : mesh.IsNumericIn world) :
    (mesh.box world).IsNumeric := by
  by_cases hnone : ∀ p, ¬ mesh.geometry.value.HasVertex p
  · rw [box_eq_empty hfitted hnone]
    exact Bounds.isNumeric_empty
  · rw [not_forall_not] at hnone
    obtain ⟨p, hp⟩ := hnone
    have hempty := (holds_bounds hfitted hnumeric hp).isEmpty_eq_false
    rw [box, Bounds.transform_eq hempty]
    exact Bounds.isNumeric_ofPoints (by simp [Bounds.corners])
      (by simpa using hnumeric.corners hempty)

end Mesh

/-! ## 3. The bounds of a subtree -/

namespace SceneNode

/-- A node of the subtree has this mesh, in this world. -/
def Draws {K : Type} (root : SceneNode K) (mesh : Mesh K) (world : Affine K) : Prop :=
  ∃ n ∈ root.preorder, n.mesh = some mesh ∧ n.world.value = world

/-- The boxes of the meshes of a subtree. -/
def boxes (root : SceneNode K) : List (Bounds K) :=
  root.preorder.filterMap fun n => n.mesh.map fun mesh => mesh.box n.world.value

/-- The box around the meshes of some nodes, taken one after the other. -/
def boxOf (ns : List (SceneNode K)) : Bounds K :=
  ns.foldl (fun acc n =>
    match n.mesh with
    | some mesh => acc.union (mesh.box n.world.value)
    | none => acc) .empty

theorem boxOf_eq_union (ns : List (SceneNode K)) : boxOf ns =
    (ns.filterMap fun n => n.mesh.map fun mesh => mesh.box n.world.value).foldl .union .empty := by
  rw [boxOf, List.foldl_filterMap]
  congr 1
  funext b n
  cases n.mesh <;> rfl

theorem bounds_eq_union (root : SceneNode K) : root.bounds = root.boxes.foldl .union .empty :=
  boxOf_eq_union root.preorder

theorem mem_boxes_iff {root : SceneNode K} {b : Bounds K} :
    b ∈ root.boxes ↔ ∃ mesh world, root.Draws mesh world ∧ mesh.box world = b := by
  simp only [boxes, List.mem_filterMap, Option.map_eq_some_iff]
  constructor
  · rintro ⟨n, hn, mesh, hmesh, hbox⟩
    exact ⟨mesh, n.world.value, ⟨n, hn, hmesh, rfl⟩, hbox⟩
  · rintro ⟨mesh, world, ⟨n, hn, hmesh, rfl⟩, hbox⟩
    exact ⟨n, hn, mesh, hmesh, hbox⟩

/-- **The bounds of a scene contain it.**  Let every geometry below a node be stored with the box
    of its positions, and let all that is computed of the meshes come out as numbers.  Where
    arithmetic is monotone the bounds of the node hold every vertex of every mesh below it, as it
    is in the world; and they are empty exactly if no mesh below it has a vertex. -/
theorem bounds_contain_vertices [MonotoneArithmetic K] (root : SceneNode K)
    (hfitted : ∀ mesh world, root.Draws mesh world → mesh.geometry.value.IsFitted)
    (hnumeric : ∀ mesh world, root.Draws mesh world → mesh.IsNumericIn world) :
    (∀ mesh world, root.Draws mesh world → ∀ p, mesh.geometry.value.HasVertex p →
      root.bounds.Holds (world.apply p)) ∧
    (root.bounds.isEmpty = true ↔
      ∀ mesh world, root.Draws mesh world → ∀ p, ¬ mesh.geometry.value.HasVertex p) := by
  have hboxes : ∀ b ∈ root.boxes, b.IsNumeric := by
    intro b hb
    obtain ⟨mesh, world, hdraws, rfl⟩ := mem_boxes_iff.mp hb
    exact Mesh.isNumeric_box (hfitted mesh world hdraws) (hnumeric mesh world hdraws)
  have hholds : ∀ mesh world, root.Draws mesh world → ∀ p, mesh.geometry.value.HasVertex p →
      root.bounds.Holds (world.apply p) := by
    intro mesh world hdraws p hp
    have hbox := Mesh.holds_box (hfitted mesh world hdraws) (hnumeric mesh world hdraws) hp
    rw [bounds_eq_union]
    exact Bounds.holds_foldl_union Bounds.isNumeric_empty hboxes
      (.inr ⟨mesh.box world, mem_boxes_iff.mpr ⟨mesh, world, hdraws, rfl⟩, hbox⟩)
  refine ⟨hholds, ?_, ?_⟩
  · intro hempty mesh world hdraws p hp
    rw [(hholds mesh world hdraws p hp).isEmpty_eq_false] at hempty
    exact Bool.false_ne_true hempty
  · intro hnone
    rw [bounds_eq_union, Bounds.foldl_union_empty]
    · exact Bounds.isEmpty_empty
    · intro b hb
      obtain ⟨mesh, world, hdraws, rfl⟩ := mem_boxes_iff.mp hb
      exact Mesh.box_eq_empty (hfitted mesh world hdraws) (hnone mesh world hdraws)

end SceneNode

/-- A tile with three corners. -/
def Mesh.tile : Mesh Float32 :=
  .ofParts ⟨0, .ofBuffers ⟨[⟨0, 0, 0⟩, ⟨1, 0, 0⟩, ⟨0, 2, 0⟩], [], [], [0, 1, 2]⟩⟩
    ⟨1, (Material.ofUnlitColor Vec4.one .empty).1⟩

/-- A quarter turn that mirrors and stretches. -/
def Affine.turned : Affine Float32 := ⟨⟨⟨0, -1, 0⟩, ⟨-2, 0, 0⟩, ⟨0, 0, 1⟩⟩, ⟨5, 0, -1⟩⟩

def SceneNode.tiled (name : String) (world : Affine Float32) : SceneNode Float32 :=
  { SceneNode.bare name none ⟨2, world⟩ with mesh := some .tile }

/-- A tile, and a turned one for the distance. -/
def SceneNode.floor : SceneNode Float32 :=
  { SceneNode.tiled "near" .identity with lod := some ⟨[⟨10, .tiled "far" .turned⟩]⟩ }

theorem SceneNode.draws_floor_iff {mesh : Mesh Float32} {world : Affine Float32} :
    SceneNode.floor.Draws mesh world ↔ mesh = .tile ∧ (world = .identity ∨ world = .turned) := by
  have hnodes : SceneNode.floor.preorder = [.floor, .tiled "far" .turned] := rfl
  constructor
  · rintro ⟨n, hn, hmesh, rfl⟩
    rw [hnodes] at hn
    simp only [List.mem_cons, List.not_mem_nil, or_false] at hn
    rcases hn with rfl | rfl
    · exact ⟨(Option.some.inj hmesh).symm, .inl rfl⟩
    · exact ⟨(Option.some.inj hmesh).symm, .inr rfl⟩
  · rintro ⟨rfl, rfl | rfl⟩
    · exact ⟨.floor, SceneNode.mem_preorder_self _, rfl, rfl⟩
    · exact ⟨.tiled "far" .turned, by simp [hnodes], rfl, rfl⟩

theorem Mesh.isNumericIn_tile {world : Affine Float32}
    (hvertices : ∀ p ∈ Mesh.tile.geometry.value.positions?.getD [], (world.apply p).IsNumeric)
    (hcorners : ∀ c ∈ Mesh.tile.bounds.corners, (world.apply c).IsNumeric) :
    Mesh.tile.IsNumericIn world where
  vertices := by
    rintro p ⟨ps, hps, hp⟩
    rw [hps] at hvertices
    exact hvertices p hp
  corners _ := hcorners

/-- The floor is bounded by a box that holds both tiles. -/
theorem SceneNode.bounds_contain_floor :
    (∀ p ∈ [⟨0, 0, 0⟩, ⟨1, 0, 0⟩, ⟨0, 2, 0⟩],
      SceneNode.floor.bounds.Holds (Affine.identity.apply p) ∧
      SceneNode.floor.bounds.Holds (Affine.turned.apply p)) ∧
    SceneNode.floor.bounds.isEmpty = false := by
  have hnear : Mesh.tile.IsNumericIn .identity :=
    Mesh.isNumericIn_tile (by decide +kernel) (by decide +kernel)
  have hfar : Mesh.tile.IsNumericIn .turned :=
    Mesh.isNumericIn_tile (by decide +kernel) (by decide +kernel)
  obtain ⟨hholds, hempty⟩ := SceneNode.bounds_contain_vertices .floor
    (fun mesh world hdraws => by
      obtain ⟨rfl, -⟩ := SceneNode.draws_floor_iff.mp hdraws
      exact ⟨_, rfl, rfl⟩)
    (fun mesh world hdraws => by
      obtain ⟨rfl, rfl | rfl⟩ := SceneNode.draws_floor_iff.mp hdraws
      · exact hnear
      · exact hfar)
  have hroot := SceneNode.draws_floor_iff.mpr ⟨rfl, .inl rfl⟩
  have hlevel := SceneNode.draws_floor_iff.mpr ⟨rfl, .inr rfl⟩
  refine ⟨fun p hp => ⟨?_, ?_⟩, ?_⟩
  · exact hholds _ _ hroot p ⟨_, rfl, hp⟩
  · exact hholds _ _ hlevel p ⟨_, rfl, hp⟩
  · rw [Bool.eq_false_iff, ne_eq, hempty]
    intro hnone
    exact hnone _ _ hroot ⟨0, 0, 0⟩ ⟨_, rfl, List.mem_cons_self⟩

end SceneAssembly
