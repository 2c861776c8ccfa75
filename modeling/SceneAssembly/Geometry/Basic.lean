/-
  SceneAssembly/Geometry/Basic.lean
  =================================
  **Geometry: attributes, indices, groups and stored bounds.**

  The bounds of a geometry are stored: they change where they are recomputed
  and where the geometry is moved, and nowhere else.  A view of an attribute as
  vectors fails when its data does not divide into vectors; for what
  `Geometry.ofBuffers` builds no view fails, so that can always be moved
  (`isSome_translate?_ofBuffers`).
-/
import SceneAssembly.Geometry.Attribute
import SceneAssembly.Geometry.Bounds
import SceneAssembly.Table

namespace SceneAssembly

variable {K : Type}

/-- A range of the index list drawn with one material. -/
structure IndexGroup where
  start : Nat
  count : Nat
  material : Nat
deriving DecidableEq, Repr

structure Geometry (K : Type) where
  attributes : Table (Attribute K)
  indices : List Nat
  groups : List IndexGroup
  bounds : Bounds K

/-- Vertices and triangles, before they are packed. -/
structure Buffers (K : Type) where
  positions : List (Vec3 K)
  normals : List (Vec3 K)
  uvs : List (Vec2 K)
  indices : List Nat

/-- The buffers one after the other; the indices are left as they are. -/
def Buffers.append (a b : Buffers K) : Buffers K :=
  ⟨a.positions ++ b.positions, a.normals ++ b.normals, a.uvs ++ b.uvs, a.indices ++ b.indices⟩

def Buffers.empty : Buffers K := ⟨[], [], [], []⟩

/-- The buffers with all positions moved. -/
def Buffers.moved [Scalar K] (b : Buffers K) (offset : Vec3 K) : Buffers K :=
  { b with positions := b.positions.map (· + offset) }

namespace Geometry

def attribute? (g : Geometry K) (name : String) : Option (Attribute K) := g.attributes.find? name

def setAttribute (g : Geometry K) (name : String) (a : Attribute K) : Geometry K :=
  { g with attributes := g.attributes.insert name a }

/-! ## 1. Views -/

/-- A list of vectors under a name; no attribute is the empty list. -/
def triples? (g : Geometry K) (name : String) : Option (List (Vec3 K)) :=
  match g.attribute? name with
  | none => some []
  | some a => a.triples?

def positions? (g : Geometry K) : Option (List (Vec3 K)) := g.triples? "position"

def normals? (g : Geometry K) : Option (List (Vec3 K)) := g.triples? "normal"

def uvs? (g : Geometry K) : Option (List (Vec2 K)) :=
  match g.attribute? "uv" with
  | none => some []
  | some a => a.pairs?

/-- The colours, if there are any. -/
def colors? (g : Geometry K) : Option (Option (List (Vec3 K))) :=
  match g.attribute? "color" with
  | none => some none
  | some a => a.triples?.map some

def vertexCount? (g : Geometry K) : Option Nat := g.positions?.map List.length

def triangleCount (g : Geometry K) : Nat := g.indices.length / 3

theorem attribute?_setAttribute (g : Geometry K) (name : String) (a : Attribute K) (other : String) :
    (g.setAttribute name a).attribute? other = if other = name then some a else g.attribute? other :=
  Table.find?_insert g.attributes name a other

theorem attribute?_setAttribute_of_ne {g : Geometry K} {name other : String} (h : other ≠ name)
    (a : Attribute K) : (g.setAttribute name a).attribute? other = g.attribute? other := by
  rw [attribute?_setAttribute, if_neg h]

section Congruence

variable {g g' : Geometry K}

/-- A view looks at one attribute. -/
theorem triples?_congr {name : String} (h : g'.attribute? name = g.attribute? name) :
    g'.triples? name = g.triples? name := by
  rw [Geometry.triples?, Geometry.triples?, h]

theorem uvs?_congr (h : g'.attribute? "uv" = g.attribute? "uv") : g'.uvs? = g.uvs? := by
  rw [uvs?, uvs?, h]

end Congruence

/-! ## 2. Building and moving -/

variable [Scalar K]

def empty : Geometry K := ⟨.empty, [], [], .empty⟩

/-- The geometry with its bounds taken from its positions. -/
def computeBounds? (g : Geometry K) : Option (Geometry K) :=
  g.positions?.map fun ps => { g with bounds := .ofPoints ps }

/-- The geometry of some buffers, with bounds around the positions. -/
def ofBuffers (b : Buffers K) : Geometry K where
  attributes := ((Table.empty.insert "position" (Attribute.ofTriples b.positions)).insert "normal"
    (Attribute.ofTriples b.normals)).insert "uv" (Attribute.ofPairs b.uvs)
  indices := b.indices
  groups := []
  bounds := .ofPoints b.positions

def addGroup (g : Geometry K) (group : IndexGroup) : Geometry K :=
  { g with groups := g.groups ++ [group] }

/-- The geometry with all positions moved. -/
def translate? (g : Geometry K) (offset : Vec3 K) : Option (Geometry K) := do
  let moved ← match g.attribute? "position" with
    | none => some g
    | some a => a.triples?.map fun ps =>
      g.setAttribute "position" (a.update ((ps.map (· + offset)).flatMap Vec3.toList))
  moved.computeBounds?

/-! ## 3. Views of what is built -/

theorem attribute?_ofBuffers (b : Buffers K) (name : String) :
    (ofBuffers b).attribute? name =
      if name = "uv" then some (.ofPairs b.uvs)
      else if name = "normal" then some (.ofTriples b.normals)
      else if name = "position" then some (.ofTriples b.positions)
      else none := by
  simp only [attribute?, ofBuffers, Table.find?_insert]
  rfl

theorem positions?_ofBuffers (b : Buffers K) : (ofBuffers b).positions? = some b.positions := by
  simp [positions?, Geometry.triples?, attribute?_ofBuffers]

theorem normals?_ofBuffers (b : Buffers K) : (ofBuffers b).normals? = some b.normals := by
  simp [normals?, Geometry.triples?, attribute?_ofBuffers]

theorem uvs?_ofBuffers (b : Buffers K) : (ofBuffers b).uvs? = some b.uvs := by
  simp [uvs?, attribute?_ofBuffers]

/-- A geometry can be moved if its positions can be read. -/
theorem isSome_translate? {g : Geometry K} (h : g.positions?.isSome) (offset : Vec3 K) :
    (g.translate? offset).isSome := by
  cases ha : g.attribute? "position" with
  | none => simpa [translate?, ha, computeBounds?] using h
  | some a =>
    obtain ⟨ps, hps⟩ := Option.isSome_iff_exists.mp h
    simp only [positions?, Geometry.triples?, ha] at hps
    simp [translate?, ha, hps, computeBounds?, positions?, Geometry.triples?,
      attribute?_setAttribute, Attribute.triples?_update]

theorem isSome_translate?_ofBuffers (b : Buffers K) (offset : Vec3 K) :
    ((ofBuffers b).translate? offset).isSome := by
  refine isSome_translate? ?_ offset
  rw [positions?_ofBuffers, Option.isSome_some]

end Geometry

end SceneAssembly
