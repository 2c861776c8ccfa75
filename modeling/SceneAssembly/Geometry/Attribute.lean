/-
  SceneAssembly/Geometry/Attribute.lean
  =====================================
  **Vertex attributes.**

  An attribute is a flat list of numbers with a format, the components of one
  vertex.  Read as vectors, its data has to divide into whole vectors
  (`Attribute.triples?`, `Attribute.pairs?`); the count is rounded down.
-/
import SceneAssembly.Vector

namespace SceneAssembly

variable {K : Type}

/-- How many numbers a vertex has. -/
inductive VertexFormat where
  | pair
  | triple
  | quad
deriving DecidableEq, Repr

def VertexFormat.components : VertexFormat → Nat
  | pair => 2
  | triple => 3
  | quad => 4

def VertexFormat.name : VertexFormat → String
  | pair => "Float32x2"
  | triple => "Float32x3"
  | quad => "Float32x4"

structure Attribute (K : Type) where
  data : List K
  format : VertexFormat
  count : Nat
  /-- How often the data was replaced: of one attribute the greater version is the newer one.  The
      versions of two attributes say nothing about each other. -/
  version : Nat

/-- A list cut into triples, unless some of it is left over. -/
def triples? : List K → Option (List (Vec3 K))
  | [] => some []
  | x :: y :: z :: rest => (triples? rest).map (⟨x, y, z⟩ :: ·)
  | _ => none

/-- A list cut into pairs, unless some of it is left over. -/
def pairs? : List K → Option (List (Vec2 K))
  | [] => some []
  | x :: y :: rest => (pairs? rest).map (⟨x, y⟩ :: ·)
  | _ => none

@[simp] theorem triples?_flatMap (vs : List (Vec3 K)) :
    triples? (vs.flatMap Vec3.toList) = some vs := by
  induction vs with
  | nil => rfl
  | cons v vs ih => simp [List.flatMap_cons, Vec3.toList, triples?, ih]

@[simp] theorem pairs?_flatMap (vs : List (Vec2 K)) :
    pairs? (vs.flatMap Vec2.toList) = some vs := by
  induction vs with
  | nil => rfl
  | cons v vs ih => simp [List.flatMap_cons, Vec2.toList, pairs?, ih]

namespace Attribute

/-- An attribute holding the given numbers. -/
def ofFlat (data : List K) (format : VertexFormat) : Attribute K :=
  { data, format, count := data.length / format.components, version := 0 }

def ofTriples (vs : List (Vec3 K)) : Attribute K := ofFlat (vs.flatMap Vec3.toList) .triple

def ofPairs (vs : List (Vec2 K)) : Attribute K := ofFlat (vs.flatMap Vec2.toList) .pair

/-- The attribute with other numbers, at a newer version. -/
def update (a : Attribute K) (data : List K) : Attribute K :=
  { a with data, count := data.length / a.format.components, version := a.version + 1 }

/-- The data as vectors of three. -/
def triples? (a : Attribute K) : Option (List (Vec3 K)) := SceneAssembly.triples? a.data

/-- The data as vectors of two. -/
def pairs? (a : Attribute K) : Option (List (Vec2 K)) := SceneAssembly.pairs? a.data

@[simp] theorem triples?_ofTriples (vs : List (Vec3 K)) : (ofTriples vs).triples? = some vs :=
  triples?_flatMap vs

@[simp] theorem pairs?_ofPairs (vs : List (Vec2 K)) : (ofPairs vs).pairs? = some vs :=
  pairs?_flatMap vs

theorem triples?_update (a : Attribute K) (vs : List (Vec3 K)) :
    (a.update (vs.flatMap Vec3.toList)).triples? = some vs :=
  triples?_flatMap vs

/-- The data as bytes, the low byte of each number first. -/
def bytes (a : Attribute Float32) : List UInt8 :=
  a.data.flatMap fun x =>
    [0, 8, 16, 24].map fun shift => (x.toBits >>> shift).toUInt8

end Attribute

end SceneAssembly
