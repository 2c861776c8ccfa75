/-
  SceneAssembly/Proofs/Shapes/Words.lean
  ======================================
  **Vertex numbers computed in 32 bits.**

  The numbers of vertices are natural numbers here, but they are meant to be
  computed in words of 32 bits.  `Word` is a word that remembers whether it ever
  went out of range, so that an intermediate result that wraps around is not
  hidden by a later step.  For each shape `words` is the list of its indices
  computed step by step in such words, from the counts of the shape and the
  number of vertices so far.

  As long as the vertices can be numbered at all, no step goes out of range, and
  the words are the indices (`ShapeSpec.words_eq`).
-/
import SceneAssembly.Proofs.Shapes.Fitting

namespace SceneAssembly

variable {K : Type}

/-! ## 1. Words -/

/-- A number below 2³², or none once a step has left this range. -/
structure Word where
  value? : Option Nat
deriving DecidableEq

namespace Word

/-- One more than the greatest word. -/
abbrev size : Nat := 2 ^ 32

instance : NatCast Word := ⟨fun n => ⟨if n < size then some n else none⟩⟩

instance : Add Word := ⟨fun a b =>
  match a.value?, b.value? with
  | some m, some n => (m + n : Nat)
  | _, _ => ⟨none⟩⟩

instance : Mul Word := ⟨fun a b =>
  match a.value?, b.value? with
  | some m, some n => (m * n : Nat)
  | _, _ => ⟨none⟩⟩

variable {m n : Nat}

theorem cast_eq (h : n < size) : (n : Word) = ⟨some n⟩ := by
  show (⟨if n < size then some n else none⟩ : Word) = _
  rw [if_pos h]

theorem cast_add (h : m + n < size) : (m : Word) + (n : Word) = ((m + n : Nat) : Word) := by
  rw [cast_eq (show m < size by omega), cast_eq (show n < size by omega)]
  rfl

theorem cast_mul (hm : m < size) (hn : n < size) :
    (m : Word) * (n : Word) = ((m * n : Nat) : Word) := by
  rw [cast_eq hm, cast_eq hn]
  rfl

end Word

/-! ## 2. Words beside buffers -/

/-- Buffers with their indices computed in words beside them. -/
structure Draft (K : Type) where
  buffers : Buffers K
  words : List Word

namespace Draft

def empty : Draft K := ⟨.empty, []⟩

/-- The draft with a part added, given the words of the part. -/
def append (a : Draft K) (b : Buffers K) (words : List Word) : Draft K :=
  ⟨a.buffers.append b, a.words ++ words⟩

/-- The words are the indices, if there are not too many vertices for them. -/
def Agrees (a : Draft K) : Prop :=
  a.buffers.positions.length < Word.size → a.words = a.buffers.indices.map (↑)

theorem Agrees.append {a : Draft K} {b : Buffers K} {words : List Word} (ha : a.Agrees)
    (hb : a.buffers.positions.length + b.positions.length < Word.size →
      words = b.indices.map (↑)) : (a.append b words).Agrees := by
  intro h
  simp only [Draft.append, Buffers.append, List.length_append] at h
  simp only [Draft.append, Buffers.append, List.map_append]
  rw [ha (by omega), hb h]

/-- Parts that are added one by one, each numbered from where the one before ended. -/
theorem joined {α : Type} (part : α → Nat → Buffers K) (words : α → Nat → List Word)
    (h : ∀ x base, base + (part x base).positions.length < Word.size →
      words x base = (part x base).indices.map (↑)) (xs : List α) {a : Draft K} (ha : a.Agrees) :
    (xs.foldl (fun acc x => acc.append (part x acc.buffers.positions.length)
        (words x acc.buffers.positions.length)) a).Agrees ∧
      (xs.foldl (fun acc x => acc.append (part x acc.buffers.positions.length)
        (words x acc.buffers.positions.length)) a).buffers =
        xs.foldl (fun acc x => acc.append (part x acc.positions.length)) a.buffers := by
  induction xs generalizing a with
  | nil => exact ⟨ha, rfl⟩
  | cons x rest ih => exact ih (ha.append (h x _))

end Draft

/-! ## 3. Shapes in words -/

namespace Grid

/-- The triangles of a grid, computed in words. -/
def words (base cols rows : Nat) : List Word :=
  (List.range rows).flatMap fun (iy : Nat) => (List.range cols).flatMap fun (ix : Nat) =>
    let stride : Word := (cols : Word) + (1 : Nat)
    let a : Word := (base : Word) + ix + stride * iy
    let b : Word := (base : Word) + ix + stride * ((iy : Word) + (1 : Nat))
    let c : Word := (base : Word) + ((ix : Word) + (1 : Nat)) + stride * ((iy : Word) + (1 : Nat))
    let d : Word := (base : Word) + ((ix : Word) + (1 : Nat)) + stride * iy
    [a, b, d, b, c, d]

variable {base cols rows : Nat}

/-- The number of a vertex goes out of range at no step, if there are not too many vertices. -/
theorem word_vertex (h : base + (cols + 1) * (rows + 1) ≤ Word.size) (hrows : 0 < rows)
    {ix iy : Nat} (hx : ix ≤ cols) (hy : iy ≤ rows) :
    (base : Word) + (ix : Word) + ((cols : Word) + (1 : Nat)) * (iy : Word) =
      ((base + ix + (cols + 1) * iy : Nat) : Word) := by
  have hvertex := vertex_lt hx hy
  have hstride : cols + 1 < (cols + 1) * (rows + 1) :=
    (Nat.lt_mul_iff_one_lt_right (Nat.succ_pos cols)).mpr (Nat.succ_lt_succ hrows)
  have hrow : iy ≤ (cols + 1) * iy := Nat.le_mul_of_pos_left _ (Nat.succ_pos cols)
  rw [Word.cast_add (by omega), Word.cast_add (by omega), Word.cast_mul (by omega) (by omega),
    Word.cast_add (by omega)]

theorem words_eq (h : base + (cols + 1) * (rows + 1) ≤ Word.size) :
    words base cols rows = (indices base cols rows).map (↑) := by
  rw [words, indices, List.map_flatMap]
  refine List.flatMap_congr fun iy hy => ?_
  rw [List.map_flatMap]
  refine List.flatMap_congr fun ix hx => ?_
  have hx : ix + 1 ≤ cols := List.mem_range.mp hx
  have hy : iy + 1 ≤ rows := List.mem_range.mp hy
  have hrows : 0 < rows := Nat.zero_lt_of_lt hy
  have hvertex := vertex_lt hx hy
  have hrow : iy + 1 ≤ (cols + 1) * (iy + 1) := Nat.le_mul_of_pos_left _ (Nat.succ_pos cols)
  simp only [cell, List.map_cons, List.map_nil]
  rw [Word.cast_add (m := ix) (by omega), Word.cast_add (m := iy) (by omega),
    word_vertex h hrows (by omega) (by omega), word_vertex h hrows (by omega) hy,
    word_vertex h hrows hx hy, word_vertex h hrows hx (by omega)]

end Grid

variable [Scalar K]

/-- The indices of a box, computed in words. -/
def BoxSpec.draft (b : BoxSpec K) : Draft K :=
  b.faces.foldl (fun acc f => acc.append (f.buffers acc.buffers.positions.length)
    (Grid.words acc.buffers.positions.length f.cols f.rows)) .empty

theorem BoxSpec.draft_agrees (b : BoxSpec K) : b.draft.Agrees ∧ b.draft.buffers = b.buffers :=
  Draft.joined BoxFace.buffers (fun f base => Grid.words base f.cols f.rows)
    (fun f base h => Grid.words_eq (by simpa [BoxFace.buffers] using h.le)) b.faces fun _ => rfl

namespace CylinderSpec

/-- The triangles of a cap, computed in words; its rim starts at the number of vertices that there
    are after its centres. -/
def capWords (base around : Nat) (top : Bool) : List Word :=
  (List.range around).flatMap fun (x : Nat) =>
    let center : Word := (base : Word) + x
    let rim : Word := ((base + around : Nat) : Word) + x
    if top then [rim, rim + (1 : Nat), center] else [rim + (1 : Nat), rim, center]

theorem capWords_eq {base around : Nat} (h : base + (around + (around + 1)) < Word.size)
    (top : Bool) : capWords base around top = (capIndices base around top).map (↑) := by
  rw [capWords, capIndices, List.map_flatMap]
  refine List.flatMap_congr fun x hx => ?_
  have hx : x < around := List.mem_range.mp hx
  simp only
  rw [Word.cast_add (m := base) (by omega), Word.cast_add (m := base + around) (by omega),
    Word.cast_add (by omega)]
  cases top <;> rfl

/-- The draft with a cap added where its radius is positive. -/
def withCapDraft (c : CylinderSpec K) (top : Bool) (a : Draft K) : Draft K :=
  if 0 < (if top then c.top else c.base) then
    a.append (c.cap a.buffers.positions.length top)
      (capWords a.buffers.positions.length c.around top)
  else a

/-- The indices of a cylinder, computed in words; those of the side are the numbers of vertices that
    there were when each was made. -/
def draft (c : CylinderSpec K) : Draft K :=
  let side : Draft K := ⟨c.side, (sideIndices c.around c.along).map (↑)⟩
  if c.capped then c.withCapDraft false (c.withCapDraft true side) else side

theorem withCapDraft_agrees {c : CylinderSpec K} {a : Draft K} {b : Buffers K}
    (ha : a.Agrees ∧ a.buffers = b) (top : Bool) :
    (c.withCapDraft top a).Agrees ∧ (c.withCapDraft top a).buffers = c.withCap top b := by
  obtain ⟨ha, rfl⟩ := ha
  by_cases hopen : 0 < (if top then c.top else c.base)
  · rw [withCapDraft, withCap, if_pos hopen, if_pos hopen]
    exact ⟨ha.append fun h => capWords_eq (by simpa [cap] using h) top, rfl⟩
  · rw [withCapDraft, withCap, if_neg hopen, if_neg hopen]
    exact ⟨ha, rfl⟩

theorem draft_agrees (c : CylinderSpec K) : c.draft.Agrees ∧ c.draft.buffers =
    if c.capped then c.withCap false (c.withCap true c.side) else c.side := by
  have hside : (⟨c.side, (sideIndices c.around c.along).map (↑)⟩ : Draft K).Agrees := fun _ => rfl
  cases hcapped : c.capped with
  | true =>
    simp only [draft, hcapped, if_true]
    exact withCapDraft_agrees (withCapDraft_agrees ⟨hside, rfl⟩ true) false
  | false =>
    simp only [draft, hcapped]
    exact ⟨hside, rfl⟩

end CylinderSpec

namespace PolygonSpec

/-- The triangles of a fan, computed in words. -/
def words (rings around : Nat) : List Word :=
  (List.range rings).flatMap fun (j : Nat) => (List.range around).flatMap fun (i : Nat) =>
    let k : Word := (j : Word) * ((around : Word) + (1 : Nat)) + i
    (if 0 < j then [k, k + around + (1 : Nat), k + (1 : Nat)] else []) ++
      [k + (1 : Nat), k + around + (1 : Nat), k + around + (2 : Nat)]

theorem words_eq {rings around : Nat} (h : (around + 1) * (rings + 1) < Word.size) :
    words rings around = (indices rings around).map (↑) := by
  rw [words, indices, List.map_flatMap]
  refine List.flatMap_congr fun j hj => ?_
  rw [List.map_flatMap]
  refine List.flatMap_congr fun i hi => ?_
  have hi : i + 1 ≤ around := List.mem_range.mp hi
  have hj : j + 1 ≤ rings := List.mem_range.mp hj
  have hlast := Grid.vertex_lt' hi hj
  have hnext := Nat.succ_mul j (around + 1)
  have hrow : j ≤ j * (around + 1) := Nat.le_mul_of_pos_right _ (Nat.succ_pos around)
  simp only [Nat.succ_eq_add_one] at hnext
  simp only
  rw [Word.cast_add (m := around) (by omega), Word.cast_mul (by omega) (by omega),
    Word.cast_add (m := j * (around + 1)) (by omega), Word.cast_add (n := around) (by omega),
    Word.cast_add (m := j * (around + 1) + i) (by omega), Word.cast_add (n := 1) (by omega),
    Word.cast_add (n := 2) (by omega)]
  by_cases hfirst : 0 < j <;> simp [hfirst]

end PolygonSpec

namespace SkyboxSpec

/-- The triangles of a face, computed in words. -/
def faceWords (base : Nat) : List Word :=
  let base : Word := base
  [base, base + (1 : Nat), base + (2 : Nat), base, base + (2 : Nat), base + (3 : Nat)]

/-- The indices of a sky box, computed in words. -/
def draft (s : SkyboxSpec K) : Draft K :=
  faceAxes.foldl (fun acc f => acc.append (s.faceBuffers f acc.buffers.positions.length)
    (faceWords acc.buffers.positions.length)) .empty

/-- The faces one after the other. -/
def buffers (s : SkyboxSpec K) : Buffers K :=
  faceAxes.foldl (fun acc face => acc.append (s.faceBuffers face acc.positions.length)) .empty

theorem draft_agrees (s : SkyboxSpec K) : s.draft.Agrees ∧ s.draft.buffers = s.buffers := by
  refine Draft.joined s.faceBuffers (fun _ => faceWords) (fun f base h => ?_) faceAxes fun _ => rfl
  have h : base + 4 < Word.size := h
  simp only [faceWords]
  rw [Word.cast_add (by omega), Word.cast_add (by omega), Word.cast_add (by omega)]
  rfl

end SkyboxSpec

namespace SurfaceSpec

/-- The triangles of a surface, computed in words. -/
def words (partsU partsV : Nat) : List Word :=
  (List.range partsU).flatMap fun (iu : Nat) => (List.range partsV).flatMap fun (iv : Nat) =>
    let stride : Word := (partsV : Word) + (1 : Nat)
    let a : Word := (iu : Word) * stride + iv
    let b : Word := a + stride
    let c : Word := b + (1 : Nat)
    let d : Word := a + (1 : Nat)
    [a, b, d, b, c, d]

theorem words_eq {partsU partsV : Nat} (h : (partsV + 1) * (partsU + 1) < Word.size) :
    words partsU partsV = (indices partsU partsV).map (↑) := by
  rw [words, indices, List.map_flatMap]
  refine List.flatMap_congr fun iu hu => ?_
  rw [List.map_flatMap]
  refine List.flatMap_congr fun iv hv => ?_
  have hu : iu + 1 ≤ partsU := List.mem_range.mp hu
  have hv : iv + 1 ≤ partsV := List.mem_range.mp hv
  have hlast := Grid.vertex_lt' hv hu
  have hnext := Nat.succ_mul iu (partsV + 1)
  have hrow : iu ≤ iu * (partsV + 1) := Nat.le_mul_of_pos_right _ (Nat.succ_pos partsV)
  simp only [Nat.succ_eq_add_one] at hnext
  simp only [List.map_cons, List.map_nil]
  rw [Word.cast_add (m := partsV) (by omega), Word.cast_mul (by omega) (by omega),
    Word.cast_add (m := iu * (partsV + 1)) (by omega), Word.cast_add (n := partsV + 1) (by omega),
    Word.cast_add (n := 1) (by omega), Word.cast_add (n := 1) (by omega)]

end SurfaceSpec

namespace Track

/-- The triangles of a ribbon, computed in words; that a section is the last one is found out in
    words too. -/
def words (sections : Nat) (closed : Bool) : List Word :=
  (List.range (if closed then sections else sections - 1)).flatMap fun (i : Nat) =>
    let base : Word := (i : Word) * (4 : Nat)
    segmentTemplate.map fun k =>
      if (i : Word) + (1 : Nat) = (sections : Word) ∧ 3 < k then ((k - 4 : Nat) : Word)
      else base + k

theorem words_eq {sections : Nat} (h : 4 * sections < Word.size) (closed : Bool) :
    words sections closed = (indices sections closed).map (↑) := by
  rw [words, indices, List.map_flatMap]
  refine List.flatMap_congr fun i hi => ?_
  have hi : i < sections := by
    have hi := List.mem_range.mp hi
    cases closed with
    | true => exact hi
    | false => exact Nat.lt_of_lt_of_le hi (Nat.sub_le _ _)
  have hlast : (i : Word) + ((1 : Nat) : Word) = (sections : Word) ↔ i + 1 = sections := by
    rw [Word.cast_add (by omega), Word.cast_eq (by omega), Word.cast_eq (by omega)]
    simp
  rw [segment, List.map_map]
  refine List.map_congr_left fun k hk => ?_
  have hcorner : ∀ k ∈ segmentTemplate, k < 8 := by decide
  have hk := hcorner k hk
  simp only [hlast, Function.comp_apply]
  by_cases hwrap : i + 1 = sections ∧ 3 < k
  · rw [if_pos hwrap, if_pos hwrap]
  · have hinside : i * 4 + k < 4 * sections := by
      by_contra hout
      exact hwrap ⟨by omega, by omega⟩
    rw [if_neg hwrap, if_neg hwrap, Word.cast_mul (by omega) (by omega), Word.cast_add (by omega)]

end Track

/-! ## 4. The indices of any shape -/

/-- The indices of a shape taken as it is written, computed in words. -/
def ShapeSpec.words : ShapeSpec K → List Word
  | rectangle r => Grid.words 0 (max r.partsX 1) (max r.partsY 1)
  | box b => b.draft.words
  | cylinder c => c.draft.words
  | sphere s => s.buffers.indices.map (↑)
  | triangle _ => [0, 1, 2, 2, 1, 0].map ((↑) : Nat → Word)
  | polygon p => PolygonSpec.words p.rings p.around
  | skybox s => s.draft.words
  | surface s => SurfaceSpec.words (max s.partsU 1) (max s.partsV 1)
  | track t => Track.words t.points.length t.closed
  | model _ | unsupported _ => []

end SceneAssembly
