/-
  SceneAssembly/Proofs/Shapes/WellFormed.lean
  ===========================================
  **Every geometry that is built is well formed.**

  A well-formed geometry has as many normals and places in the texture as it has
  positions, whole triangles between its vertices, the box around its positions,
  and groups, if any, that cut its list of indices into consecutive ranges.  A
  geometry that packs buffers has all of this from them (`Geometry.Packs`), and
  still packs them, moved, after it was moved (`Geometry.Packs.translate`), so what
  is left to say of each shape is which colours and groups it adds.
-/
import SceneAssembly.Proofs.Shapes.Words

namespace SceneAssembly

variable {K : Type}

/-! ## 1. Well-formed geometries -/

/-- Groups that follow each other from one index to another one, with materials in order. -/
def Consecutive : (start material : Nat) → List IndexGroup → (finish : Nat) → Prop
  | start, _, [], finish => start = finish
  | start, material, group :: rest, finish =>
    group.start = start ∧ group.material = material ∧
      Consecutive (start + group.count) (material + 1) rest finish

namespace Geometry

/-- A geometry with the given vertices is well formed. -/
structure WellFormed [Scalar K] (g : Geometry K) (vertices : List (Vec3 K)) : Prop where
  positions : g.positions? = some vertices
  normals : ∃ normals, g.normals? = some normals ∧ normals.length = vertices.length
  uvs : ∃ uvs, g.uvs? = some uvs ∧ uvs.length = vertices.length
  triangles : Triangles vertices.length g.indices
  bounds : g.bounds = .ofPoints vertices
  groups : g.groups = [] ∨ Consecutive 0 0 g.groups g.indices.length

theorem colors?_setColor (g : Geometry K) (colors : List (Vec3 K)) :
    (g.setAttribute "color" (.ofTriples colors)).colors? = some (some colors) := by
  simp [colors?, attribute?_setAttribute]

variable [Scalar K] {g g' : Geometry K} {b : Buffers K} {offset : Vec3 K}

/-- Colours are beside what makes a geometry well formed. -/
theorem WellFormed.setColor {vertices : List (Vec3 K)} (h : g.WellFormed vertices)
    (a : Attribute K) : (g.setAttribute "color" a).WellFormed vertices := by
  have hkept {name : String} (hname : name ≠ "color") :
      (g.setAttribute "color" a).attribute? name = g.attribute? name :=
    attribute?_setAttribute_of_ne hname a
  obtain ⟨normals, hnormals, hnormalsLength⟩ := h.normals
  obtain ⟨uvs, huvs, huvsLength⟩ := h.uvs
  constructor
  case positions => exact (triples?_congr (hkept (by decide))).trans h.positions
  case normals =>
    exact ⟨normals, (triples?_congr (hkept (by decide))).trans hnormals, hnormalsLength⟩
  case uvs => exact ⟨uvs, (uvs?_congr (hkept (by decide))).trans huvs, huvsLength⟩
  case triangles => exact h.triangles
  case bounds => exact h.bounds
  case groups => exact h.groups

/-! ### Buffers that are packed -/

/-- A geometry holds the given buffers and the box of their positions, without colours and groups. -/
structure Packs (g : Geometry K) (b : Buffers K) : Prop where
  positions : g.positions? = some b.positions
  normals : g.normals? = some b.normals
  uvs : g.uvs? = some b.uvs
  plain : g.attribute? "color" = none
  indices : g.indices = b.indices
  groups : g.groups = []
  bounds : g.bounds = .ofPoints b.positions

theorem packs_ofBuffers (b : Buffers K) : (ofBuffers b).Packs b where
  positions := positions?_ofBuffers b
  normals := normals?_ofBuffers b
  uvs := uvs?_ofBuffers b
  plain := attribute?_ofBuffers b "color"
  indices := rfl
  groups := rfl
  bounds := rfl

theorem Packs.wellFormed (h : g.Packs b) (hfits : b.Fits 0) : g.WellFormed b.positions where
  positions := h.positions
  normals := ⟨b.normals, h.normals, hfits.normals⟩
  uvs := ⟨b.uvs, h.uvs, hfits.uvs⟩
  triangles := by
    have htriangles := hfits.triangles
    rwa [Nat.zero_add, ← h.indices] at htriangles
  bounds := h.bounds
  groups := .inl h.groups

/-! ### Geometries that are moved -/

/-- The box that is stored is the box of the positions. -/
def IsFitted (g : Geometry K) : Prop := ∃ ps, g.positions? = some ps ∧ g.bounds = .ofPoints ps

theorem isFitted_of_computeBounds (h : g.computeBounds? = some g') : g'.IsFitted := by
  obtain ⟨ps, hps, rfl⟩ := Option.map_eq_some_iff.mp h
  exact ⟨ps, hps, rfl⟩

/-- Moving a geometry fits its box anew. -/
theorem isFitted_of_translate (h : g.translate? offset = some g') : g'.IsFitted := by
  simp only [translate?, Option.bind_eq_bind] at h
  split at h
  all_goals
    obtain ⟨moved, -, hmoved⟩ := Option.bind_eq_some_iff.mp h
    exact isFitted_of_computeBounds hmoved

/-- The positions of a geometry are moved and the rest of it is kept, but for the box. -/
structure IsMoved (offset : Vec3 K) (g g' : Geometry K) : Prop where
  positions : g'.positions? = g.positions?.map (List.map (· + offset))
  others : ∀ name, name ≠ "position" → g'.attribute? name = g.attribute? name
  indices : g'.indices = g.indices
  groups : g'.groups = g.groups

theorem isMoved_of_translate (h : g.translate? offset = some g') : IsMoved offset g g' := by
  simp only [translate?, Option.bind_eq_bind] at h
  split at h
  next hnone =>
    obtain ⟨ps, hps, rfl⟩ := Option.map_eq_some_iff.mp h
    refine ⟨?_, fun _ _ => rfl, rfl, rfl⟩
    show g.positions? = _
    simp [positions?, Geometry.triples?, hnone]
  next a ha =>
    obtain ⟨moved, hmoved, hbounds⟩ := Option.bind_eq_some_iff.mp h
    obtain ⟨ps, hps, rfl⟩ := Option.map_eq_some_iff.mp hmoved
    obtain ⟨-, -, rfl⟩ := Option.map_eq_some_iff.mp hbounds
    refine ⟨?_, fun name hname => ?_, rfl, rfl⟩
    · show (g.setAttribute "position" _).positions? = _
      simp [positions?, Geometry.triples?, attribute?_setAttribute, Attribute.triples?_update, ha, hps]
    · exact attribute?_setAttribute_of_ne hname _

/-- Moved, a geometry packs the moved buffers. -/
theorem Packs.translate (h : g.Packs b) (hmoved : g.translate? offset = some g') :
    g'.Packs (b.moved offset) := by
  obtain ⟨hpositions, hothers, hindices, hgroups⟩ := isMoved_of_translate hmoved
  obtain ⟨ps, hps, hbounds⟩ := isFitted_of_translate hmoved
  rw [h.positions] at hpositions
  obtain rfl := Option.some.inj (hps.symm.trans hpositions)
  constructor
  case positions => exact hps
  case normals => exact (triples?_congr (hothers _ (by decide))).trans h.normals
  case uvs => exact (uvs?_congr (hothers _ (by decide))).trans h.uvs
  case plain => exact (hothers _ (by decide)).trans h.plain
  case indices => exact hindices.trans h.indices
  case groups => exact hgroups.trans h.groups
  case bounds => exact hbounds

end Geometry

/-! ## 2. What is built of a shape -/

namespace ShapeSpec

/-- Shapes whose vertices have colours. -/
def IsColored : ShapeSpec K → Prop
  | polygon _ | track _ => True
  | _ => False

variable [Scalar K]

/-- A geometry that is right for a shape taken as it is written: well formed, with colours if and
    only if the shape has them, and with indices that can be computed in words. -/
structure BuiltRight (shape : ShapeSpec K) (g : Geometry K) (vertices : List (Vec3 K)) : Prop where
  wellFormed : g.WellFormed vertices
  colored : shape.IsColored →
    ∃ colors, g.colors? = some (some colors) ∧ colors.length = vertices.length
  plain : ¬ shape.IsColored → g.attribute? "color" = none
  words : vertices.length < Word.size → shape.words = g.indices.map (↑)

variable {shape : ShapeSpec K} {b : Buffers K}

theorem BuiltRight.ofPacks {g : Geometry K} (h : g.Packs b) (hb : b.Fits 0)
    (hplain : ¬ shape.IsColored)
    (hwords : b.positions.length < Word.size → shape.words = b.indices.map (↑)) :
    shape.BuiltRight g b.positions := by
  refine ⟨h.wellFormed hb, fun hcolored => absurd hcolored hplain, fun _ => h.plain, ?_⟩
  rwa [h.indices]

theorem BuiltRight.ofBuffers (hb : b.Fits 0) (hplain : ¬ shape.IsColored)
    (hwords : b.positions.length < Word.size → shape.words = b.indices.map (↑)) :
    shape.BuiltRight (.ofBuffers b) b.positions :=
  .ofPacks (Geometry.packs_ofBuffers b) hb hplain hwords

theorem BuiltRight.ofColors (hb : b.Fits 0) (hcolored : shape.IsColored) {colors : List (Vec3 K)}
    (hcolors : colors.length = b.positions.length)
    (hwords : b.positions.length < Word.size → shape.words = b.indices.map (↑)) :
    shape.BuiltRight ((Geometry.ofBuffers b).setAttribute "color" (.ofTriples colors))
      b.positions :=
  ⟨((Geometry.packs_ofBuffers b).wellFormed hb).setColor _,
    fun _ => ⟨colors, Geometry.colors?_setColor _ colors, hcolors⟩,
    fun hplain => absurd hcolored hplain, hwords⟩

end ShapeSpec

/-! ### Shape by shape -/

variable [Scalar K]

/-- A rectangle that is built is the one between its corners, moved. -/
theorem RectangleSpec.packs_of_build {r : RectangleSpec K} {g : Geometry K} (h : r.build = .ok g) :
    g.Packs (r.buffers.moved r.offset) :=
  (Geometry.packs_ofBuffers r.buffers).translate (build_eq_ok_iff.mp h).2

theorem RectangleSpec.builtRight {r : RectangleSpec K} {g : Geometry K} (h : r.build = .ok g) :
    ∃ vertices, (ShapeSpec.rectangle r).BuiltRight g vertices := by
  refine ⟨_, .ofPacks (packs_of_build h) (r.fits_buffers.moved r.offset) id fun hsize => ?_⟩
  refine Grid.words_eq ?_
  simpa [buffers, Buffers.moved] using hsize.le

theorem BoxSpec.builtRight {s : BoxSpec K} {g : Geometry K} (h : s.build = .ok g) :
    ∃ vertices, (ShapeSpec.box s).BuiltRight g vertices := by
  unfold build at h
  split at h
  · cases h
  · obtain rfl := Except.ok.inj h
    obtain ⟨hagrees, hbuffers⟩ := s.draft_agrees
    refine ⟨_, .ofBuffers s.fits_buffers id fun hsize => ?_⟩
    rw [← hbuffers] at hsize ⊢
    exact hagrees hsize

theorem CylinderSpec.builtRight (c : CylinderSpec K) :
    ∃ vertices, (ShapeSpec.cylinder c).BuiltRight c.build vertices := by
  obtain ⟨hagrees, hbuffers⟩ := c.draft_agrees
  have hfits : (if c.capped then c.withCap false (c.withCap true c.side) else c.side).Fits 0 := by
    split
    · exact fits_withCap (fits_withCap c.fits_side true) false
    · exact c.fits_side
  refine ⟨_, .ofBuffers hfits id fun hsize => ?_⟩
  rw [← hbuffers] at hsize ⊢
  exact hagrees hsize

theorem SphereSpec.builtRight (s : SphereSpec K) :
    ∃ vertices, (ShapeSpec.sphere s).BuiltRight s.build vertices := by
  rw [build_eq]
  exact ⟨_, .ofBuffers s.fits_buffers id fun _ => rfl⟩

theorem TriangleSpec.builtRight {t : TriangleSpec K} {g : Geometry K} (h : t.build = .ok g) :
    ∃ vertices, (ShapeSpec.triangle t).BuiltRight g vertices := by
  unfold build at h
  split at h
  · cases h
  · obtain rfl := Except.ok.inj h
    have htriangles : Triangles 3 [0, 1, 2, 2, 1, 0] :=
      .two (by decide) (by decide) (by decide) (by decide) (by decide) (by decide)
    exact ⟨_, .ofBuffers ⟨rfl, rfl, htriangles⟩ id fun _ => rfl⟩

theorem PolygonSpec.builtRight (p : PolygonSpec K) :
    ∃ vertices, (ShapeSpec.polygon p).BuiltRight p.build vertices := by
  have hcolored : (ShapeSpec.polygon p).IsColored := trivial
  rw [build_eq]
  refine ⟨_, .ofColors p.fits_buffers hcolored ?_ fun hsize => words_eq ?_⟩
  · simp [buffers]
  · simpa [buffers] using hsize

theorem SurfaceSpec.builtRight {s : SurfaceSpec K} {g : Geometry K} (h : s.build = .ok g) :
    ∃ vertices, (ShapeSpec.surface s).BuiltRight g vertices := by
  obtain rfl := build_ok h
  refine ⟨_, .ofBuffers s.fits_buffers id fun hsize => words_eq ?_⟩
  simpa [buffers] using hsize

theorem TrackSpec.builtRight {t : TrackSpec K} {g : Geometry K} (h : t.build t.points = .ok g) :
    ∃ vertices, (ShapeSpec.track t).BuiltRight g vertices := by
  have hcolored : (ShapeSpec.track t).IsColored := trivial
  obtain rfl := build_ok h
  refine ⟨_, .ofColors (t.fits_buffers t.points) hcolored ?_ fun hsize => Track.words_eq ?_ _⟩
  · rw [List.length_map]
  · rwa [length_positions] at hsize

namespace SkyboxSpec

theorem groups_build (s : SkyboxSpec K) :
    s.build = { Geometry.ofBuffers s.buffers with groups :=
      [⟨0, 6, 0⟩, ⟨6, 6, 1⟩, ⟨12, 6, 2⟩, ⟨18, 6, 3⟩, ⟨24, 6, 4⟩, ⟨30, 6, 5⟩] } := rfl

theorem builtRight (s : SkyboxSpec K) :
    ∃ vertices, (ShapeSpec.skybox s).BuiltRight s.build vertices := by
  obtain ⟨hagrees, hbuffers⟩ := s.draft_agrees
  have hfits : s.buffers.Fits 0 := .joined s.fits_faceBuffers faceAxes .empty
  have hpacks := Geometry.packs_ofBuffers s.buffers
  have hplain := hpacks.wellFormed hfits
  rw [groups_build]
  refine ⟨s.buffers.positions, ⟨?_, ?_, ?_, ?_⟩⟩
  · exact ⟨hplain.positions, hplain.normals, hplain.uvs, hplain.triangles, hplain.bounds,
      .inr (by simp [Consecutive]; rfl)⟩
  · exact False.elim
  · exact fun _ => hpacks.plain
  · intro hsize
    show s.draft.words = s.buffers.indices.map (↑)
    rw [← hbuffers] at hsize ⊢
    exact hagrees hsize

end SkyboxSpec

/-! ## 3. Every shape -/

namespace ShapeSpec

theorem builtRight_asWritten {shape : ShapeSpec K} {g : Geometry K}
    (h : shape.buildAsWritten = .ok g) : ∃ vertices, shape.BuiltRight g vertices := by
  cases shape with
  | rectangle r => exact RectangleSpec.builtRight h
  | box b => exact BoxSpec.builtRight h
  | cylinder c =>
    obtain rfl := Except.ok.inj h
    exact c.builtRight
  | sphere s =>
    obtain rfl := Except.ok.inj h
    exact s.builtRight
  | triangle t => exact TriangleSpec.builtRight h
  | polygon p =>
    obtain rfl := Except.ok.inj h
    exact p.builtRight
  | skybox s =>
    obtain rfl := Except.ok.inj h
    exact s.builtRight
  | surface s => exact SurfaceSpec.builtRight h
  | track t => exact TrackSpec.builtRight h
  | model path => cases h
  | unsupported subtype => cases h

/-- What is filled in of a shape has no say in its colours. -/
theorem isColored_complete (settings : Settings K) (shape : ShapeSpec K) :
    (shape.complete settings).IsColored ↔ shape.IsColored := by
  cases shape <;> exact Iff.rfl

end ShapeSpec

/-- **Every geometry that is built is well formed.**  Positions, normals and places in the texture
    are as many, colours too where the shape has them, and only there; the indices are whole
    triangles between vertices; the bounds are those of the positions; and groups cut the indices
    into consecutive ranges, with their materials in order.  If the vertices can be numbered in 32
    bits, so can the indices be computed, without a step that goes out of range. -/
theorem ShapeSpec.build_wellFormed (settings : Settings K) (shape : ShapeSpec K) (g : Geometry K)
    (h : shape.build settings = .ok g) :
    ∃ vertices, g.WellFormed vertices ∧
      (shape.IsColored →
        ∃ colors, g.colors? = some (some colors) ∧ colors.length = vertices.length) ∧
      (¬ shape.IsColored → g.attribute? "color" = none) ∧
      (vertices.length < 2 ^ 32 →
        (shape.complete settings).words = g.indices.map fun i => ⟨some i⟩) := by
  obtain ⟨vertices, hwellFormed, hcolored, hplain, hwords⟩ := builtRight_asWritten h
  rw [isColored_complete] at hcolored hplain
  refine ⟨vertices, hwellFormed, hcolored, hplain, fun hsize => ?_⟩
  rw [hwords hsize]
  refine List.map_congr_left fun i hi => ?_
  exact Word.cast_eq (Nat.lt_trans (hwellFormed.triangles.inside i hi) hsize)

/-- A sky box has groups and no colours, a fan has colours and no groups. -/
theorem ShapeSpec.build_wellFormed_skybox_polygon :
    (∃ (g : Geometry Float32) (vertices : List (Vec3 Float32)),
      (ShapeSpec.skybox .standard).build .standard = .ok g ∧ g.WellFormed vertices ∧
      vertices.length = 24 ∧ g.attribute? "color" = none ∧
      (ShapeSpec.skybox (.standard : SkyboxSpec Float32)).words =
        g.indices.map fun i => ⟨some i⟩) ∧
    ∃ (g : Geometry Float32) (vertices : List (Vec3 Float32)),
      (ShapeSpec.polygon ⟨1, 1, 3, Vec3.zero, Vec3.one⟩).build .standard = .ok g ∧
      g.WellFormed vertices ∧ vertices.length = 8 ∧
      (∃ colors, g.colors? = some (some colors) ∧ colors.length = 8) ∧
      PolygonSpec.words 1 3 = g.indices.map fun i => ⟨some i⟩ := by
  constructor
  · obtain ⟨vertices, hwellFormed, -, hplain, hwords⟩ := build_wellFormed .standard
      (.skybox (.standard : SkyboxSpec Float32)) _ rfl
    have hcount : vertices.length = 24 := by
      have hpositions := congrArg (Option.map List.length) hwellFormed.positions
      exact (Option.some.inj hpositions).symm
    exact ⟨_, vertices, rfl, hwellFormed, hcount, hplain id, hwords (by omega)⟩
  · obtain ⟨vertices, hwellFormed, hcolored, -, hwords⟩ := build_wellFormed .standard
      (.polygon (⟨1, 1, 3, Vec3.zero, Vec3.one⟩ : PolygonSpec Float32)) _ rfl
    have hcount : vertices.length = 8 := by
      have hpositions := congrArg (Option.map List.length) hwellFormed.positions
      exact (Option.some.inj hpositions).symm
    obtain ⟨colors, hcolors, hlength⟩ := hcolored trivial
    exact ⟨_, vertices, rfl, hwellFormed, hcount, ⟨colors, hcolors, hlength.trans hcount⟩,
      hwords (by omega)⟩

end SceneAssembly
