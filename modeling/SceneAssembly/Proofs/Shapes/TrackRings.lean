/-
  SceneAssembly/Proofs/Shapes/TrackRings.lean
  ===========================================
  **How the sections of a track are joined.**

  A segment joins a section to the one after it, which is the first one after
  the last.  The builder finds the last section by its number; the law counts the
  sections in a circle (`segment_eq_joining`).  A segment uses the corners of its
  two sections, all of them and no others (`mem_joining_iff`), so a ribbon can be
  taken apart again: cut into segments, it tells which sections each of them
  joins (`joining_inj`), and only a closed one leads from the last section to the
  first, once (`joins_build`).

  A track without two samples is degenerate.  Sampling a curve makes no track
  degenerate: it has two samples if there are two control points
  (`Curve.length_sample_lt_two_iff`).
-/
import SceneAssembly.Proofs.Shapes.WellFormed

namespace SceneAssembly

/-! ## 1. How many samples a curve has -/

namespace Curve

variable {K : Type} [Scalar K] {points : List (Vec3 K)}

theorem sample_of_short (h : points.length < 2) (closed : Bool) (samplesPerSpan : Nat) :
    sample points closed samplesPerSpan = points :=
  dif_neg (Nat.not_le.mpr h)

/-- As many samples as there are steps in all spans, and the end of an open curve. -/
theorem length_sample (h : 2 ≤ points.length) (closed : Bool) (samplesPerSpan : Nat) :
    (sample points closed samplesPerSpan).length =
      if closed then points.length * max samplesPerSpan 1
      else (points.length - 1) * max samplesPerSpan 1 + 1 := by
  unfold sample
  rw [dif_pos h]
  cases closed <;> simp [List.length_flatMap]

theorem length_sample_lt_two_iff (points : List (Vec3 K)) (closed : Bool) (samplesPerSpan : Nat) :
    (sample points closed samplesPerSpan).length < 2 ↔ points.length < 2 := by
  by_cases hshort : points.length < 2
  · rw [sample_of_short hshort]
  · have hpoints : 2 ≤ points.length := Nat.not_lt.mp hshort
    have hper : 1 ≤ max samplesPerSpan 1 := Nat.le_max_right _ _
    refine iff_of_false ?_ hshort
    rw [length_sample hpoints, Nat.not_lt]
    cases closed with
    | true =>
      calc 2 ≤ points.length := hpoints
        _ ≤ points.length * max samplesPerSpan 1 := Nat.le_mul_of_pos_right _ hper
    | false =>
      have hspan : 1 ≤ points.length - 1 := by omega
      have hsteps : 1 ≤ (points.length - 1) * max samplesPerSpan 1 := Nat.mul_pos hspan hper
      exact Nat.succ_le_succ hsteps

end Curve

namespace Track

/-! ## 2. Joining two sections -/

/-- Triangles from one section to another, by the corners of the template: the first four are those
    of the one, the last four those of the other. -/
def joining (first next : Nat) : List Nat :=
  segmentTemplate.map fun k => if k < 4 then 4 * first + k else 4 * next + (k - 4)

theorem mem_segmentTemplate_iff {k : Nat} : k ∈ segmentTemplate ↔ k < 8 := by
  have hbelow : ∀ k ∈ segmentTemplate, k < 8 := by decide
  have hevery : ∀ k < 8, k ∈ segmentTemplate := by decide
  exact ⟨hbelow k, hevery k⟩

/-- Joining uses the corners of both sections. -/
theorem mem_joining_iff {first next v : Nat} :
    v ∈ joining first next ↔ v / 4 = first ∨ v / 4 = next := by
  unfold joining
  rw [List.mem_map]
  constructor
  · rintro ⟨k, hk, rfl⟩
    have hk := mem_segmentTemplate_iff.mp hk
    split <;> omega
  · rintro (rfl | rfl)
    · refine ⟨v % 4, mem_segmentTemplate_iff.mpr (by omega), ?_⟩
      rw [if_pos (Nat.mod_lt v (by decide))]
      exact Nat.div_add_mod v 4
    · refine ⟨v % 4 + 4, mem_segmentTemplate_iff.mpr (by omega), ?_⟩
      rw [if_neg (by omega), Nat.add_sub_cancel]
      exact Nat.div_add_mod v 4

theorem joining_inj {first next first' next' : Nat}
    (h : joining first next = joining first' next') : first = first' ∧ next = next' := by
  have hfirst : some (4 * first + 0) = some (4 * first' + 0) := congrArg (·[0]?) h
  have hnext : some (4 * next + 0) = some (4 * next' + 0) := congrArg (·[6]?) h
  rw [Option.some.injEq] at hfirst hnext
  omega

/-- **A segment joins its section to the next one in the circle of sections.** -/
theorem segment_eq_joining {sections i : Nat} (hi : i < sections) :
    segment sections i = joining i ((i + 1) % sections) := by
  refine List.map_congr_left fun k hk => ?_
  have hk := mem_segmentTemplate_iff.mp hk
  by_cases hlast : i + 1 = sections
  · rw [hlast, Nat.mod_self]
    split <;> split <;> omega
  · rw [Nat.mod_eq_of_lt (by omega), if_neg fun h => hlast h.1]
    split <;> omega

/-! ## 3. The segments of a ribbon -/

/-- How many segments a ribbon has. -/
def segments (sections : Nat) (closed : Bool) : Nat := if closed then sections else sections - 1

/-- The triangles of one segment, among those of a ribbon. -/
def segmentAt (indices : List Nat) (i : Nat) : List Nat := (indices.drop (36 * i)).take 36

theorem lt_of_lt_segments {sections i : Nat} {closed : Bool} (hi : i < segments sections closed) :
    i < sections := by
  cases closed with
  | true => exact hi
  | false => exact Nat.lt_of_lt_of_le hi (Nat.sub_le sections 1)

theorem length_segment (sections i : Nat) : (segment sections i).length = 36 := rfl

theorem length_indices (sections : Nat) (closed : Bool) :
    (indices sections closed).length = 36 * segments sections closed := by
  simp [indices, segments, List.length_flatMap, length_segment, Nat.mul_comm]

theorem segmentAt_indices {sections i : Nat} {closed : Bool} (hi : i < segments sections closed) :
    segmentAt (indices sections closed) i = joining i ((i + 1) % sections) := by
  have hrange : (List.range (segments sections closed))[i]? = some i := List.getElem?_range hi
  rw [← segment_eq_joining (lt_of_lt_segments hi)]
  exact take_drop_flatMap (length_segment sections) hrange

/-- A segment leads from the last section to the first exactly if it starts at the last one. -/
theorem segmentAt_eq_wrap_iff {sections i : Nat} {closed : Bool}
    (hi : i < segments sections closed) :
    segmentAt (indices sections closed) i = joining (sections - 1) 0 ↔ i = sections - 1 := by
  have hsections : 0 < sections := Nat.zero_lt_of_lt (lt_of_lt_segments hi)
  rw [segmentAt_indices hi]
  constructor
  · exact fun h => (joining_inj h).1
  · rintro rfl
    rw [Nat.sub_add_cancel hsections, Nat.mod_self]

/-- A geometry is a ribbon of some sections, each joined to the next one. -/
structure Joins {K : Type} (g : Geometry K) (sections : Nat) (closed : Bool) : Prop where
  /-- A section has four corners. -/
  vertices : ∃ vertices, g.positions? = some vertices ∧ vertices.length = 4 * sections
  /-- There are no triangles besides those of the segments. -/
  count : g.indices.length = 36 * segments sections closed
  /-- A segment joins its section to the next one in the circle. -/
  joined : ∀ i < segments sections closed,
    segmentAt g.indices i = joining i ((i + 1) % sections)
  /-- It touches the corners of these two sections, and no others. -/
  touched : ∀ i < segments sections closed, ∀ v,
    v ∈ segmentAt g.indices i ↔ v / 4 = i ∨ v / 4 = (i + 1) % sections
  /-- Its triangles are between vertices. -/
  inside : ∀ v ∈ g.indices, v < 4 * sections
  /-- An open ribbon ends at its last section. -/
  ended : closed = false →
    ∀ i < segments sections closed, segmentAt g.indices i ≠ joining (sections - 1) 0
  /-- A closed one leads on from there to the first section, once. -/
  wrapped : closed = true →
    ∃! i, i < segments sections closed ∧ segmentAt g.indices i = joining (sections - 1) 0
  /-- If the vertices can be numbered in 32 bits, no index goes out of range on the way. -/
  words : 4 * sections < 2 ^ 32 → words sections closed = g.indices.map fun v => ⟨some v⟩

end Track

namespace TrackSpec

variable {K : Type} [Scalar K] (t : TrackSpec K)

/-- A ribbon through at least two samples joins one section per sample. -/
theorem joins_build {samples : List (Vec3 K)} (h : 2 ≤ samples.length) :
    ∃ g, t.build samples = .ok g ∧ Track.Joins g samples.length t.closed := by
  refine ⟨_, if_neg (Nat.not_lt.mpr h), ?_⟩
  have hwellFormed := ((Geometry.packs_ofBuffers _).wellFormed (t.fits_buffers samples)).setColor
    (.ofTriples ((t.buffers samples).positions.map fun _ => Track.color))
  constructor
  case vertices => exact ⟨_, hwellFormed.positions, t.length_positions samples⟩
  case count => exact Track.length_indices samples.length t.closed
  case joined => exact fun i hi => Track.segmentAt_indices hi
  case touched =>
    intro i hi v
    exact (iff_of_eq (congrArg (v ∈ ·) (Track.segmentAt_indices hi))).trans Track.mem_joining_iff
  case inside => exact (Track.triangles_indices samples.length t.closed).inside
  case ended =>
    intro hopen i hi hwrap
    have hlast : i = samples.length - 1 := (Track.segmentAt_eq_wrap_iff hi).mp hwrap
    rw [hopen] at hi
    exact absurd hlast (Nat.ne_of_lt hi)
  case wrapped =>
    intro hclosed
    have hlast : samples.length - 1 < Track.segments samples.length t.closed := by
      rw [hclosed]
      exact Nat.sub_lt (Nat.zero_lt_of_lt h) Nat.one_pos
    refine ⟨samples.length - 1, ⟨hlast, (Track.segmentAt_eq_wrap_iff hlast).mpr rfl⟩, ?_⟩
    rintro i ⟨hi, hwrap⟩
    exact (Track.segmentAt_eq_wrap_iff hi).mp hwrap
  case words =>
    intro hsize
    refine (Track.words_eq hsize t.closed).trans (List.map_congr_left fun v hv => ?_)
    have hv := (Track.triangles_indices samples.length t.closed).inside v hv
    exact Word.cast_eq (Nat.lt_trans hv hsize)

/-- A track has too few samples exactly if it is given too few points, of whichever kind. -/
theorem length_samples_lt_two_iff (settings : Settings K) :
    (t.samples settings).length < 2 ↔
      (if t.controlPoints.isEmpty then t.points else t.controlPoints).length < 2 := by
  unfold samples
  split
  · exact Iff.rfl
  · exact Curve.length_sample_lt_two_iff _ _ _

/-- **The sections of a track are joined in a row, or in a circle if it is closed.**  With at least
    two samples there is a ribbon of one section for each, with a segment from every section to the
    next one, except from the last one of an open track.  With fewer samples the track is
    degenerate, taken as it is written or with the samples of its curve, which are too few exactly
    if its control points are. -/
theorem rings_joined :
    (∀ samples : List (Vec3 K), 2 ≤ samples.length →
      ∃ g, t.build samples = .ok g ∧ Track.Joins g samples.length t.closed) ∧
    (∀ samples : List (Vec3 K), samples.length < 2 →
      t.build samples = .error (.degenerate (.track samples.length))) ∧
    ∀ settings : Settings K,
      (ShapeSpec.track t).build settings = t.build (t.samples settings) ∧
      ((t.samples settings).length < 2 ↔
        (if t.controlPoints.isEmpty then t.points else t.controlPoints).length < 2) :=
  ⟨fun _ => t.joins_build, fun _ hfew => if_pos hfew,
    fun settings => ⟨rfl, t.length_samples_lt_two_iff settings⟩⟩

/-- A closed track through two points, which both its segments join, and one with a single control
    point. -/
theorem rings_joined_there_and_back :
    ∃ (there back : Vec3 Float32) (g : Geometry Float32),
      2 ≤ [there, back].length ∧
      (TrackSpec.standard : TrackSpec Float32).build [there, back] = .ok g ∧
      Track.segmentAt g.indices 0 = Track.joining 0 1 ∧
      Track.segmentAt g.indices 1 = Track.joining 1 0 ∧
      [there].length < 2 ∧
      (ShapeSpec.track { TrackSpec.standard with controlPoints := [there] }).build .standard =
        .error (.degenerate (.track 1)) := by
  let there : Vec3 Float32 := Vec3.zero
  let back : Vec3 Float32 := Vec3.unitX
  have htwo : 2 ≤ [there, back].length := le_refl 2
  have hone : [there].length < 2 := Nat.one_lt_two
  obtain ⟨g, hg, hjoins⟩ := (rings_joined TrackSpec.standard).1 [there, back] htwo
  obtain ⟨-, hfew, hshape⟩ :=
    rings_joined { (TrackSpec.standard : TrackSpec Float32) with controlPoints := [there] }
  have hforth := hjoins.joined 0 Nat.zero_lt_two
  have hback := hjoins.joined 1 Nat.one_lt_two
  have hnext : (0 + 1) % [there, back].length = 1 := rfl
  have hwrap : (1 + 1) % [there, back].length = 0 := Nat.mod_self 2
  rw [hnext] at hforth
  rw [hwrap] at hback
  refine ⟨there, back, g, htwo, hg, hforth, hback, hone, ?_⟩
  rw [(hshape .standard).1]
  exact hfew _ ((hshape .standard).2.mpr hone)

end TrackSpec

end SceneAssembly
