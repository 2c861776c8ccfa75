/-
  SceneAssembly/Proofs/Shapes/TrackSections.lean
  ==============================================
  **What a section of a track spans.**

  A section is meant to span the width along the normal of its frame and the
  depth along the binormal, lifted by half the height (`declared`).  Every frame
  of a track stands upright, its normal level and its binormal rising
  (`frames_upright`), and this decides what becomes of a section whose corners
  all take the height of their sample, lifted: the width is spanned, the depth
  only as far as the binormal is level, and what the binormal rises is lost
  (`declared_eq`).  As it always rises, a section is the declared one only if
  it has no depth (`corner_eq_declared_iff`).

  Over the reals, for all tracks, flat, sloped and banked.
-/
import SceneAssembly.Proofs.Exact
import SceneAssembly.Proofs.Shapes.WellFormed

namespace SceneAssembly

/-! ## 1. Frames -/

namespace Track

/-- What holds of the first frame and of the frame of every step holds of all frames. -/
theorem framesFrom_forall {K : Type} [Scalar K] {P : Frame K → Prop}
    (hstep : ∀ step f, Frame.ofStep? step = some f → P f) (steps : List (Option (Vec3 K)))
    {previous : Frame K} (hprevious : P previous) : ∀ f ∈ framesFrom previous steps, P f := by
  induction steps generalizing previous with
  | nil => simp [framesFrom]
  | cons step rest ih =>
    -- A step without a frame of its own keeps the one before.
    have hframe : P ((step.bind Frame.ofStep?).getD previous) := by
      cases hcase : step.bind Frame.ofStep? with
      | none => exact hprevious
      | some f =>
        obtain ⟨s, -, hs⟩ := Option.bind_eq_some_iff.mp hcase
        exact hstep s f hs
    intro f hf
    rcases List.mem_cons.mp hf with rfl | hf
    · exact hframe
    · exact ih hframe f hf

open Exact

/-- A frame with a level normal and a rising binormal. -/
structure Frame.Upright (f : Frame ℝ) : Prop where
  level : f.normal.y = 0
  rising : 0 < f.binormal.y

theorem Frame.upright_start : (Frame.start : Frame ℝ).Upright where
  level := ofNat_zero
  rising := by
    show 0 < (@OfNat.ofNat ℝ 1 (Scalar.instOfNat 1) : ℝ)
    rw [ofNat_one]
    exact one_pos

theorem unitY_cross (v : Vec3 ℝ) : Vec3.unitY.cross v = ⟨v.z, 0, -v.x⟩ := by
  simp only [Vec3.cross, Vec3.unitY, ofNat_zero, ofNat_one]
  ext
  · show 1 * v.z - v.y * 0 = v.z
    ring
  · show 0 * v.x - v.z * 0 = 0
    ring
  · show 0 * v.y - v.x * 1 = -v.x
    ring

theorem length_pos_of_rising {v : Vec3 ℝ} (h : 0 < v.y) : 0 < v.length := by
  refine Real.sqrt_pos.mpr ?_
  show 0 < v.x * v.x + v.y * v.y + v.z * v.z
  linarith [mul_self_nonneg v.x, mul_pos h h, mul_self_nonneg v.z]

/-- A tangent and the level normal to it span a rising plane. -/
theorem cross_normal_rises {tangent normal : Vec3 ℝ}
    (h : (Vec3.unitY.cross tangent).unit? = some normal) : 0 < (tangent.cross normal).y := by
  obtain ⟨hlength, rfl⟩ := unit?_eq_some_iff.mp h
  have hsq := sq_length (Vec3.unitY.cross tangent)
  rw [unitY_cross] at hlength hsq ⊢
  -- It rises by the length that the normal had before it was made a unit vector.
  have hrises : (tangent.cross ((⟨tangent.z, 0, -tangent.x⟩ : Vec3 ℝ).scale
      (1 / (⟨tangent.z, 0, -tangent.x⟩ : Vec3 ℝ).length))).y =
        (⟨tangent.z, 0, -tangent.x⟩ : Vec3 ℝ).length := by
    show tangent.z * (tangent.z * (1 / Vec3.length _)) -
      -tangent.x * (1 / Vec3.length _) * tangent.x = _
    rw [← mul_right_inj' hlength.ne', ← sq, hsq]
    show _ = tangent.z * tangent.z + 0 * 0 + -tangent.x * -tangent.x
    field_simp
    ring
  rwa [hrises]

theorem Frame.upright_ofStep? {step : Vec3 ℝ} {f : Frame ℝ} (h : Frame.ofStep? step = some f) :
    f.Upright := by
  simp only [Frame.ofStep?, Option.bind_eq_bind, Option.bind_eq_some_iff, Option.pure_def,
    Option.some.injEq] at h
  obtain ⟨tangent, -, normal, hnormal, rfl⟩ := h
  have hrises := cross_normal_rises hnormal
  obtain ⟨-, rfl⟩ := unit?_eq_some_iff.mp hnormal
  constructor
  · rw [unitY_cross]
    exact zero_mul _
  · simp only [Vec3.normalized, ofNat_one]
    exact mul_pos hrises (one_div_pos.mpr (length_pos_of_rising hrises))

theorem frames_upright (samples : List (Vec3 ℝ)) (closed : Bool) :
    ∀ f ∈ frames samples closed, f.Upright :=
  framesFrom_forall (fun _ _ => Frame.upright_ofStep?) _ Frame.upright_start

end Track

/-! ## 2. Corners -/

namespace TrackSpec

open Exact

variable (t : TrackSpec ℝ) (p : Vec3 ℝ) (f : Track.Frame ℝ)

/-- Where a section declares a corner, by the signs of width and depth. -/
noncomputable def declared (signs : ℝ × ℝ) : Vec3 ℝ :=
  p + f.normal.scale (signs.1 * (t.width / 2)) + f.binormal.scale (signs.2 * (t.depth / 2)) +
    ⟨0, t.height / 2, 0⟩

/-- What the binormal adds to the height of a corner. -/
noncomputable def rise (sign : ℝ) : Vec3 ℝ := ⟨0, sign * (t.depth / 2) * f.binormal.y, 0⟩

variable {f}

/-- **A corner is the declared one, less what the binormal rises.** -/
theorem declared_eq (hf : f.Upright) (signs : ℝ × ℝ) :
    t.declared p f signs = t.corner p f signs + t.rise f signs.2 := by
  have hlevel := hf.level
  simp only [corner]
  ext
  · exact rfl
  · show p.y + f.normal.y * (signs.1 * (t.width / 2)) + f.binormal.y * (signs.2 * (t.depth / 2)) +
      t.height / 2 = p.y + t.height / 2 + signs.2 * (t.depth / 2) * f.binormal.y
    rw [hlevel]
    ring
  · exact rfl

/-- The corners of a section, in their order. -/
def cornersAt {K : Type} [Scalar K] (t : TrackSpec K) (p : Vec3 K) (f : Track.Frame K) :
    List (Vec3 K) :=
  Track.corners.map fun (ns, bs, _) => t.corner p f (ns, bs)

theorem cornersAt_eq :
    t.cornersAt p f = [t.corner p f (-1, 1), t.corner p f (1, 1), t.corner p f (1, -1),
      t.corner p f (-1, -1)] := by
  simp only [cornersAt, Track.corners, List.map_cons, List.map_nil, ofNat_one]

/-- A vector without its height. -/
def ground (v : Vec3 ℝ) : Vec3 ℝ := ⟨v.x, 0, v.z⟩

/-- The section keeps its width. -/
theorem corner_sub_width (hf : f.Upright) (bs : ℝ) :
    t.corner p f (1, bs) - t.corner p f (-1, bs) = f.normal.scale t.width := by
  simp only [corner]
  ext
  · show p.x + f.normal.x * (1 * (t.width / 2)) + f.binormal.x * (bs * (t.depth / 2)) -
      (p.x + f.normal.x * (-1 * (t.width / 2)) + f.binormal.x * (bs * (t.depth / 2))) =
        f.normal.x * t.width
    ring
  · show p.y + t.height / 2 - (p.y + t.height / 2) = f.normal.y * t.width
    rw [hf.level]
    ring
  · show p.z + f.normal.z * (1 * (t.width / 2)) + f.binormal.z * (bs * (t.depth / 2)) -
      (p.z + f.normal.z * (-1 * (t.width / 2)) + f.binormal.z * (bs * (t.depth / 2))) =
        f.normal.z * t.width
    ring

/-- Of its depth the section keeps what is level. -/
theorem corner_sub_depth (ns : ℝ) :
    t.corner p f (ns, 1) - t.corner p f (ns, -1) = (ground f.binormal).scale t.depth := by
  simp only [corner]
  ext
  · show p.x + f.normal.x * (ns * (t.width / 2)) + f.binormal.x * (1 * (t.depth / 2)) -
      (p.x + f.normal.x * (ns * (t.width / 2)) + f.binormal.x * (-1 * (t.depth / 2))) =
        f.binormal.x * t.depth
    ring
  · show p.y + t.height / 2 - (p.y + t.height / 2) = 0 * t.depth
    ring
  · show p.z + f.normal.z * (ns * (t.width / 2)) + f.binormal.z * (1 * (t.depth / 2)) -
      (p.z + f.normal.z * (ns * (t.width / 2)) + f.binormal.z * (-1 * (t.depth / 2))) =
        f.binormal.z * t.depth
    ring

/-- A corner on either side of the depth is the declared one only if there is no depth. -/
theorem corner_eq_declared_iff (hf : f.Upright) (ns : ℝ) {bs : ℝ} (hbs : bs ≠ 0) :
    t.corner p f (ns, bs) = t.declared p f (ns, bs) ↔ t.depth = 0 := by
  have hrising := hf.rising.ne'
  rw [declared_eq t p hf, eq_comm, add_eq_left_iff, rise]
  simp [hbs, hrising]

/-! ## 3. The sections of a ribbon -/

/-- The corners of one section, among the vertices of a ribbon. -/
def sectionAt (vertices : List (Vec3 ℝ)) (i : Nat) : List (Vec3 ℝ) :=
  (vertices.drop (4 * i)).take 4

theorem positions_eq (samples : List (Vec3 ℝ)) :
    (t.buffers samples).positions =
      (samples.zip (Track.frames samples t.closed)).flatMap fun s => t.cornersAt s.1 s.2 := rfl

theorem sectionAt_positions {samples : List (Vec3 ℝ)} {i : Nat} {p : Vec3 ℝ} {f : Track.Frame ℝ}
    (hp : samples[i]? = some p) (hf : (Track.frames samples t.closed)[i]? = some f) :
    sectionAt (t.buffers samples).positions i = t.cornersAt p f := by
  have hzip : (samples.zip (Track.frames samples t.closed))[i]? = some (p, f) :=
    List.getElem?_zip_eq_some.mpr ⟨hp, hf⟩
  have hcorners : ∀ s : Vec3 ℝ × Track.Frame ℝ, (t.cornersAt s.1 s.2).length = 4 := fun _ => rfl
  rw [positions_eq, sectionAt]
  exact take_drop_flatMap hcorners hzip

/-- A ribbon through at least two samples is built, with the vertices of its buffers. -/
theorem exists_build {samples : List (Vec3 ℝ)} (h : 2 ≤ samples.length) :
    ∃ g, t.build samples = .ok g ∧ g.positions? = some (t.buffers samples).positions := by
  have henough : ¬ samples.length < 2 := Nat.not_lt.mpr h
  refine ⟨_, if_neg henough, ?_⟩
  exact (((Geometry.packs_ofBuffers _).wellFormed (t.fits_buffers samples)).setColor _).positions

/-- **A section spans its width, and of its depth what is level.**  A ribbon through at least two
    samples is built, with four corners per sample.  Each corner is the declared one, less what the
    binormal rises; so corners on both sides of the width differ by the width along the normal, and
    those on both sides of the depth by the depth along the binormal without its height.  The
    binormal rises, so the four corners are the declared ones only if there is no depth. -/
theorem sections_span (samples : List (Vec3 ℝ)) (h : 2 ≤ samples.length) :
    ∃ g vertices, t.build samples = .ok g ∧ g.positions? = some vertices ∧
      vertices.length = 4 * samples.length ∧
      ∀ i < samples.length, ∃ p f c₀ c₁ c₂ c₃, samples[i]? = some p ∧
        (Track.frames samples t.closed)[i]? = some f ∧
        sectionAt vertices i = [c₀, c₁, c₂, c₃] ∧
        (t.declared p f (-1, 1) = c₀ + t.rise f 1 ∧ t.declared p f (1, 1) = c₁ + t.rise f 1 ∧
          t.declared p f (1, -1) = c₂ + t.rise f (-1) ∧
          t.declared p f (-1, -1) = c₃ + t.rise f (-1)) ∧
        (c₁ - c₀ = f.normal.scale t.width ∧ c₂ - c₃ = f.normal.scale t.width) ∧
        (c₀ - c₃ = (ground f.binormal).scale t.depth ∧
          c₁ - c₂ = (ground f.binormal).scale t.depth) ∧
        0 < f.binormal.y ∧
        ([c₀, c₁, c₂, c₃] = [t.declared p f (-1, 1), t.declared p f (1, 1),
          t.declared p f (1, -1), t.declared p f (-1, -1)] ↔ t.depth = 0) := by
  obtain ⟨g, hg, hpositions⟩ := t.exists_build h
  refine ⟨g, _, hg, hpositions, t.length_positions samples, fun i hi => ?_⟩
  have hframes : i < (Track.frames samples t.closed).length := by
    rwa [Track.length_frames]
  have hp := List.getElem?_eq_getElem hi
  have hf := List.getElem?_eq_getElem hframes
  have hupright := Track.frames_upright samples t.closed _ (List.getElem_mem hframes)
  refine ⟨_, _, _, _, _, _, hp, hf, (t.sectionAt_positions hp hf).trans (t.cornersAt_eq _), ?_, ?_,
    ?_, hupright.rising, ?_⟩
  · exact ⟨t.declared_eq _ hupright _, t.declared_eq _ hupright _, t.declared_eq _ hupright _,
      t.declared_eq _ hupright _⟩
  · exact ⟨t.corner_sub_width _ hupright 1, t.corner_sub_width _ hupright (-1)⟩
  · exact ⟨t.corner_sub_depth _ (-1), t.corner_sub_depth _ 1⟩
  · have hplus (ns : ℝ) := t.corner_eq_declared_iff samples[i] hupright ns one_ne_zero
    have hminus (ns : ℝ) := t.corner_eq_declared_iff samples[i] hupright ns
      (neg_ne_zero.mpr one_ne_zero)
    simp only [List.cons.injEq, and_true, hplus, hminus, and_self]

/-- The samples of a level track. -/
noncomputable def levelPath : List (Vec3 ℝ) := [⟨0, 0, 0⟩, ⟨10, 0, 0⟩]

/-- A track that is two wide, one high and four deep. -/
noncomputable def levelTrack : TrackSpec ℝ := ⟨levelPath, [], 0, 2, 1, 4, false⟩

theorem sections_span_levelTrack :
    2 ≤ levelPath.length ∧ ∃ g vertices, levelTrack.build levelPath = .ok g ∧
      g.positions? = some vertices ∧ vertices.length = 8 ∧
      ∃ f c₀ c₁ c₂ c₃, (Track.frames levelPath false)[1]? = some f ∧
        sectionAt vertices 1 = [c₀, c₁, c₂, c₃] ∧
        c₁ - c₀ = f.normal.scale 2 ∧ c₀ - c₃ = (ground f.binormal).scale 4 ∧
        levelTrack.declared ⟨10, 0, 0⟩ f (-1, 1) = c₀ + levelTrack.rise f 1 ∧
        [c₀, c₁, c₂, c₃] ≠ [levelTrack.declared ⟨10, 0, 0⟩ f (-1, 1),
          levelTrack.declared ⟨10, 0, 0⟩ f (1, 1), levelTrack.declared ⟨10, 0, 0⟩ f (1, -1),
          levelTrack.declared ⟨10, 0, 0⟩ f (-1, -1)] := by
  have htwo : 2 ≤ levelPath.length := le_refl 2
  obtain ⟨g, vertices, hg, hvertices, hlength, hsections⟩ := levelTrack.sections_span levelPath htwo
  obtain ⟨p, f, c₀, c₁, c₂, c₃, hp, hf, hcorners, hdeclared, hwidth, hdepth, -, hiff⟩ :=
    hsections 1 (Nat.lt_succ_self 1)
  obtain rfl : ⟨10, 0, 0⟩ = p := Option.some.inj hp
  refine ⟨htwo, g, vertices, hg, hvertices, hlength, f, c₀, c₁, c₂, c₃, hf, hcorners, hwidth.1,
    hdepth.1, hdeclared.1, fun heq => ?_⟩
  exact four_ne_zero (hiff.mp heq)

/-- The sections of a level track are not the declared ones: their four corners have one height. -/
theorem levelTrack_not_declared :
    ¬ ∀ (t : TrackSpec ℝ) (samples : List (Vec3 ℝ)), 2 ≤ samples.length →
      ∃ g vertices, t.build samples = .ok g ∧ g.positions? = some vertices ∧
        ∀ i < samples.length, ∃ p f, samples[i]? = some p ∧
          (Track.frames samples t.closed)[i]? = some f ∧
          sectionAt vertices i = [t.declared p f (-1, 1), t.declared p f (1, 1),
            t.declared p f (1, -1), t.declared p f (-1, -1)] := by
  intro h
  have htwo : 2 ≤ levelPath.length := le_refl 2
  obtain ⟨g, vertices, hg, hvertices, hsections⟩ := h levelTrack levelPath htwo
  obtain ⟨p, f, hp, hf, hdeclared⟩ := hsections 0 Nat.zero_lt_two
  obtain ⟨g', hg', hvertices'⟩ := levelTrack.exists_build htwo
  obtain rfl : g = g' := Except.ok.inj (hg.symm.trans hg')
  obtain rfl := Option.some.inj (hvertices.symm.trans hvertices')
  have hupright := Track.frames_upright levelPath false f (List.mem_of_getElem? hf)
  rw [sectionAt_positions _ hp hf, cornersAt_eq] at hdeclared
  have hfirst := List.head_eq_of_cons_eq hdeclared
  exact four_ne_zero ((levelTrack.corner_eq_declared_iff p hupright (-1) one_ne_zero).mp hfirst)

end TrackSpec

end SceneAssembly
