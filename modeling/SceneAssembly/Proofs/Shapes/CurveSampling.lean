/-
  SceneAssembly/Proofs/Shapes/CurveSampling.lean
  ==============================================
  **Which samples a curve has.**

  A curve is sampled span by span, and each span is the cubic of four control
  points.  They are looked up at signed positions, which may lie outside the
  list: a closed curve counts them in a circle (`InCircle`), an open one mirrors
  the inner end of its first and last span at the outer one (`InRow`).  With
  every look-up checked, sampling still succeeds (`sample?_eq`), so none of them
  is ever out of range.

  A closed curve has no first point.  Turning its control points by one turns
  its samples by those of one span (`sample_rotate`), and this holds in any
  arithmetic, since no sample is computed otherwise than before.  Without rounding
  the cubic of a span is known by its ends: it runs from one control point to the
  next one, and goes on there as it came (`spans_meet`).
-/
import Mathlib.Analysis.Calculus.Deriv.Add
import Mathlib.Analysis.Calculus.Deriv.Mul
import Mathlib.Data.List.Rotate
import Mathlib.Topology.Algebra.Module.ModuleTopology
import SceneAssembly.Proofs.Shapes.Corners
import SceneAssembly.Proofs.Shapes.TrackRings

namespace SceneAssembly.Curve

variable {K : Type} {points : List (Vec3 K)} {closed : Bool}

theorem sub_lt {n k : Nat} (h : 2 ≤ n) (hk : 0 < k) : n - k < n :=
  Nat.sub_lt (Nat.lt_of_lt_of_le Nat.two_pos h) hk

/-! ## 1. Sampling with every look-up checked -/

/-- The point at a signed position, if there is one. -/
def point? (points : List (Vec3 K)) (i : Int) : Option (Vec3 K) :=
  if i < 0 then none else points[i.toNat]?

theorem point?_natCast (points : List (Vec3 K)) (k : Nat) : point? points k = points[k]? := by
  rw [point?, if_neg (Int.not_lt.mpr (Int.natCast_nonneg k)), Int.toNat_natCast]

theorem point?_eq {i : Int} {k : Nat} (hi : i = k) (hk : k < points.length) :
    point? points i = some (points.get ⟨k, hk⟩) := by
  rw [hi, point?_natCast, List.getElem?_eq_getElem hk, List.get_eq_getElem]

variable [Scalar K]

/-- The control point at a position, none if a look-up is out of range. -/
def control? (points : List (Vec3 K)) (closed : Bool) (i : Int) : Option (Vec3 K) :=
  let n : Int := points.length
  if closed then point? points (i % n)
  else if i < 0 then do return (← point? points 0).scale 2 - (← point? points 1)
  else if n ≤ i then do return (← point? points (n - 1)).scale 2 - (← point? points (n - 2))
  else point? points i

/-- How many spans a curve has. -/
def spans (points : List (Vec3 K)) (closed : Bool) : Nat :=
  if closed then points.length else points.length - 1

/-- The samples of one span, none if a look-up is out of range. -/
def span? (points : List (Vec3 K)) (closed : Bool) (per q : Nat) : Option (List (Vec3 K)) := do
  let p0 ← control? points closed ((q : Int) - 1)
  let p1 ← control? points closed q
  let p2 ← control? points closed ((q : Int) + 1)
  let p3 ← control? points closed ((q : Int) + 2)
  return (List.range per).map fun (r : Nat) => catmullRom p0 p1 p2 p3 ((r : K) / (per : K))

/-- The samples of a curve, none if a look-up is out of range. -/
def sample? (points : List (Vec3 K)) (closed : Bool) (samplesPerSpan : Nat) :
    Option (List (Vec3 K)) :=
  if points.length < 2 then some points
  else do
    let parts ← (List.range (spans points closed)).mapM (span? points closed (max samplesPerSpan 1))
    if closed then return parts.flatten
    else return parts.flatten ++ [← point? points ((points.length : Int) - 1)]

/-- Any position has a control point, also one that is far outside the list. -/
theorem control?_eq (h : 2 ≤ points.length) (closed : Bool) (i : Int) :
    control? points closed i = some (control points h closed i) := by
  unfold control? control
  cases closed with
  | true =>
    have hpos : (0 : Int) < points.length := by omega
    have hlo := Int.emod_nonneg i hpos.ne'
    have hhi := Int.emod_lt_of_pos i hpos
    exact point?_eq (Int.toNat_of_nonneg hlo).symm (by omega)
  | false =>
    simp only [Bool.false_eq_true, if_false]
    by_cases hneg : i < 0
    · have hfirst : point? points 0 = some (points.get ⟨0, by omega⟩) := point?_eq rfl _
      have hsecond : point? points 1 = some (points.get ⟨1, h⟩) := point?_eq rfl h
      rw [if_pos hneg, if_pos hneg, hfirst, hsecond]
      rfl
    · rw [if_neg hneg, if_neg hneg]
      by_cases hin : i.toNat < points.length
      · rw [if_neg (by omega), dif_pos hin]
        exact point?_eq (Int.toNat_of_nonneg (Int.not_lt.mp hneg)).symm hin
      · have hlast : point? points (points.length - 1) =
            some (points.get ⟨points.length - 1, sub_lt h Nat.one_pos⟩) := point?_eq (by omega) _
        have hinner : point? points (points.length - 2) =
            some (points.get ⟨points.length - 2, sub_lt h Nat.two_pos⟩) := point?_eq (by omega) _
        rw [if_pos (by omega), dif_neg hin, hlast, hinner]
        rfl

/-- The samples of one span. -/
def span (points : List (Vec3 K)) (h : 2 ≤ points.length) (closed : Bool) (per q : Nat) :
    List (Vec3 K) :=
  let place := control points h closed
  (List.range per).map fun (r : Nat) =>
    catmullRom (place ((q : Int) - 1)) (place q) (place ((q : Int) + 1)) (place ((q : Int) + 2))
      ((r : K) / (per : K))

theorem length_span (h : 2 ≤ points.length) (closed : Bool) (per q : Nat) :
    (span points h closed per q).length = per := by
  simp [span]

theorem span?_eq (h : 2 ≤ points.length) (closed : Bool) (per q : Nat) :
    span? points closed per q = some (span points h closed per q) := by
  unfold span?
  rw [control?_eq h, control?_eq h, control?_eq h, control?_eq h]
  rfl

/-- A curve is its spans one after the other, and the end of an open one. -/
theorem sample_of_long (h : 2 ≤ points.length) (closed : Bool) (samplesPerSpan : Nat) :
    sample points closed samplesPerSpan =
      (List.range (spans points closed)).flatMap (span points h closed (max samplesPerSpan 1)) ++
        if closed then [] else [points.get ⟨points.length - 1, sub_lt h Nat.one_pos⟩] :=
  dif_pos h

/-- **No look-up of a control point is out of range.** -/
theorem sample?_eq (points : List (Vec3 K)) (closed : Bool) (samplesPerSpan : Nat) :
    sample? points closed samplesPerSpan = some (sample points closed samplesPerSpan) := by
  unfold sample?
  by_cases hshort : points.length < 2
  · rw [if_pos hshort, sample_of_short hshort]
  · have h : 2 ≤ points.length := Nat.not_lt.mp hshort
    have hparts : (List.range (spans points closed)).mapM
        (span? points closed (max samplesPerSpan 1)) =
          some ((List.range (spans points closed)).map
            (span points h closed (max samplesPerSpan 1))) := by
      rw [funext (span?_eq h closed (max samplesPerSpan 1))]
      exact List.mapM_pure
    have hlast : point? points (points.length - 1) =
        some (points.get ⟨points.length - 1, sub_lt h Nat.one_pos⟩) := point?_eq (by omega) _
    rw [if_neg hshort, sample_of_long h, hparts, hlast]
    cases closed with
    | true => exact congrArg some (List.append_nil _).symm
    | false => rfl

/-! ## 2. The control points around a span -/

/-- The inner of two points mirrored at the outer one. -/
def mirrored (outer inner : Vec3 K) : Vec3 K := outer.scale 2 - inner

/-- The four control points around a span, in the circle of a closed curve. -/
structure InCircle (points : List (Vec3 K)) (q : Nat) (p0 p1 p2 p3 : Vec3 K) : Prop where
  before : points[(q + points.length - 1) % points.length]? = some p0
  start : points[q]? = some p1
  finish : points[(q + 1) % points.length]? = some p2
  after : points[(q + 2) % points.length]? = some p3

/-- The four control points around a span of an open curve, mirrored beyond its ends. -/
structure InRow (points : List (Vec3 K)) (q : Nat) (p0 p1 p2 p3 : Vec3 K) : Prop where
  before : if q = 0 then p0 = mirrored p1 p2 else points[q - 1]? = some p0
  start : points[q]? = some p1
  finish : points[q + 1]? = some p2
  after : if q + 2 = points.length then p3 = mirrored p2 p1 else points[q + 2]? = some p3

/-- The four control points around a span. -/
def Around (points : List (Vec3 K)) (closed : Bool) (q : Nat) (p0 p1 p2 p3 : Vec3 K) : Prop :=
  if closed then InCircle points q p0 p1 p2 p3 else InRow points q p0 p1 p2 p3

/-- In a circle, a position counts modulo the number of points. -/
theorem control_circle (h : 2 ≤ points.length) {i : Int} {k : Nat} (hi : i % points.length = k) :
    points[k]? = some (control points h true i) := by
  rw [← control?_eq h, ← point?_natCast points k, ← hi]
  rfl

section Row

variable (h : 2 ≤ points.length) {i : Int}

theorem control_inside {k : Nat} (hi : i = k) (hk : k < points.length) :
    control points h false i = points.get ⟨k, hk⟩ := by
  subst hi
  simp [control, hk]

theorem control_before (hi : i < 0) :
    control points h false i = mirrored (points.get ⟨0, by omega⟩) (points.get ⟨1, h⟩) := by
  simp [control, hi, mirrored]

theorem control_beyond (hi : points.length ≤ i) :
    control points h false i =
      mirrored (points.get ⟨points.length - 1, sub_lt h Nat.one_pos⟩)
        (points.get ⟨points.length - 2, sub_lt h Nat.two_pos⟩) := by
  have hpos : ¬ i < 0 := by omega
  have hout : ¬ i.toNat < points.length := by omega
  simp [control, hpos, hout, mirrored]

end Row

/-- A span is sampled around the control points that its place in the curve gives it. -/
theorem around_control (h : 2 ≤ points.length) {q : Nat} (hq : q < spans points closed) :
    Around points closed q (control points h closed ((q : Int) - 1)) (control points h closed q)
      (control points h closed ((q : Int) + 1)) (control points h closed ((q : Int) + 2)) := by
  cases closed with
  | true =>
    have hq : q < points.length := hq
    constructor
    case before =>
      refine control_circle h ?_
      have hturn : (q : Int) - 1 = ((q + points.length - 1 : Nat) : Int) - points.length := by omega
      rw [hturn, Int.sub_emod_right, Int.natCast_emod]
    case start => exact control_circle h (Int.emod_eq_of_lt (by omega) (by omega))
    case finish => exact control_circle h (Int.natCast_emod _ _).symm
    case after => exact control_circle h (Int.natCast_emod _ _).symm
  | false =>
    have hq : q < points.length - 1 := hq
    have hat {i : Int} (k : Nat) (hi : i = k) (hk : k < points.length) :
        points[k]? = some (control points h false i) := by
      rw [control_inside h hi hk]
      exact List.getElem?_eq_getElem hk
    have hstart := control_inside h (i := q) (k := q) rfl (by omega)
    have hfinish := control_inside h (i := (q : Int) + 1) (k := q + 1) (by omega) (by omega)
    constructor
    case before =>
      by_cases hfirst : q = 0
      · subst hfirst
        rw [if_pos rfl, hstart, hfinish]
        exact control_before h (by omega)
      · rw [if_neg hfirst]
        exact hat (q - 1) (by omega) (by omega)
    case start => exact hat q rfl (by omega)
    case finish => exact hat (q + 1) (by omega) (by omega)
    case after =>
      by_cases hlast : q + 2 = points.length
      · have hbeyond := control_beyond h (i := (q : Int) + 2) (by omega)
        rw [if_pos hlast, hstart, hfinish, hbeyond]
        simp only [← hlast]
        rfl
      · rw [if_neg hlast]
        exact hat (q + 2) (by omega) (by omega)

/-! ## 3. The samples of a curve -/

/-- Samples of a curve through control points, `per` of them for each span. -/
structure Sampled (points : List (Vec3 K)) (closed : Bool) (per : Nat) (samples : List (Vec3 K)) :
    Prop where
  count : samples.length =
    if closed then points.length * per else (points.length - 1) * per + 1
  /-- An open curve ends with its last control point. -/
  ended : closed = false → samples.getLast? = points.getLast?
  /-- A span is sampled in even steps on the cubic of the control points around it. -/
  cubics : ∀ q < spans points closed, ∀ r < per, ∃ p0 p1 p2 p3,
    Around points closed q p0 p1 p2 p3 ∧
      samples[q * per + r]? = some (catmullRom p0 p1 p2 p3 ((r : K) / (per : K)))

/-- A sample, by its span and its place in the span. -/
theorem getElem?_sample (h : 2 ≤ points.length) {samplesPerSpan q r : Nat}
    (hq : q < spans points closed) (hr : r < max samplesPerSpan 1) :
    (sample points closed samplesPerSpan)[q * max samplesPerSpan 1 + r]? =
      some (catmullRom (control points h closed ((q : Int) - 1)) (control points h closed q)
        (control points h closed ((q : Int) + 1)) (control points h closed ((q : Int) + 2))
        ((r : K) / ((max samplesPerSpan 1 : Nat) : K))) := by
  have hrange : (List.range (spans points closed))[q]? = some q := List.getElem?_range hq
  have hpart := getElem?_flatMap (length_span h closed _) hrange hr
  simp only [span, List.getElem?_map, List.getElem?_range hr, Option.map_some] at hpart
  rw [sample_of_long h, Nat.mul_comm,
    List.getElem?_append_left (List.getElem?_eq_some_iff.mp hpart).1]
  exact hpart

theorem getLast?_sample (h : 2 ≤ points.length) (samplesPerSpan : Nat) :
    (sample points false samplesPerSpan).getLast? = points.getLast? := by
  rw [sample_of_long h, List.getLast?_eq_getElem? (l := points)]
  exact List.getLast?_concat.trans (List.getElem?_eq_getElem (by omega)).symm

theorem sampled_sample (h : 2 ≤ points.length) (closed : Bool) (samplesPerSpan : Nat) :
    Sampled points closed (max samplesPerSpan 1) (sample points closed samplesPerSpan) where
  count := length_sample h closed samplesPerSpan
  ended := by
    rintro rfl
    exact getLast?_sample h samplesPerSpan
  cubics q hq r hr := ⟨_, _, _, _, around_control h hq, getElem?_sample h hq hr⟩

/-! ## 4. Turning a closed curve -/

/-- Parts that come round again after `n` of them, started with the second one. -/
theorem flatMap_range_rotate {α : Type} {f : Nat → List α} {n per : Nat} (hn : 0 < n)
    (hlength : (f 0).length = per) (hround : f n = f 0) :
    (List.range n).flatMap (fun q => f (q + 1)) = ((List.range n).flatMap f).rotate per := by
  obtain ⟨n, rfl⟩ := Nat.exists_eq_succ_of_ne_zero hn.ne'
  calc (List.range (n + 1)).flatMap (fun q => f (q + 1))
      = (List.range n).flatMap (fun q => f (q + 1)) ++ f 0 := by
        rw [List.range_succ, List.flatMap_append, List.flatMap_singleton, ← hround]
    _ = (f 0 ++ (List.range n).flatMap (fun q => f (q + 1))).rotate per := by
        rw [← hlength, List.rotate_append_length_eq]
    _ = ((List.range (n + 1)).flatMap f).rotate per := by
        rw [List.range_succ_eq_map, List.flatMap_cons, List.flatMap_map]

/-- In a turned list of control points every position is one further. -/
theorem control_rotate (h : 2 ≤ points.length) (h' : 2 ≤ (points.rotate 1).length) (i : Int) :
    control (points.rotate 1) h' true i = control points h true (i + 1) := by
  have hlo := Int.emod_nonneg i (b := points.length) (by omega)
  have hhi := Int.emod_lt_of_pos i (b := points.length) (by omega)
  obtain ⟨k, hk⟩ := Int.eq_ofNat_of_zero_le hlo
  have hturned : (points.rotate 1)[k]? = some (control (points.rotate 1) h' true i) :=
    control_circle h' (by rw [List.length_rotate, hk])
  have hnext : points[(k + 1) % points.length]? = some (control points h true (i + 1)) :=
    control_circle h (by rw [← Int.emod_add_emod, hk]; rfl)
  rw [List.getElem?_rotate (by omega), hnext] at hturned
  exact (Option.some.inj hturned).symm

theorem span_rotate (h : 2 ≤ points.length) (h' : 2 ≤ (points.rotate 1).length) (per q : Nat) :
    span (points.rotate 1) h' true per q = span points h true per (q + 1) := by
  have hbefore : (q : Int) - 1 + 1 = ((q + 1 : Nat) : Int) - 1 := by omega
  have hafter : (q : Int) + 2 + 1 = ((q + 1 : Nat) : Int) + 2 := by omega
  simp only [span, control_rotate h h', hbefore, hafter]
  rfl

theorem control_congr (h : 2 ≤ points.length) {i j : Int}
    (hij : i % points.length = j % points.length) :
    control points h true i = control points h true j := by
  have hpoint : control? points true i = control? points true j :=
    congrArg (point? points) hij
  rw [control?_eq h, control?_eq h] at hpoint
  exact Option.some.inj hpoint

/-- After the last span of a closed curve comes the first. -/
theorem span_wrap (h : 2 ≤ points.length) (per : Nat) :
    span points h true per points.length = span points h true per 0 := by
  have hturn (i : Int) :
      control points h true (points.length + i) = control points h true i :=
    control_congr h (Int.add_emod_left _ _)
  have hhere := hturn 0
  rw [add_zero] at hhere
  simp only [span, sub_eq_add_neg, hturn, hhere, Nat.cast_zero, zero_add]

/-- **Turning the control points of a closed curve turns its samples by one span.** -/
theorem sample_rotate (points : List (Vec3 K)) (samplesPerSpan : Nat) :
    sample (points.rotate 1) true samplesPerSpan =
      (sample points true samplesPerSpan).rotate (max samplesPerSpan 1) := by
  by_cases hshort : points.length < 2
  · have hshort' : (points.rotate 1).length < 2 := by rwa [List.length_rotate]
    rw [sample_of_short hshort, sample_of_short hshort']
    match points with
    | [] => simp
    | [p] => simp
    | _ :: _ :: _ => simp at hshort
  · have h : 2 ≤ points.length := Nat.not_lt.mp hshort
    have h' : 2 ≤ (points.rotate 1).length := by rwa [List.length_rotate]
    rw [sample_of_long h, sample_of_long h', funext (span_rotate h h' _)]
    simp only [spans, if_true, List.append_nil, List.length_rotate]
    exact flatMap_range_rotate (by omega) (length_span h true _ 0) (span_wrap h _)

/-! ## 5. Sampling without rounding -/

/-! ### The cubic of a span -/

/-- One coordinate of the cubic of four control points. -/
noncomputable def cubic (a b c d t : ℝ) : ℝ :=
  (b * 2 + (c - a) * t + (a * 2 - b * 5 + c * 4 - d) * (t * t) +
    (b * 3 - a - c * 3 + d) * (t * t * t)) * 0.5

theorem cubic_zero (a b c d : ℝ) : cubic a b c d 0 = b := by
  unfold cubic
  ring

theorem cubic_one (a b c d : ℝ) : cubic a b c d 1 = c := by
  unfold cubic
  ring

theorem hasDerivAt_cubic (a b c d t : ℝ) : HasDerivAt (cubic a b c d)
    ((c - a + (a * 2 - b * 5 + c * 4 - d) * (2 * t) + (b * 3 - a - c * 3 + d) * (3 * t ^ 2)) * 0.5)
    t := by
  have hid := hasDerivAt_id' t
  have hsquare : HasDerivAt (fun t => t * t) (2 * t) t := (hid.mul hid).congr_deriv (by ring)
  have hcube : HasDerivAt (fun t => t * t * t) (3 * t ^ 2) t :=
    (hsquare.mul hid).congr_deriv (by ring)
  have hlinear := (hid.const_mul (c - a)).const_add (b * 2)
  have hsum := (hlinear.add (hsquare.const_mul (a * 2 - b * 5 + c * 4 - d))).add
    (hcube.const_mul (b * 3 - a - c * 3 + d))
  exact (hsum.mul_const 0.5).congr_deriv (by ring)

section Span

variable (p0 p1 p2 p3 p4 : Vec3 ℝ) (i : Axis)

theorem along_catmullRom (t : ℝ) : (catmullRom p0 p1 p2 p3 t).along i =
    cubic (p0.along i) (p1.along i) (p2.along i) (p3.along i) t := by
  cases i <;> rfl

/-- A span starts at the second of its points. -/
theorem catmullRom_zero : catmullRom p0 p1 p2 p3 0 = p1 :=
  Vec3.ext_along fun i => by rw [along_catmullRom, cubic_zero]

/-- A span ends at the third of its points. -/
theorem catmullRom_one : catmullRom p0 p1 p2 p3 1 = p2 :=
  Vec3.ext_along fun i => by rw [along_catmullRom, cubic_one]

/-- A span starts in the direction from the point before it to its end. -/
theorem slope_zero : HasDerivAt (fun t => (catmullRom p0 p1 p2 p3 t).along i)
    ((p2.along i - p0.along i) / 2) 0 := by
  simp only [along_catmullRom]
  exact (hasDerivAt_cubic _ _ _ _ 0).congr_deriv (by ring)

/-- A span ends in the direction from its start to the point after it. -/
theorem slope_one : HasDerivAt (fun t => (catmullRom p0 p1 p2 p3 t).along i)
    ((p3.along i - p1.along i) / 2) 1 := by
  simp only [along_catmullRom]
  exact (hasDerivAt_cubic _ _ _ _ 1).congr_deriv (by ring)

/-- Where one span ends the next one starts, in the same direction and at the same speed. -/
theorem spans_meet : catmullRom p0 p1 p2 p3 1 = catmullRom p1 p2 p3 p4 0 ∧
    ∀ i, ∃ slope, HasDerivAt (fun t => (catmullRom p0 p1 p2 p3 t).along i) slope 1 ∧
      HasDerivAt (fun t => (catmullRom p1 p2 p3 p4 t).along i) slope 0 := by
  rw [catmullRom_one, catmullRom_zero]
  exact ⟨rfl, fun i => ⟨_, slope_one p0 p1 p2 p3 i, slope_zero p1 p2 p3 p4 i⟩⟩

end Span

/-- The first sample of a span is the control point it starts from, and the one after the last span
    of an open curve is its end. -/
theorem sample_at_control {points : List (Vec3 ℝ)} (h : 2 ≤ points.length) (closed : Bool)
    (samplesPerSpan : Nat) {q : Nat} (hq : q < points.length) :
    (sample points closed samplesPerSpan)[q * max samplesPerSpan 1]? = points[q]? := by
  have hper : 0 < max samplesPerSpan 1 := Nat.le_max_right _ _
  by_cases hspan : q < spans points closed
  · obtain ⟨p0, p1, p2, p3, haround, hsample⟩ :=
      (sampled_sample h closed samplesPerSpan).cubics q hspan 0 hper
    have hstart : points[q]? = some p1 := by
      cases closed with
      | true => exact haround.start
      | false => exact haround.start
    rw [Nat.cast_zero, zero_div, catmullRom_zero] at hsample
    exact hsample.trans hstart.symm
  · cases closed with
    | true => exact absurd hq hspan
    | false =>
      have hlast : q = points.length - 1 := by
        have : ¬ q < points.length - 1 := hspan
        omega
      have hcount := length_sample h false samplesPerSpan
      have hended := getLast?_sample h samplesPerSpan
      rw [List.getLast?_eq_getElem?, List.getLast?_eq_getElem?, hcount] at hended
      subst hlast
      exact hended

/-- **A curve is sampled span by span around its control points.**  No look-up is out of range, fewer
    than two points are returned as they are, and otherwise there are as many samples for each span,
    on the cubic of the control points around it, and at the end of an open curve its last control
    point.  Turning a closed curve by a control point turns its samples by a span, whatever the
    arithmetic; without rounding, each span starts at its control point. -/
theorem sampled_by_spans :
    (∀ (K : Type) [Scalar K] (points : List (Vec3 K)) (closed : Bool) (samplesPerSpan : Nat),
      sample? points closed samplesPerSpan = some (sample points closed samplesPerSpan) ∧
      (points.length < 2 → sample points closed samplesPerSpan = points) ∧
      (2 ≤ points.length → Sampled points closed (max samplesPerSpan 1)
        (sample points closed samplesPerSpan)) ∧
      sample (points.rotate 1) true samplesPerSpan =
        (sample points true samplesPerSpan).rotate (max samplesPerSpan 1)) ∧
    ∀ (points : List (Vec3 ℝ)) (closed : Bool) (samplesPerSpan q : Nat), 2 ≤ points.length →
      q < points.length →
      (sample points closed samplesPerSpan)[q * max samplesPerSpan 1]? = points[q]? :=
  ⟨fun _ _ points closed samplesPerSpan => ⟨sample?_eq points closed samplesPerSpan,
      fun hshort => sample_of_short hshort closed samplesPerSpan,
      fun h => sampled_sample h closed samplesPerSpan, sample_rotate points samplesPerSpan⟩,
    fun _ closed samplesPerSpan _ h hq => sample_at_control h closed samplesPerSpan hq⟩

/-- Two points as a closed curve, where each of them is the neighbour of the other on both sides, and
    as an open curve without a count of samples. -/
theorem sampled_by_spans_there_and_back :
    (∃ there back : Vec3 Float32, 2 ≤ [there, back].length ∧
      (sample [there, back] true 4).length = 8 ∧
      (sample [there, back] true 4)[1 * 4 + 3]? =
        some (catmullRom there back there back ((3 : Nat) / (4 : Nat)))) ∧
    ∃ there back : Vec3 ℝ, 2 ≤ [there, back].length ∧ 1 < [there, back].length ∧
      (sample [there, back] false 0)[1 * 1]? = some back := by
  have htwo {K : Type} (p q : Vec3 K) : 2 ≤ [p, q].length := le_refl 2
  constructor
  · let there : Vec3 Float32 := Vec3.zero
    let back : Vec3 Float32 := Vec3.unitX
    obtain ⟨-, -, hlong, -⟩ := sampled_by_spans.1 Float32 [there, back] true 4
    have hsampled := hlong (htwo there back)
    obtain ⟨p0, p1, p2, p3, haround, hsample⟩ := hsampled.cubics 1 (by decide) 3 (by decide)
    obtain ⟨hbefore, hstart, hfinish, hafter⟩ : InCircle [there, back] 1 p0 p1 p2 p3 := haround
    obtain rfl : there = p0 := by simpa using hbefore
    obtain rfl : back = p1 := by simpa using hstart
    obtain rfl : there = p2 := by simpa using hfinish
    obtain rfl : back = p3 := by simpa using hafter
    exact ⟨there, back, htwo there back, hsampled.count, hsample⟩
  · let there : Vec3 ℝ := ⟨0, 0, 0⟩
    let back : Vec3 ℝ := ⟨1, 0, 0⟩
    exact ⟨there, back, htwo there back, Nat.one_lt_two,
      sampled_by_spans.2 [there, back] false 0 1 (htwo there back) Nat.one_lt_two⟩

end SceneAssembly.Curve
