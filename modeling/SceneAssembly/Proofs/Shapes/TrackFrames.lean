/-
  SceneAssembly/Proofs/Shapes/TrackFrames.lean
  ============================================
  **Which step gives a sample its frame.**

  A sample has the frame of the step to the next one, if that step has a frame.
  It has none where the track ends, where it stands still and where it runs
  straight up or down (`IsDegenerate`); the frame before is then kept.  Through
  any number of degenerate steps this carries over the frame of the last step
  that was not degenerate (`isCarried_carried`).

  A sample that is repeated adds a step from a point to itself.  Such a step is
  degenerate in single precision too, where it is zero or not a number
  (`Float32.unit?_sub_self`), so all other samples keep their frames.
-/
import Mathlib.Order.Bounds.Defs
import SceneAssembly.Proofs.Comparison
import SceneAssembly.Proofs.Shapes.Fitting

namespace SceneAssembly

namespace Track

variable {K : Type} [Scalar K] {samples : List (Vec3 K)} {closed : Bool} {i : Nat}

/-! ## 1. Steps and their frames -/

/-- The sample after the one at `i`; after the last one of a closed track comes the first. -/
def next? (samples : List (Vec3 K)) (closed : Bool) (i : Nat) : Option (Vec3 K) :=
  if closed then samples[(i + 1) % samples.length]? else samples[i + 1]?

/-- The step from the sample at `i` to the next one. -/
def step? (samples : List (Vec3 K)) (closed : Bool) (i : Nat) : Option (Vec3 K) := do
  return (← next? samples closed i) - (← samples[i]?)

theorem step?_eq (hi : i < samples.length) :
    step? samples closed i = (next? samples closed i).map (· - samples[i]) := by
  unfold step?
  rw [List.getElem?_eq_getElem hi]
  cases next? samples closed i <;> rfl

/-- Only the last sample of an open track has no step. -/
theorem step?_eq_none_iff (hi : i < samples.length) :
    step? samples closed i = none ↔ closed = false ∧ i + 1 = samples.length := by
  rw [step?_eq hi, Option.map_eq_none_iff]
  unfold next?
  cases closed with
  | true =>
    have hround : (i + 1) % samples.length < samples.length := Nat.mod_lt _ (by omega)
    simp [hround]
  | false =>
    simp only [Bool.false_eq_true, if_false, List.getElem?_eq_none_iff, true_and]
    omega

/-- The step at a sample is found among the steps of the track. -/
theorem getElem?_steps (hi : i < samples.length) :
    (steps samples closed)[i]? = some (step? samples closed i) := by
  have hnext : (samples.tail.map some ++ [if closed then samples.head? else none])[i]? =
      some (next? samples closed i) := by
    unfold next?
    by_cases hlast : i + 1 < samples.length
    · have hinside : i < (samples.tail.map some).length := by
        rw [List.length_map, List.length_tail]
        omega
      rw [List.getElem?_append_left hinside, Nat.mod_eq_of_lt hlast]
      simp [hlast]
    · have hlast : samples.length = i + 1 := by omega
      rw [List.getElem?_append_right (by simp [hlast])]
      simp [hlast, List.head?_eq_getElem?]
  unfold steps
  rw [List.getElem?_zipWith, List.getElem?_eq_getElem hi, hnext, step?_eq hi]

/-- A frame is that of a step: its normal is level, across the step, and its binormal is across
    both. -/
def Frame.IsOf (f : Frame K) (step : Vec3 K) : Prop :=
  ∃ tangent, step.unit? = some tangent ∧ (Vec3.unitY.cross tangent).unit? = some f.normal ∧
    f.binormal = (tangent.cross f.normal).normalized

theorem Frame.isOf_iff {f : Frame K} {step : Vec3 K} :
    f.IsOf step ↔ Frame.ofStep? step = some f := by
  simp only [Frame.ofStep?, Option.bind_eq_bind, Option.bind_eq_some_iff, Option.pure_def,
    Option.some.injEq]
  constructor
  · rintro ⟨tangent, htangent, hnormal, hbinormal⟩
    exact ⟨tangent, htangent, f.normal, hnormal, by rw [← hbinormal]⟩
  · rintro ⟨tangent, htangent, normal, hnormal, rfl⟩
    exact ⟨tangent, htangent, hnormal, rfl⟩

/-- The step at `i` has no frame, for one of three reasons. -/
inductive IsDegenerate (samples : List (Vec3 K)) (closed : Bool) (i : Nat) : Prop
  /-- An open track ends with its last sample. -/
  | ended (hopen : closed = false) (hlast : i + 1 = samples.length)
  /-- The track stands still, as far as the step can be normalised. -/
  | still {step : Vec3 K} (hstep : step? samples closed i = some step) (hstill : step.unit? = none)
  /-- The track runs straight up or down. -/
  | vertical {step tangent : Vec3 K} (hstep : step? samples closed i = some step)
    (htangent : step.unit? = some tangent)
    (hvertical : (Vec3.unitY.cross tangent).unit? = none)

theorem isDegenerate_iff (hi : i < samples.length) :
    IsDegenerate samples closed i ↔ (step? samples closed i).bind Frame.ofStep? = none := by
  constructor
  · intro h
    cases h with
    | ended hopen hlast => rw [(step?_eq_none_iff hi).mpr ⟨hopen, hlast⟩]; rfl
    | still hstep hstill => simp [hstep, Frame.ofStep?, hstill]
    | vertical hstep htangent hvertical => simp [hstep, Frame.ofStep?, htangent, hvertical]
  · intro h
    cases hstep : step? samples closed i with
    | none =>
      obtain ⟨hopen, hlast⟩ := (step?_eq_none_iff hi).mp hstep
      exact .ended hopen hlast
    | some step =>
      rw [hstep, Option.bind_some] at h
      cases htangent : step.unit? with
      | none => exact .still hstep htangent
      | some tangent =>
        refine .vertical hstep htangent (Option.eq_none_iff_forall_ne_some.mpr ?_)
        simpa [Frame.ofStep?, htangent] using h

/-! ## 2. Carrying a frame over -/

/-- The frame after a step: its own, or else the one before. -/
def Frame.after (previous : Frame K) (step : Option (Vec3 K)) : Frame K :=
  (step.bind Frame.ofStep?).getD previous

theorem framesFrom_cons (previous : Frame K) (step : Option (Vec3 K))
    (rest : List (Option (Vec3 K))) :
    framesFrom previous (step :: rest) =
      previous.after step :: framesFrom (previous.after step) rest := rfl

theorem framesFrom_append (previous : Frame K) (front back : List (Option (Vec3 K))) :
    framesFrom previous (front ++ back) =
      framesFrom previous front ++ framesFrom (front.foldl Frame.after previous) back := by
  induction front generalizing previous with
  | nil => rfl
  | cons step front ih => exact congrArg _ (ih _)

theorem getElem?_framesFrom (previous : Frame K) (steps : List (Option (Vec3 K))) (i : Nat) :
    (framesFrom previous steps)[i]? =
      steps[i]?.map ((steps.take i).foldl Frame.after previous).after := by
  induction steps generalizing previous i with
  | nil => rfl
  | cons step rest ih =>
    cases i with
    | zero => rfl
    | succ i => exact ih _ i

/-- The frame after the first `n` steps. -/
def carried (samples : List (Vec3 K)) (closed : Bool) (n : Nat) : Frame K :=
  ((steps samples closed).take n).foldl Frame.after .start

theorem carried_succ (hi : i < samples.length) :
    carried samples closed (i + 1) =
      (carried samples closed i).after (step? samples closed i) := by
  unfold carried
  rw [List.take_add_one, getElem?_steps hi, List.foldl_append]
  rfl

theorem getElem?_frames (hi : i < samples.length) :
    (frames samples closed)[i]? = some (carried samples closed (i + 1)) := by
  unfold frames
  rw [getElem?_framesFrom, getElem?_steps hi, carried_succ hi]
  rfl

theorem carried_of_isDegenerate (hi : i < samples.length) (h : IsDegenerate samples closed i) :
    carried samples closed (i + 1) = carried samples closed i := by
  rw [carried_succ hi, Frame.after, (isDegenerate_iff hi).mp h]
  rfl

theorem carried_of_not_isDegenerate (hi : i < samples.length)
    (h : ¬ IsDegenerate samples closed i) :
    ∃ step, step? samples closed i = some step ∧ (carried samples closed (i + 1)).IsOf step := by
  obtain ⟨f, hf⟩ := Option.ne_none_iff_exists'.mp ((isDegenerate_iff hi).not.mp h)
  obtain ⟨step, hstep, hof⟩ := Option.bind_eq_some_iff.mp hf
  refine ⟨step, hstep, Frame.isOf_iff.mpr ?_⟩
  rw [carried_succ hi, Frame.after, hf]
  exact hof

/-- A frame is that of the last step up to `i` that is not degenerate, or the one before any step if
    all of these are. -/
def IsCarried (samples : List (Vec3 K)) (closed : Bool) (i : Nat) (f : Frame K) : Prop :=
  (∃ j step, IsGreatest {j | j ≤ i ∧ ¬ IsDegenerate samples closed j} j ∧
      step? samples closed j = some step ∧ f.IsOf step) ∨
    (∀ j ≤ i, IsDegenerate samples closed j) ∧ f = .start

variable {f : Frame K}

theorem isCarried_of_not_isDegenerate (hi : i < samples.length)
    (h : ¬ IsDegenerate samples closed i) :
    IsCarried samples closed i (carried samples closed (i + 1)) := by
  obtain ⟨step, hstep, hof⟩ := carried_of_not_isDegenerate hi h
  exact .inl ⟨i, step, ⟨⟨le_rfl, h⟩, fun _ hj => hj.1⟩, hstep, hof⟩

/-- One more degenerate step carries the frame over. -/
theorem IsCarried.succ (hf : IsCarried samples closed i f)
    (h : IsDegenerate samples closed (i + 1)) : IsCarried samples closed (i + 1) f := by
  have hbefore {j : Nat} (hj : j ≤ i + 1) (hown : ¬ IsDegenerate samples closed j) : j ≤ i := by
    by_contra hlast
    obtain rfl : j = i + 1 := by omega
    exact hown h
  rcases hf with ⟨j, step, hgreatest, hstep, hof⟩ | ⟨hall, hstart⟩
  · refine .inl ⟨j, step, ⟨?_, ?_⟩, hstep, hof⟩
    · exact ⟨Nat.le_succ_of_le hgreatest.1.1, hgreatest.1.2⟩
    · exact fun k hk => hgreatest.2 ⟨hbefore hk.1 hk.2, hk.2⟩
  · refine .inr ⟨fun j hj => ?_, hstart⟩
    by_contra hown
    exact hown (hall j (hbefore hj hown))

/-- **A sample has the frame of the last step up to its own that is not degenerate.** -/
theorem isCarried_carried (hi : i < samples.length) :
    IsCarried samples closed i (carried samples closed (i + 1)) := by
  induction i with
  | zero =>
    by_cases h : IsDegenerate samples closed 0
    · rw [carried_of_isDegenerate hi h]
      refine .inr ⟨fun j hj => ?_, rfl⟩
      rwa [Nat.le_zero.mp hj]
    · exact isCarried_of_not_isDegenerate hi h
  | succ i ih =>
    by_cases h : IsDegenerate samples closed (i + 1)
    · rw [carried_of_isDegenerate hi h]
      exact (ih (Nat.lt_of_succ_lt hi)).succ h
    · exact isCarried_of_not_isDegenerate hi h

/-- After a degenerate step comes the frame of the sample before. -/
theorem getElem?_frames_of_isDegenerate (hi : i + 1 < samples.length)
    (h : IsDegenerate samples closed (i + 1)) :
    (frames samples closed)[i + 1]? = (frames samples closed)[i]? := by
  rw [getElem?_frames hi, getElem?_frames (Nat.lt_of_succ_lt hi), carried_of_isDegenerate hi h]

/-! ## 3. Repeating a sample -/

/-- The steps of a row of samples that leads on to `next`. -/
def stepsTo (next : Option (Vec3 K)) (row : List (Vec3 K)) : List (Option (Vec3 K)) :=
  List.zipWith (fun here next => next.map (· - here)) row (row.tail.map some ++ [next])

theorem steps_eq (samples : List (Vec3 K)) (closed : Bool) :
    steps samples closed = stepsTo (if closed then samples.head? else none) samples := rfl

theorem stepsTo_cons (next : Option (Vec3 K)) (here : Vec3 K) (row : List (Vec3 K)) :
    stepsTo next (here :: row) = ((row.head?.or next).map (· - here)) :: stepsTo next row := by
  cases row <;> rfl

theorem length_stepsTo (next : Option (Vec3 K)) (row : List (Vec3 K)) :
    (stepsTo next row).length = row.length := by
  induction row with
  | nil => rfl
  | cons here row ih => rw [stepsTo_cons, List.length_cons, List.length_cons, ih]

/-- A row is cut at a sample, to which its first part leads. -/
theorem stepsTo_append (next : Option (Vec3 K)) (front back : List (Vec3 K)) (point : Vec3 K) :
    stepsTo next (front ++ point :: back) =
      stepsTo (some point) front ++ stepsTo next (point :: back) := by
  induction front with
  | nil => rfl
  | cons here front ih =>
    rw [List.cons_append, stepsTo_cons, stepsTo_cons, ih, List.head?_append]
    cases front <;> rfl

/-- The frame that is reached at a sample, by the steps that lead to it. -/
def reached (front : List (Vec3 K)) (point : Vec3 K) : Frame K :=
  (stepsTo (some point) front).foldl Frame.after .start

/-- What lies before a sample gives those after it no more than the frame that is reached. -/
theorem frames_append (front back : List (Vec3 K)) (point : Vec3 K) (closed : Bool) :
    frames (front ++ point :: back) closed =
      framesFrom .start (stepsTo (some point) front) ++
        framesFrom (reached front point)
          (stepsTo (if closed then front.head?.or (some point) else none) (point :: back)) := by
  have hhead : (front ++ point :: back).head? = front.head?.or (some point) := List.head?_append
  rw [frames, steps_eq, hhead, stepsTo_append, framesFrom_append]
  rfl

/-- Repeating a sample adds one frame, if the step from it to itself has none. -/
theorem eraseIdx_frames_repeated {point : Vec3 K} (h : (point - point).unit? = none)
    (front back : List (Vec3 K)) (closed : Bool) :
    (frames (front ++ point :: point :: back) closed).eraseIdx front.length =
      frames (front ++ point :: back) closed := by
  have hkept : (reached front point).after (some (point - point)) = reached front point := by
    simp [Frame.after, Frame.ofStep?, h]
  have hstep (next : Option (Vec3 K)) : stepsTo next (point :: point :: back) =
      some (point - point) :: stepsTo next (point :: back) := stepsTo_cons next point _
  have hlength : (framesFrom .start (stepsTo (some point) front)).length = front.length := by
    rw [length_framesFrom, length_stepsTo]
  rw [frames_append, frames_append, hstep, framesFrom_cons, hkept,
    List.eraseIdx_append_of_length_le hlength.le, hlength, Nat.sub_self, List.eraseIdx_cons_zero]

end Track

/-! ## 4. Standing still in single precision -/

namespace Float32

open Float.Model

theorem unpacked_sub_self (u : UnpackedFloat) :
    u.sub Format.binary32 u = .zero .positive ∨ u.sub Format.binary32 u = .notANumber := by
  cases u with
  | notANumber => exact .inr rfl
  | infinity s => cases s <;> exact .inr rfl
  | zero s => cases s <;> exact .inl rfl
  | finite s m e hm =>
    left
    let digits : Int := s.apply (UnpackedFloat.decreaseExponent m e (min e e)).1
    calc (UnpackedFloat.finite s m e hm).sub Format.binary32 (.finite s m e hm)
        = UnpackedFloat.normalize Format.binary32 (digits - digits) (min e e) .positive := rfl
      _ = .zero .positive := by rw [Int.sub_self]; rfl

/-- A float less itself is zero, or no number if it is infinite or no number itself. -/
theorem sub_self_cases (x : Float32) : x - x = 0 ∨ x - x = 0 / 0 := by
  have hpack {u : UnpackedFloat} (h : x.toModel.unpack.sub Format.binary32 x.toModel.unpack = u) :
      x - x = ⟨Float32.Model.pack u⟩ := congrArg (fun u => (⟨Float32.Model.pack u⟩ : Float32)) h
  exact (unpacked_sub_self x.toModel.unpack).imp hpack hpack

/-- **Standing still has no direction.** -/
theorem unit?_sub_self (v : Vec3 Float32) : (v - v).unit? = none := by
  have hsub : v - v = ⟨v.x - v.x, v.y - v.y, v.z - v.z⟩ := rfl
  rw [hsub]
  -- There are only eight such differences.
  rcases sub_self_cases v.x with hx | hx <;> rcases sub_self_cases v.y with hy | hy <;>
    rcases sub_self_cases v.z with hz | hz <;> rw [hx, hy, hz] <;> decide +kernel

end Float32

namespace Track

/-- **Degenerate steps carry the frame over.**  A track has one frame per sample, in any arithmetic:
    that of the last step up to the sample which is not degenerate, or the one before any step if
    all of these are.  So an open track ends with the frame of its last sample but one.  In single
    precision a sample may be repeated in its place: those in front of it keep their frames, and so
    do those behind it, beginning with its second copy. -/
theorem frames_carry_over :
    (∀ (K : Type) [Scalar K] (samples : List (Vec3 K)) (closed : Bool),
      (frames samples closed).length = samples.length ∧
      (∀ i < samples.length, ∃ f, (frames samples closed)[i]? = some f ∧
        IsCarried samples closed i f) ∧
      (closed = false → ∀ i, i + 2 = samples.length →
        (frames samples closed)[i + 1]? = (frames samples closed)[i]?)) ∧
    ∀ (front back : List (Vec3 Float32)) (point : Vec3 Float32) (closed : Bool),
      let plain := frames (front ++ point :: back) closed
      let repeated := frames (front ++ point :: point :: back) closed
      (∀ i < front.length, repeated[i]? = plain[i]?) ∧
      ∀ i, front.length ≤ i → repeated[i + 1]? = plain[i]? := by
  refine ⟨fun K _ samples closed => ⟨length_frames samples closed, fun i hi => ?_, ?_⟩, ?_⟩
  · exact ⟨_, getElem?_frames hi, isCarried_carried hi⟩
  · intro hopen i hi
    exact getElem?_frames_of_isDegenerate (by omega) (.ended hopen hi)
  · intro front back point closed plain repeated
    have herase : plain = repeated.eraseIdx front.length :=
      (eraseIdx_frames_repeated (Float32.unit?_sub_self point) front back closed).symm
    constructor
    · intro i hi
      rw [herase, List.getElem?_eraseIdx, if_pos hi]
    · intro i hi
      rw [herase, List.getElem?_eraseIdx, if_neg (Nat.not_lt.mpr hi)]

/-- A track that runs level, then straight up and ends there.  The frame of its one level step is
    carried to its end, also when the corner is repeated. -/
theorem frames_carry_over_up_the_wall :
    ∃ (foot corner top : Vec3 Float32) (f : Frame Float32), f.IsOf (corner - foot) ∧
      2 < [foot, corner, top].length ∧ 1 + 2 = [foot, corner, top].length ∧
      (frames [foot, corner, top] false)[2]? = some f ∧
      (frames [foot, corner, top] false)[1]? = some f ∧
      0 < [foot].length ∧ [foot].length ≤ 2 ∧
      (frames [foot, corner, corner, top] false)[0]? = (frames [foot, corner, top] false)[0]? ∧
      (frames [foot, corner, corner, top] false)[3]? = some f := by
  let foot : Vec3 Float32 := ⟨0, 0, 0⟩
  let corner : Vec3 Float32 := ⟨1, 0, 0⟩
  let top : Vec3 Float32 := ⟨1, 1, 0⟩
  have hend : 2 < [foot, corner, top].length := Nat.lt_succ_self 2
  have hfront : 0 < [foot].length := Nat.one_pos
  have hback : [foot].length ≤ 2 := one_le_two
  obtain ⟨-, hcarried, hended⟩ := frames_carry_over.1 Float32 [foot, corner, top] false
  obtain ⟨hsame, hlater⟩ := frames_carry_over.2 [foot] [top] corner false
  have hlast := hended rfl 1 rfl
  have hlevel : ¬ IsDegenerate [foot, corner, top] false 0 := by
    rw [isDegenerate_iff (Nat.zero_lt_of_lt hend)]
    decide +kernel
  have hwall : IsDegenerate [foot, corner, top] false 1 := by
    rw [isDegenerate_iff (Nat.lt_of_succ_lt hend)]
    decide +kernel
  have htop : IsDegenerate [foot, corner, top] false 2 := .ended rfl rfl
  obtain ⟨f, hf, hof⟩ := hcarried 2 hend
  have hfoot : f.IsOf (corner - foot) := by
    rcases hof with ⟨j, step, ⟨⟨hj, hown⟩, -⟩, hstep, hof⟩ | ⟨hall, -⟩
    · match j with
      | 0 =>
        obtain rfl : corner - foot = step := Option.some.inj hstep
        exact hof
      | 1 => exact absurd hwall hown
      | 2 => exact absurd htop hown
    · exact absurd (hall 0 (Nat.zero_le 2)) hlevel
  exact ⟨foot, corner, top, f, hfoot, hend, rfl, hf, hlast.symm.trans hf, hfront, hback,
    hsame 0 hfront, (hlater 2 hback).trans hf⟩

end Track

end SceneAssembly
