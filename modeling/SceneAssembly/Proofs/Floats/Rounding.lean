/-
  SceneAssembly/Proofs/Floats/Rounding.lean
  =========================================
  **Rounding to single precision.**

  A positive number is rounded on a grid: the multiples of a power of two, which
  leaves the number 24 binary digits, or fewer at the least exponent.  It goes to
  the nearest multiple, and to the even one of two that are equally near
  (`roundPositive`).  A power of two lies between numbers of different grids, so
  rounding keeps the order (`roundReal_mono`).  This is what becomes of a mantissa
  with too many digits: the digits shifted out leave a half and a rest behind,
  which tell on which side of the middle the number was (`Tells`).
-/
import Mathlib
import SceneAssembly.Proofs.Comparison

namespace SceneAssembly

namespace Float32

open Float.Model Float.Model.UnpackedFloat

/-! ## 1. Rounding to an integer -/

/-- The nearest integer, the even one of two that are equally near. -/
noncomputable def nearestEven (x : ℝ) : ℤ :=
  if Int.fract x < 1 / 2 then ⌊x⌋
  else if 1 / 2 < Int.fract x then ⌊x⌋ + 1
  else ⌊x⌋ + ⌊x⌋ % 2

theorem floor_le_nearestEven (x : ℝ) : ⌊x⌋ ≤ nearestEven x := by
  unfold nearestEven
  split_ifs <;> omega

theorem nearestEven_le_floor_add_one (x : ℝ) : nearestEven x ≤ ⌊x⌋ + 1 := by
  unfold nearestEven
  split_ifs <;> omega

theorem nearestEven_mono : Monotone nearestEven := by
  intro x y hxy
  rcases (Int.floor_mono hxy).lt_or_eq with hlt | heq
  · have hx := nearestEven_le_floor_add_one x
    have hy := floor_le_nearestEven y
    omega
  · -- Between two integers the nearer end is passed on to what lies above.
    have hfract : Int.fract x ≤ Int.fract y := by
      rw [Int.fract, Int.fract, heq]
      linarith
    unfold nearestEven
    rw [heq]
    split_ifs <;> first | omega | linarith

theorem nearestEven_natCast (n : ℕ) : nearestEven n = n := by
  simp [nearestEven]

theorem nearestEven_le {x : ℝ} {n : ℕ} (h : x ≤ n) : nearestEven x ≤ n :=
  (nearestEven_mono h).trans_eq (nearestEven_natCast n)

theorem le_nearestEven {x : ℝ} {n : ℕ} (h : (n : ℝ) ≤ x) : (n : ℤ) ≤ nearestEven x :=
  (nearestEven_natCast n).symm.trans_le (nearestEven_mono h)

/-! ## 2. Rounding to 24 binary digits -/

/-- The exponent of the grid on which a positive number is rounded. -/
noncomputable def gridExponent (x : ℝ) : ℤ := max (Int.log 2 x - 23) (-149)

/-- The least number that is out of range. -/
noncomputable def limit : ℝ := 2 ^ 128

/-- How many steps of its grid a positive number is rounded to. -/
noncomputable def gridSteps (x : ℝ) : ℤ := nearestEven (x / 2 ^ gridExponent x)

noncomputable def roundPositive (x : ℝ) : ℝ := gridSteps x * 2 ^ gridExponent x

theorem two_zpow_pos (e : ℤ) : (0 : ℝ) < 2 ^ e := zpow_pos two_pos e

theorem two_zpow_add (e f : ℤ) : (2 : ℝ) ^ (e + f) = 2 ^ e * 2 ^ f := zpow_add₀ two_ne_zero e f

theorem roundPositive_zero : roundPositive 0 = 0 := by
  rw [roundPositive, gridSteps, zero_div, ← Nat.cast_zero, nearestEven_natCast]
  simp

theorem roundPositive_nonneg {x : ℝ} (hx : 0 ≤ x) : 0 ≤ roundPositive x := by
  have h : ((0 : ℕ) : ℝ) ≤ x / 2 ^ gridExponent x := by
    rw [Nat.cast_zero]
    exact div_nonneg hx (two_zpow_pos _).le
  exact mul_nonneg (by exact_mod_cast le_nearestEven h) (two_zpow_pos _).le

theorem gridSteps_le (x : ℝ) : gridSteps x ≤ 2 ^ 24 := by
  suffices h : x / 2 ^ gridExponent x ≤ (2 ^ 24 : ℕ) by exact_mod_cast nearestEven_le h
  rw [div_le_iff₀ (two_zpow_pos _)]
  calc x ≤ 2 ^ (Int.log 2 x + 1) := by exact_mod_cast (Int.lt_zpow_succ_log_self one_lt_two x).le
    _ ≤ 2 ^ (24 + gridExponent x) := by
      refine zpow_le_zpow_right₀ one_le_two ?_
      rw [gridExponent]
      omega
    _ = (2 ^ 24 : ℕ) * 2 ^ gridExponent x := by rw [two_zpow_add]; norm_cast

/-- Only at the least exponent there are fewer than 24 digits. -/
theorem le_gridSteps {x : ℝ} (hx : 0 < x) (h : -149 < gridExponent x) : 2 ^ 23 ≤ gridSteps x := by
  suffices h : (2 ^ 23 : ℕ) ≤ x / 2 ^ gridExponent x by exact_mod_cast le_nearestEven h
  rw [le_div_iff₀ (two_zpow_pos _)]
  calc (2 ^ 23 : ℕ) * (2 : ℝ) ^ gridExponent x = 2 ^ (23 + gridExponent x) := by
        rw [two_zpow_add]; norm_cast
    _ = 2 ^ Int.log 2 x := by
      congr 1
      rw [gridExponent] at h ⊢
      omega
    _ ≤ x := by exact_mod_cast Int.zpow_log_le_self one_lt_two hx

theorem roundPositive_mono {x y : ℝ} (hx : 0 < x) (hxy : x ≤ y) :
    roundPositive x ≤ roundPositive y := by
  have hlog := Int.log_mono_right (b := 2) hx hxy
  have hgrid : gridExponent x ≤ gridExponent y := by
    unfold gridExponent
    omega
  rcases hgrid.lt_or_eq with hlt | heq
  · -- On a coarser grid there is a power of two between the two numbers.
    have hlow : -149 < gridExponent y := lt_of_le_of_lt (le_max_right _ _) hlt
    have hx' := gridSteps_le x
    have hy' := le_gridSteps (hx.trans_le hxy) hlow
    calc roundPositive x ≤ 2 ^ 24 * 2 ^ gridExponent x :=
          mul_le_mul_of_nonneg_right (by exact_mod_cast hx') (two_zpow_pos _).le
      _ = 2 ^ 23 * 2 ^ (gridExponent x + 1) := by rw [two_zpow_add]; ring
      _ ≤ 2 ^ 23 * 2 ^ gridExponent y :=
          mul_le_mul_of_nonneg_left (zpow_le_zpow_right₀ one_le_two hlt) (by positivity)
      _ ≤ roundPositive y :=
          mul_le_mul_of_nonneg_right (by exact_mod_cast hy') (two_zpow_pos _).le
  · have hdiv := div_le_div_of_nonneg_right hxy (two_zpow_pos (gridExponent y)).le
    unfold roundPositive gridSteps
    rw [heq]
    exact mul_le_mul_of_nonneg_right (by exact_mod_cast nearestEven_mono hdiv) (two_zpow_pos _).le

/-- Rounding of any real: the sign is put aside. -/
noncomputable def roundReal (x : ℝ) : ℝ := if x < 0 then -roundPositive (-x) else roundPositive x

theorem roundReal_mono : Monotone roundReal := by
  intro x y hxy
  unfold roundReal
  split_ifs with hx hy hy
  · exact neg_le_neg (roundPositive_mono (neg_pos.mpr hy) (neg_le_neg hxy))
  · exact (neg_nonpos.mpr (roundPositive_nonneg (neg_pos.mpr hx).le)).trans
      (roundPositive_nonneg (not_lt.mp hy))
  · exact absurd (hxy.trans_lt hy) hx
  · rcases (not_lt.mp hx).lt_or_eq with hpos | rfl
    · exact roundPositive_mono hpos hxy
    · rw [roundPositive_zero]
      exact roundPositive_nonneg hxy

/-! ## 3. Mantissas and what is left of them -/

/-- An accuracy is true of a number that a mantissa stands for. -/
def Tells (x : ℝ) (m : ℕ) : Accuracy → Prop
  | .exact => x = m
  | .inexact .lt => (m : ℝ) < x ∧ x < m + 1 / 2
  | .inexact .eq => x = m + 1 / 2
  | .inexact .gt => (m : ℝ) + 1 / 2 < x ∧ x < m + 1

theorem nearestEven_eq_add {x : ℝ} {m : ℕ} (hlo : (m : ℝ) ≤ x) (hhi : x < m + 1) :
    nearestEven x = if x - m < 1 / 2 then (m : ℤ)
      else if 1 / 2 < x - m then (m : ℤ) + 1 else (m : ℤ) + (m : ℤ) % 2 := by
  have hfloor : ⌊x⌋ = m := Int.floor_eq_iff.mpr ⟨hlo, hhi⟩
  rw [nearestEven, Int.fract, hfloor, Int.cast_natCast]

theorem Tells.roundToNearestEven {x : ℝ} {m : ℕ} {a : Accuracy} (h : Tells x m a) :
    (a.roundToNearestEven m : ℤ) = nearestEven x := by
  cases a with
  | exact =>
    obtain rfl : x = m := h
    exact (nearestEven_natCast m).symm
  | inexact o =>
    cases o with
    | lt =>
      obtain ⟨hlo, hhi⟩ := h
      rw [nearestEven_eq_add hlo.le (by linarith), if_pos (by linarith)]
      rfl
    | eq =>
      obtain rfl : x = m + 1 / 2 := h
      rw [nearestEven_eq_add (m := m) (by linarith) (by linarith), if_neg (by simp),
        if_neg (by simp)]
      rfl
    | gt =>
      obtain ⟨hlo, hhi⟩ := h
      rw [nearestEven_eq_add (by linarith) hhi, if_neg (by linarith), if_pos (by linarith)]
      rfl

/-- The digit shifted out is the new half, and what was left before is left. -/
theorem Tells.shiftRightOne {x : ℝ} {em : ExtendedMantissa} (h : Tells x em.mantissa em.accuracy) :
    Tells (x / 2) em.shiftRightOne.mantissa em.shiftRightOne.accuracy := by
  obtain ⟨m, half, rest⟩ := em
  obtain ⟨hodd, hm⟩ | ⟨hodd, hm⟩ : (m % 2 != 0) = false ∧ m = 2 * (m / 2) ∨
      (m % 2 != 0) = true ∧ m = 2 * (m / 2) + 1 := by
    rw [bne_eq_false_iff_eq, bne_iff_ne]
    omega
  all_goals
    have hm' := congrArg (Nat.cast : ℕ → ℝ) hm
    push_cast at hm'
    cases half <;> cases rest <;>
    simp only [ExtendedMantissa.shiftRightOne, ExtendedMantissa.accuracy, Tells, hodd,
      Bool.or_false, Bool.or_true] at h ⊢ <;>
    grind

theorem tells_shiftRight (m k : ℕ) :
    Tells (m / 2 ^ k) (ExtendedMantissa.ofMantissaAndAccuracy m .exact >>> k).mantissa
      (ExtendedMantissa.ofMantissaAndAccuracy m .exact >>> k).accuracy := by
  induction k with
  | zero => exact div_one (m : ℝ)
  | succ k ih =>
    have h := ih.shiftRightOne
    rw [div_div, ← pow_succ] at h
    exact h

/-! ## 4. Rounding a mantissa -/

/-- The number of a float; the infinities are the ends of the line. -/
noncomputable def value : UnpackedFloat → EReal
  | .notANumber => 0
  | .infinity .negative => ⊥
  | .infinity .positive => ⊤
  | .zero _ => 0
  | .finite s m e _ => (((s.apply m : ℤ) * 2 ^ e : ℝ) : EReal)

theorem value_zero (s : Sign) : value (.zero s) = 0 := rfl
theorem value_infinity_negative : value (.infinity .negative) = ⊥ := rfl
theorem value_infinity_positive : value (.infinity .positive) = ⊤ := rfl
theorem value_finite (s : Sign) {m : ℕ} (e : ℤ) (hm : 0 < m) :
    value (.finite s m e hm) = (((s.apply m : ℤ) * 2 ^ e : ℝ) : EReal) := rfl

theorem magnitude_pos {m : ℕ} (hm : 0 < m) (e : ℤ) : (0 : ℝ) < m * 2 ^ e :=
  mul_pos (Nat.cast_pos.mpr hm) (two_zpow_pos e)

@[simp] theorem apply_positive (m : ℕ) : ((Sign.positive.apply m : ℤ) : ℝ) = m := rfl

@[simp] theorem apply_negative (m : ℕ) : ((Sign.negative.apply m : ℤ) : ℝ) = -m :=
  Int.cast_neg (m : ℤ)

/-- Magnitudes that are equal are equal with a sign. -/
theorem signed_congr (s : Sign) {m n : ℕ} {e t : ℤ} (h : (m : ℝ) * 2 ^ e = n * 2 ^ t) :
    (s.apply m : ℤ) * (2 : ℝ) ^ e = (s.apply n : ℤ) * 2 ^ t := by
  cases s <;> simp [h]

/-- A mantissa in its standard form: 24 digits, or fewer at the least exponent. -/
structure IsStandard (m : ℕ) (e : ℤ) : Prop where
  lt : m < 2 ^ 24
  low : -149 ≤ e
  full : 2 ^ 23 ≤ m ∨ e = -149

/-- A float whose mantissa, if it has one, is in its standard form. -/
def HasStandard : UnpackedFloat → Prop
  | .finite _ m e _ => IsStandard m e
  | _ => True

theorem log_mantissa {m : ℕ} (hm : 0 < m) (e : ℤ) :
    Int.log 2 ((m : ℝ) * 2 ^ e) = m.log2 + e := by
  have hpos := magnitude_pos hm e
  have hlo : (2 : ℝ) ^ m.log2 ≤ m := by exact_mod_cast Nat.log2_self_le hm.ne'
  have hhi : (m : ℝ) < 2 ^ (m.log2 + 1) := by exact_mod_cast Nat.lt_log2_self
  apply le_antisymm
  · rw [← Int.lt_add_one_iff, ← Int.lt_zpow_iff_log_lt one_lt_two hpos]
    calc (m : ℝ) * 2 ^ e < 2 ^ (m.log2 + 1) * 2 ^ e :=
          mul_lt_mul_of_pos_right hhi (two_zpow_pos e)
      _ = ((2 : ℕ) : ℝ) ^ ((m.log2 : ℤ) + e + 1) := by
          rw [Nat.cast_ofNat, add_right_comm, two_zpow_add]; norm_cast
  · rw [← Int.zpow_le_iff_le_log one_lt_two hpos]
    calc ((2 : ℕ) : ℝ) ^ ((m.log2 : ℤ) + e) = 2 ^ m.log2 * 2 ^ e := by
          rw [Nat.cast_ofNat, two_zpow_add]; norm_cast
      _ ≤ m * 2 ^ e := mul_le_mul_of_nonneg_right hlo (two_zpow_pos e).le

theorem gridExponent_mantissa {m : ℕ} (hm : 0 < m) (e : ℤ) :
    gridExponent (m * 2 ^ e) = Format.binary32.targetExponent (totalExponent m e) := by
  rw [gridExponent, log_mantissa hm]
  show _ = max ((m.log2 : ℤ) + 1 + e - 24) (-149)
  omega

theorem IsStandard.gridExponent_eq {m : ℕ} {e : ℤ} (h : IsStandard m e) (hm : 0 < m) :
    gridExponent (m * 2 ^ e) = e := by
  have hlt := (Nat.log2_lt hm.ne').mpr h.lt
  have hlow := h.low
  rw [gridExponent, log_mantissa hm]
  rcases h.full with hfull | heq
  · have hle := (Nat.le_log2 hm.ne').mpr hfull
    omega
  · omega

/-- Shifted to the grid, a mantissa rounds to the digits of its number. -/
theorem shiftToTargetExponent_spec {m : ℕ} (hm : 0 < m) {e : ℤ}
    (he : e ≤ gridExponent (m * 2 ^ e)) :
    let r := shiftToTargetExponent Format.binary32 m e .exact
    r.2 = gridExponent (m * 2 ^ e) ∧
      (r.1.roundedMantissa : ℤ) = gridSteps (m * 2 ^ e) := by
  intro r
  have hr : r = shiftToExponent m e .exact (gridExponent (m * 2 ^ e)) := by
    rw [gridExponent_mantissa hm]
    rfl
  have hexponent : e + (gridExponent (m * 2 ^ e) - e).toNat = gridExponent (m * 2 ^ e) := by omega
  have hshift : (m : ℝ) * 2 ^ e / 2 ^ gridExponent (m * 2 ^ e) =
      m / 2 ^ (gridExponent (m * 2 ^ e) - e).toNat := by
    rw [div_eq_div_iff (two_zpow_pos _).ne' (by positivity), mul_assoc]
    congr 1
    rw [← zpow_natCast, ← two_zpow_add, hexponent]
  rw [hr, gridSteps, hshift]
  exact ⟨hexponent, (tells_shiftRight m _).roundToNearestEven⟩

/-- What is rounded up to 25 digits is shifted by one more, and nothing is lost. -/
theorem carry_spec {n : ℕ} {t : ℤ} (hn : n ≤ 2 ^ 24) (ht : -149 ≤ t)
    (hfull : 2 ^ 23 ≤ n ∨ t = -149) :
    let r := shiftToTargetExponent Format.binary32 n t .exact
    IsStandard r.1.mantissa r.2 ∧ (r.1.mantissa : ℝ) * 2 ^ r.2 = n * 2 ^ t := by
  intro r
  rcases hn.lt_or_eq with hlt | rfl
  · have hlog : n.log2 ≤ 23 := by
      rcases n.eq_zero_or_pos with rfl | hpos
      · simp
      · exact Nat.le_of_lt_succ ((Nat.log2_lt hpos.ne').mpr hlt)
    have htarget : Format.binary32.targetExponent (totalExponent n t) ≤ t := by
      show max ((n.log2 : ℤ) + 1 + t - 24) (-149) ≤ t
      omega
    have hr : r = (⟨n, false, false⟩, t) := by
      show shiftToTargetExponent Format.binary32 n t .exact = _
      rw [shiftToTargetExponent, shiftToExponent, Int.toNat_of_nonpos (by omega)]
      simp only [Nat.cast_zero, add_zero]
      rfl
    rw [hr]
    exact ⟨⟨hlt, ht, hfull⟩, rfl⟩
  · have htarget : Format.binary32.targetExponent (totalExponent (2 ^ 24) t) = t + 1 := by
      show max (((2 ^ 24 : ℕ).log2 : ℤ) + 1 + t - 24) (-149) = t + 1
      rw [Nat.log2_two_pow]
      omega
    have hr : r = (⟨2 ^ 23, false, false⟩, t + 1) := by
      show shiftToTargetExponent Format.binary32 (2 ^ 24) t .exact = _
      rw [shiftToTargetExponent, htarget, shiftToExponent, add_sub_cancel_left]
      rfl
    rw [hr]
    refine ⟨⟨by norm_num, by omega, .inl le_rfl⟩, ?_⟩
    rw [two_zpow_add]
    push_cast
    ring

theorem value_signed (s : Sign) (m : ℕ) (e : ℤ) :
    value (if h : m = 0 then .zero s else .finite s m e (Nat.pos_of_ne_zero h)) =
      (((s.apply m : ℤ) * 2 ^ e : ℝ) : EReal) := by
  split
  next h =>
    subst h
    cases s <;> simp [value, Sign.apply]
  next => rfl

theorem roundReal_signed (s : Sign) {m n : ℕ} {e t : ℤ} (hm : 0 < m)
    (h : (n : ℝ) * 2 ^ t = roundPositive (m * 2 ^ e)) :
    (s.apply n : ℤ) * (2 : ℝ) ^ t = roundReal ((s.apply m : ℤ) * 2 ^ e) := by
  have hpos := magnitude_pos hm e
  cases s with
  | positive => rw [apply_positive, apply_positive, roundReal, if_neg hpos.not_gt, h]
  | negative =>
    rw [apply_negative, apply_negative, neg_mul, neg_mul, roundReal,
      if_pos (neg_neg_iff_pos.mpr hpos), neg_neg, h]

/-- What Lean makes of a mantissa with too many digits is the rounded number. -/
theorem roundWithAccuracy_spec (s : Sign) {m : ℕ} (hm : 0 < m) {e : ℤ}
    (he : e ≤ gridExponent (m * 2 ^ e)) :
    HasStandard (roundWithAccuracy Format.binary32 s m e .exact) ∧
      value (roundWithAccuracy Format.binary32 s m e .exact) =
        (roundReal ((s.apply m : ℤ) * 2 ^ e) : ℝ) := by
  have hpos := magnitude_pos hm e
  have hlow : -149 ≤ gridExponent (m * 2 ^ e) := le_max_right _ _
  have hdigits := gridSteps_le (m * 2 ^ e)
  have hfull := le_gridSteps hpos
  obtain ⟨hexponent, hmantissa⟩ := shiftToTargetExponent_spec hm he
  have hround : ((shiftToTargetExponent Format.binary32 m e .exact).1.roundedMantissa : ℝ) *
      2 ^ (shiftToTargetExponent Format.binary32 m e .exact).2 = roundPositive (m * 2 ^ e) := by
    rw [hexponent, roundPositive, ← hmantissa, Int.cast_natCast]
  rw [← hmantissa] at hdigits hfull
  rw [← hexponent] at hlow hfull
  unfold roundWithAccuracy
  generalize shiftToTargetExponent Format.binary32 m e .exact = r at *
  obtain ⟨hstandard, hsettled⟩ := carry_spec (by exact_mod_cast hdigits) hlow (by omega)
  simp only
  generalize shiftToTargetExponent Format.binary32 r.1.roundedMantissa r.2 .exact = r' at *
  constructor
  · split
    · trivial
    · exact hstandard
  · rw [value_signed, roundReal_signed s hm (hsettled.trans hround)]

theorem decreaseExponent_value (m : ℕ) (e t : ℤ) :
    ((decreaseExponent m e t).1 : ℝ) * 2 ^ (decreaseExponent m e t).2 = m * 2 ^ e := by
  show ((m <<< (e - t).toNat : ℕ) : ℝ) * 2 ^ (e - (e - t).toNat) = _
  rw [Nat.shiftLeft_eq, Nat.cast_mul, Nat.cast_pow, Nat.cast_ofNat, mul_assoc, ← zpow_natCast,
    ← two_zpow_add, add_sub_cancel]

theorem round_spec (s : Sign) {m : ℕ} (hm : 0 < m) (e : ℤ) :
    HasStandard (UnpackedFloat.round Format.binary32 s m e) ∧
      value (UnpackedFloat.round Format.binary32 s m e) =
        (roundReal ((s.apply m : ℤ) * 2 ^ e) : ℝ) := by
  let r := decreaseExponent m e (gridExponent (m * 2 ^ e))
  have hvalue : (r.1 : ℝ) * 2 ^ r.2 = m * 2 ^ e := decreaseExponent_value m e _
  have hexponent : r.2 ≤ gridExponent (m * 2 ^ e) := by
    show e - (e - gridExponent (m * 2 ^ e)).toNat ≤ _
    omega
  have hpos : 0 < r.1 := by
    show 0 < m <<< (e - gridExponent (m * 2 ^ e)).toNat
    rw [Nat.shiftLeft_eq]
    positivity
  have heq : UnpackedFloat.round Format.binary32 s m e =
      roundWithAccuracy Format.binary32 s r.1 r.2 .exact := by
    rw [UnpackedFloat.round, ← gridExponent_mantissa hm]
  have h := roundWithAccuracy_spec s hpos (by rwa [hvalue])
  rwa [heq, ← signed_congr s hvalue]

theorem normalize_spec (m e : ℤ) (s : Sign) :
    HasStandard (UnpackedFloat.normalize Format.binary32 m e s) ∧
      value (UnpackedFloat.normalize Format.binary32 m e s) = (roundReal (m * 2 ^ e) : ℝ) := by
  unfold UnpackedFloat.normalize
  rcases lt_trichotomy m 0 with hneg | rfl | hpos
  · rw [Int.compare_eq_lt.mpr hneg]
    have h := round_spec .negative (m := (-m).toNat) (by omega) e
    have hm : (Sign.negative.apply ((-m).toNat : ℤ)) = m := by
      show -((-m).toNat : ℤ) = m
      omega
    rwa [hm] at h
  · refine ⟨trivial, ?_⟩
    show (0 : EReal) = _
    simp [roundReal, roundPositive_zero]
  · rw [Int.compare_eq_gt.mpr hpos]
    have h := round_spec .positive (m := m.toNat) (by omega) e
    have hm : (Sign.positive.apply (m.toNat : ℤ)) = m := Int.toNat_of_nonneg hpos.le
    rwa [hm] at h

end Float32

end SceneAssembly
