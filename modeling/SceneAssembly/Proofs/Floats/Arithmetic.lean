/-
  SceneAssembly/Proofs/Floats/Arithmetic.lean
  ===========================================
  **Single precision is monotone arithmetic.**

  A sum of floats is the sum of their numbers, rounded and cut, and so is a
  product (`rounds_add`, `rounds_mul`), for as long as the result is a number;
  floats are in the order of their numbers (`le_iff_number`).  Rounding and cutting
  keep the order, so the arithmetic of single precision has the laws of order of
  exact arithmetic (`instMonotoneArithmetic`).
-/
import SceneAssembly.Proofs.Floats.Packing
import SceneAssembly.Proofs.Monotone

namespace SceneAssembly

namespace Float32

open Float.Model Float.Model.UnpackedFloat

/-! ## 1. Sums and products -/

/-- Rounding of any number; the infinities stay. -/
noncomputable def rounded : EReal → EReal
  | ⊥ => ⊥
  | ⊤ => ⊤
  | (x : ℝ) => (roundReal x : EReal)

theorem rounded_mono : Monotone rounded := by
  intro x y hxy
  induction x with
  | bot => exact bot_le
  | top =>
    obtain rfl := top_le_iff.mp hxy
    exact le_rfl
  | coe x =>
    induction y with
    | bot => exact absurd hxy (not_le.mpr (EReal.bot_lt_coe x))
    | top => exact le_top
    | coe y => exact EReal.coe_le_coe (roundReal_mono (EReal.coe_le_coe_iff.mp hxy))

/-- A number in standard form is on its grid. -/
theorem rounded_value {u : UnpackedFloat} (h : HasStandard u) : rounded (value u) = value u := by
  have hzero : rounded 0 = 0 := by
    show ((roundReal 0 : ℝ) : EReal) = 0
    simp [roundReal, roundPositive_zero]
  cases u with
  | notANumber => exact hzero
  | infinity s => cases s <;> rfl
  | zero s => exact hzero
  | finite s m e hm =>
    have hround : (m : ℝ) * 2 ^ e = roundPositive (m * 2 ^ e) := by
      rw [roundPositive, gridSteps, IsStandard.gridExponent_eq h hm,
        mul_div_cancel_right₀ _ (two_zpow_pos e).ne', nearestEven_natCast, Int.cast_natCast]
    exact congrArg Real.toEReal (roundReal_signed s hm hround).symm

variable {a b : UnpackedFloat}

theorem decreased_signed (s : Sign) (m : ℕ) {e t : ℤ} (ht : t ≤ e) :
    ((s.apply (decreaseExponent m e t).1 : ℤ) : ℝ) * 2 ^ t = (s.apply m : ℤ) * 2 ^ e := by
  have hvalue := decreaseExponent_value m e t
  have hexponent : (decreaseExponent m e t).2 = t := by
    show e - (e - t).toNat = t
    omega
  rw [hexponent] at hvalue
  exact signed_congr s hvalue

/-- A sum is the rounded sum. -/
theorem add_spec (ha : HasStandard a) (hb : HasStandard b)
    (h : a.add Format.binary32 b ≠ .notANumber) :
    HasStandard (a.add Format.binary32 b) ∧
      value (a.add Format.binary32 b) = rounded (value a + value b) := by
  cases a with
  | notANumber => exact absurd rfl h
  | infinity s =>
    cases b with
    | notANumber => exact absurd rfl h
    | infinity t =>
      constructor <;> cases s <;> cases t <;> trivial
    | zero t => cases s <;> exact ⟨trivial, rfl⟩
    | finite t n f hn => cases s <;> exact ⟨trivial, rfl⟩
  | zero s =>
    cases b with
    | notANumber => exact absurd rfl h
    | infinity t => cases t <;> exact ⟨trivial, rfl⟩
    | zero t =>
      have hsum : value ((UnpackedFloat.zero s).add Format.binary32 (.zero t)) = 0 := by
        cases s <;> cases t <;> rfl
      refine ⟨by cases s <;> cases t <;> trivial, ?_⟩
      rw [hsum]
      show _ = rounded (0 + 0)
      rw [add_zero]
      exact (rounded_value (u := .zero s) trivial).symm
    | finite t n f hn =>
      refine ⟨hb, ?_⟩
      show _ = rounded (0 + _)
      rw [zero_add, rounded_value hb]
      rfl
  | finite s m e hm =>
    cases b with
    | notANumber => exact absurd rfl h
    | infinity t => cases t <;> exact ⟨trivial, rfl⟩
    | zero t =>
      refine ⟨ha, ?_⟩
      show _ = rounded (_ + 0)
      rw [add_zero, rounded_value ha]
      rfl
    | finite t n f hn =>
      obtain ⟨hstandard, hvalue⟩ := normalize_spec
        (s.apply (decreaseExponent m e (min e f)).1 + t.apply (decreaseExponent n f (min e f)).1)
        (min e f) .positive
      refine ⟨hstandard, hvalue.trans ?_⟩
      rw [Int.cast_add, add_mul, decreased_signed s m (min_le_left e f),
        decreased_signed t n (min_le_right e f)]
      rfl

/-- No bits have to be appended to a product before it is rounded. -/
theorem mul_exponent_le {m n : ℕ} {e f : ℤ} (ha : IsStandard m e) (hb : IsStandard n f)
    (hm : 0 < m) (hn : 0 < n) : e + f ≤ gridExponent ((m * n : ℕ) * 2 ^ (e + f)) := by
  have hpos := Nat.mul_pos hm hn
  rw [gridExponent, log_mantissa hpos]
  by_cases hfull : 2 ^ 23 ≤ m * n
  · have hlog := (Nat.le_log2 hpos.ne').mpr hfull
    omega
  · have hm' : m ≤ m * n := Nat.le_mul_of_pos_right m hn
    have he := ha.full.resolve_left (by omega)
    have hn' : n ≤ m * n := Nat.le_mul_of_pos_left n hm
    have hf := hb.full.resolve_left (by omega)
    omega

theorem value_pos {m : ℕ} {e : ℤ} (hm : 0 < m) : 0 < value (.finite .positive m e hm) :=
  EReal.coe_pos.mpr (magnitude_pos hm e)

theorem value_neg {m : ℕ} {e : ℤ} (hm : 0 < m) : value (.finite .negative m e hm) < 0 := by
  rw [value_finite, apply_negative, neg_mul]
  exact EReal.coe_lt_coe (neg_lt_zero.mpr (magnitude_pos hm e))

theorem value_infinity_mul (s t : Sign) {m : ℕ} (e : ℤ) (hm : 0 < m) :
    value (.infinity (s * t)) = value (.infinity s) * value (.finite t m e hm) := by
  cases t with
  | positive =>
    have hpos := value_pos (e := e) hm
    cases s with
    | positive => exact (EReal.top_mul_of_pos hpos).symm
    | negative => exact (EReal.bot_mul_of_pos hpos).symm
  | negative =>
    have hneg := value_neg (e := e) hm
    cases s with
    | positive => exact (EReal.top_mul_of_neg hneg).symm
    | negative => exact (EReal.bot_mul_of_neg hneg).symm

theorem sign_mul_comm (s t : Sign) : s * t = t * s := by cases s <;> cases t <;> rfl

theorem apply_mul (s t : Sign) (m n : ℕ) :
    (s * t).apply (m * n : ℕ) = s.apply m * t.apply n := by
  rw [Nat.cast_mul]
  cases s with
  | negative =>
    cases t with
    | negative => exact (Int.neg_mul_neg m n).symm
    | positive => exact Int.neg_mul_eq_neg_mul m n
  | positive =>
    cases t with
    | negative => exact Int.neg_mul_eq_mul_neg m n
    | positive => rfl

/-- A product is the rounded product. -/
theorem mul_spec (ha : HasStandard a) (hb : HasStandard b)
    (h : a.mul Format.binary32 b ≠ .notANumber) :
    HasStandard (a.mul Format.binary32 b) ∧
      value (a.mul Format.binary32 b) = rounded (value a * value b) := by
  have hzero : (0 : EReal) = rounded 0 := (rounded_value (u := .zero .positive) trivial).symm
  cases a with
  | notANumber => exact absurd rfl h
  | infinity s =>
    cases b with
    | notANumber => exact absurd rfl h
    | infinity t =>
      refine ⟨trivial, ?_⟩
      cases s <;> cases t
      · exact congrArg rounded EReal.bot_mul_bot.symm
      · exact congrArg rounded EReal.bot_mul_top.symm
      · exact congrArg rounded EReal.top_mul_bot.symm
      · exact congrArg rounded EReal.top_mul_top.symm
    | zero t => exact absurd rfl h
    | finite t n f hn =>
      refine ⟨trivial, ?_⟩
      rw [← value_infinity_mul s t f hn, rounded_value (u := .infinity (s * t)) trivial]
      rfl
  | zero s =>
    cases b with
    | notANumber => exact absurd rfl h
    | infinity t => exact absurd rfl h
    | zero t => exact ⟨trivial, hzero.trans (congrArg rounded (zero_mul _).symm)⟩
    | finite t n f hn => exact ⟨trivial, hzero.trans (congrArg rounded (zero_mul _).symm)⟩
  | finite s m e hm =>
    cases b with
    | notANumber => exact absurd rfl h
    | infinity t =>
      refine ⟨trivial, ?_⟩
      rw [mul_comm, ← value_infinity_mul t s e hm, sign_mul_comm,
        rounded_value (u := .infinity (s * t)) trivial]
      rfl
    | zero t => exact ⟨trivial, hzero.trans (congrArg rounded (mul_zero _).symm)⟩
    | finite t n f hn =>
      obtain ⟨hstandard, hvalue⟩ :=
        roundWithAccuracy_spec (s * t) (Nat.mul_pos hm hn) (mul_exponent_le ha hb hm hn)
      refine ⟨hstandard, hvalue.trans ?_⟩
      rw [apply_mul, two_zpow_add, Int.cast_mul, mul_mul_mul_comm]
      rfl

/-! ## 2. The order of floats is that of their numbers -/

theorem magnitude_lt {m n : ℕ} {e f : ℤ} (ha : IsStandard m e) (hb : IsStandard n f)
    (h : toLex (e, (m : ℤ)) < toLex (f, (n : ℤ))) : (m : ℝ) * 2 ^ e < n * 2 ^ f := by
  rcases Prod.Lex.toLex_lt_toLex.mp h with hlt | ⟨heq, hlt⟩
  · -- The greater exponent is not the least one, so its mantissa is full.
    have hlow := ha.low
    have hm : (m : ℝ) < 2 ^ 24 := by exact_mod_cast ha.lt
    have hn : (2 : ℝ) ^ 23 ≤ n := by exact_mod_cast hb.full.resolve_right (hlow.trans_lt hlt).ne'
    calc (m : ℝ) * 2 ^ e < 2 ^ 24 * 2 ^ e := mul_lt_mul_of_pos_right hm (two_zpow_pos e)
      _ = 2 ^ 23 * 2 ^ (e + 1) := by rw [two_zpow_add]; ring
      _ ≤ 2 ^ 23 * 2 ^ f :=
        mul_le_mul_of_nonneg_left (zpow_le_zpow_right₀ one_le_two hlt) (by positivity)
      _ ≤ n * 2 ^ f := mul_le_mul_of_nonneg_right hn (two_zpow_pos f).le
  · obtain rfl : e = f := heq
    have hmn : m < n := Int.ofNat_lt.mp hlt
    exact mul_lt_mul_of_pos_right (Nat.cast_lt.mpr hmn) (two_zpow_pos e)

theorem value_neg_lt_value_pos {m n : ℕ} {e f : ℤ} (hm : 0 < m) (hn : 0 < n) :
    value (.finite .negative m e hm) < value (.finite .positive n f hn) :=
  (value_neg hm).trans (value_pos hn)

theorem bot_lt_value {s : Sign} {m : ℕ} {e : ℤ} (hm : 0 < m) : ⊥ < value (.finite s m e hm) :=
  EReal.bot_lt_coe _

theorem value_lt_top {s : Sign} {m : ℕ} {e : ℤ} (hm : 0 < m) : value (.finite s m e hm) < ⊤ :=
  EReal.coe_lt_top _

/-- A float with a higher place has a greater number. -/
theorem value_lt_of_rank_lt {x y : ℤ ×ₗ ℤ ×ₗ ℤ} (ha : HasStandard a) (hb : HasStandard b)
    (hx : rank a = some x) (hy : rank b = some y) (h : x < y) : value a < value b := by
  rcases a with (_ | _) | _ | _ | ⟨_ | _, m, e, hm⟩ <;>
    rcases b with (_ | _) | _ | _ | ⟨_ | _, n, f, hn⟩ <;> cases hx <;> cases hy <;>
    simp only [Prod.Lex.toLex_lt_toLex, lt_self_iff_false, true_and, false_or] at h
  case finite.negative.finite.negative =>
    have hlt := magnitude_lt hb ha (Prod.Lex.toLex_lt_toLex.mpr (by omega))
    rw [value_finite, value_finite, apply_negative, apply_negative, neg_mul, neg_mul]
    exact EReal.coe_lt_coe (neg_lt_neg hlt)
  case finite.positive.finite.positive =>
    exact EReal.coe_lt_coe (magnitude_lt ha hb (Prod.Lex.toLex_lt_toLex.mpr h))
  -- Floats of different kinds are told apart by their kinds.
  all_goals first
    | omega
    | simp only [value_zero, value_infinity_negative, value_infinity_positive, value_neg, value_pos,
        value_neg_lt_value_pos, bot_lt_value, value_lt_top, bot_lt_top, EReal.bot_lt_zero,
        EReal.zero_lt_top]

theorem value_eq_of_rank_eq {x : ℤ ×ₗ ℤ ×ₗ ℤ} (hx : rank a = some x) (hy : rank b = some x) :
    value a = value b := by
  rcases a with (_ | _) | _ | _ | ⟨_ | _, m, e, hm⟩ <;>
    rcases b with (_ | _) | _ | _ | ⟨_ | _, n, f, hn⟩ <;> cases hx <;>
    simp only [rank, Option.some.injEq, EmbeddingLike.apply_eq_iff_eq, Prod.mk.injEq, neg_inj,
      Nat.cast_inj, reduceCtorEq] at hy
  case finite.negative.finite.negative =>
    obtain ⟨-, rfl, rfl⟩ := hy
    rfl
  case finite.positive.finite.positive =>
    obtain ⟨-, rfl, rfl⟩ := hy
    rfl
  all_goals first
    | rfl
    | simp at hy

/-- The number of a float. -/
noncomputable def number (x : Float32) : EReal := value x.toModel.unpack

theorem hasStandard (x : Float32) : HasStandard x.toModel.unpack := hasStandard_unpack _

theorem le_iff_number {x y : Float32} :
    x ≤ y ↔ Scalar.IsNumber x ∧ Scalar.IsNumber y ∧ number x ≤ number y := by
  constructor
  · intro h
    obtain ⟨i, hi, j, hj, hij⟩ := le_iff_rank.mp h
    refine ⟨(Scalar.LawfulOrder.isNumber_of_le h).1, (Scalar.LawfulOrder.isNumber_of_le h).2, ?_⟩
    rcases hij.lt_or_eq with hlt | rfl
    · exact (value_lt_of_rank_lt (hasStandard x) (hasStandard y) hi hj hlt).le
    · exact (value_eq_of_rank_eq hi hj).le
  · rintro ⟨hx, hy, hle⟩
    obtain ⟨i, hi, -⟩ := le_iff_rank.mp hx
    obtain ⟨j, hj, -⟩ := le_iff_rank.mp hy
    refine le_iff_rank.mpr ⟨i, hi, j, hj, le_of_not_gt fun hji => ?_⟩
    exact absurd hle (not_le.mpr (value_lt_of_rank_lt (hasStandard y) (hasStandard x) hj hi hji))

theorem isNumber_iff_ne {x : Float32} : Scalar.IsNumber x ↔ x.toModel.unpack ≠ .notANumber := by
  rw [isNumber_iff, ← Bool.not_eq_true]
  exact isNaN_iff.not

/-! ## 3. Operations that round -/

/-- An operation on floats that is an exact operation with its result rounded, and whose result is
    not a number where an operand is not. -/
structure Rounds (op : UnpackedFloat → UnpackedFloat → UnpackedFloat)
    (ideal : EReal → EReal → EReal) : Prop where
  left : ∀ b, op .notANumber b = .notANumber
  right : ∀ a, op a .notANumber = .notANumber
  spec : ∀ {a b}, HasStandard a → HasStandard b → op a b ≠ .notANumber →
    HasStandard (op a b) ∧ value (op a b) = rounded (ideal (value a) (value b))

theorem rounds_add : Rounds (UnpackedFloat.add Format.binary32) (· + ·) where
  left b := by cases b <;> rfl
  right a := by cases a <;> rfl
  spec := add_spec

theorem rounds_mul : Rounds (UnpackedFloat.mul Format.binary32) (· * ·) where
  left b := by cases b <;> rfl
  right a := by cases a <;> rfl
  spec := mul_spec

namespace Rounds

variable {op : UnpackedFloat → UnpackedFloat → UnpackedFloat} {ideal : EReal → EReal → EReal}
  {x y z x' y' z' : Float32}

theorem ne_notANumber (hz : z.toModel.unpack = repack (op x.toModel.unpack y.toModel.unpack))
    (h : Scalar.IsNumber z) : op x.toModel.unpack y.toModel.unpack ≠ .notANumber := by
  intro heq
  rw [heq] at hz
  exact isNumber_iff_ne.mp h hz

theorem isNumber (hop : Rounds op ideal)
    (hz : z.toModel.unpack = repack (op x.toModel.unpack y.toModel.unpack))
    (h : Scalar.IsNumber z) : Scalar.IsNumber x ∧ Scalar.IsNumber y := by
  have hne := ne_notANumber hz h
  rw [isNumber_iff_ne, isNumber_iff_ne]
  constructor
  · intro heq
    rw [heq, hop.left] at hne
    exact hne rfl
  · intro heq
    rw [heq, hop.right] at hne
    exact hne rfl

theorem number_eq (hop : Rounds op ideal)
    (hz : z.toModel.unpack = repack (op x.toModel.unpack y.toModel.unpack))
    (h : Scalar.IsNumber z) : number z = clip (rounded (ideal (number x) (number y))) := by
  obtain ⟨hstandard, hvalue⟩ :=
    hop.spec (hasStandard x) (hasStandard y) (ne_notANumber hz h)
  rw [number, hz, value_repack hstandard, hvalue]
  rfl

/-- Rounding keeps what the exact operation says of the order of two results. -/
theorem le (hop : Rounds op ideal)
    (hz : z.toModel.unpack = repack (op x.toModel.unpack y.toModel.unpack))
    (hz' : z'.toModel.unpack = repack (op x'.toModel.unpack y'.toModel.unpack))
    (h : Scalar.IsNumber z) (h' : Scalar.IsNumber z')
    (hle : ideal (number x) (number y) ≤ ideal (number x') (number y')) : z ≤ z' := by
  refine le_iff_number.mpr ⟨h, h', ?_⟩
  rw [hop.number_eq hz h, hop.number_eq hz' h']
  exact clip_mono (rounded_mono hle)

end Rounds

/-! ## 4. The laws of order -/

theorem number_zero : number 0 = 0 := rfl

theorem not_infinity_lt (x : Float32) : ¬ Scalar.infinity < x := by
  intro h
  have hle := Scalar.LawfulOrder.lt_iff.mp h
  obtain ⟨hinfinity, hx, -⟩ := le_iff_number.mp hle.1
  exact hle.2 (le_iff_number.mpr ⟨hx, hinfinity, le_top.trans_eq (rfl : ⊤ = number _)⟩)

theorem not_lt_neg_infinity (x : Float32) : ¬ x < -Scalar.infinity := by
  intro h
  have hle := Scalar.LawfulOrder.lt_iff.mp h
  obtain ⟨hx, hinfinity, -⟩ := le_iff_number.mp hle.1
  exact hle.2 (le_iff_number.mpr ⟨hinfinity, hx, (rfl : number _ = ⊥).trans_le bot_le⟩)

instance instMonotoneArithmetic : Scalar.MonotoneArithmetic Float32 where
  isNumber_zero := isNumber_iff.mpr rfl
  neg_infinity_lt := by decide +kernel
  isNumber_of_add := rounds_add.isNumber rfl
  isNumber_of_mul := rounds_mul.isNumber rfl
  add_le_add hx hy h h' :=
    rounds_add.le rfl rfl h h' (add_le_add (le_iff_number.mp hx).2.2 (le_iff_number.mp hy).2.2)
  mul_le_mul_of_nonneg {a x y} ha hxy h h' := by
    have hpos : 0 ≤ number a := number_zero.symm.trans_le (le_iff_number.mp ha).2.2
    exact rounds_mul.le rfl rfl h h'
      (mul_le_mul_of_nonneg_left (le_iff_number.mp hxy).2.2 hpos)
  mul_le_mul_of_nonpos {a x y} ha hxy h h' := by
    have hneg : 0 ≤ -number a :=
      EReal.neg_nonneg.mpr ((le_iff_number.mp ha).2.2.trans_eq number_zero)
    have hle := mul_le_mul_of_nonneg_left (le_iff_number.mp hxy).2.2 hneg
    rw [neg_mul, neg_mul, EReal.neg_le_neg_iff] at hle
    exact rounds_mul.le rfl rfl h' h hle

end Float32

end SceneAssembly
