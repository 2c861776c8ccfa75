/-
  SceneAssembly/Proofs/Floats/Packing.lean
  ========================================
  **Single precision in 32 bits.**

  A float is kept in 32 bits: its sign, eight bits of exponent and the mantissa
  without its first digit, which is there unless the exponent is the least one.
  A float in standard form is read back as it was, unless its exponent is out of
  range and it becomes infinite (`repack_finite`).  For the number of a float this
  is a cut at `2 ^ 128` (`value_repack`), which keeps the order (`clip_mono`).
-/
import SceneAssembly.Proofs.Floats.Rounding

namespace SceneAssembly

namespace Float32

open Float.Model Float.Model.UnpackedFloat

/-! ## 1. Packing -/

/-- The float that is read back. -/
def repack (u : UnpackedFloat) : UnpackedFloat :=
  UnpackedFloat.unpack Format.binary32 (UnpackedFloat.pack Format.binary32 u)

theorem repack_notANumber : repack .notANumber = .notANumber := rfl
theorem repack_infinity (s : Sign) : repack (.infinity s) = .infinity s := by cases s <;> rfl
theorem repack_zero (s : Sign) : repack (.zero s) = .zero s := by cases s <;> rfl

theorem implicit_append (m : BitVec 23) : (1#1 ++ m).toNat = 2 ^ 23 + m.toNat := by
  rw [BitVec.toNat_append, ← Nat.shiftLeft_add_eq_or_of_lt m.isLt]
  rfl

theorem unpack_packComponents (s : Sign) (e : BitVec 8) (m : BitVec 23) :
    UnpackedFloat.unpack Format.binary32 (packComponents Format.binary32 s e m) =
      if e = -1#_ then if m = 0#_ then .infinity s else .notANumber
      else if e = 0#_ then
        if h : m = 0#_ then .zero s
        else .finite s m.toNat (-149) (by simpa [BitVec.toNat_pos, BitVec.pos_iff_ne_zero])
      else .finite s (2 ^ 23 + m.toNat) (e.toNat - 150) (Nat.add_pos_left (by decide) _) := by
  unfold UnpackedFloat.unpack
  simp only [unpackMantissa_packComponents, unpackExponent_packComponents,
    unpackSign_packComponents, Sign.ofBitVec_toBitVec]
  simp only [implicit_append]
  split
  · rfl
  · split
    next h => subst h; rfl
    next => rfl

theorem repack_normal {s : Sign} {m b : ℕ} (hlo : 2 ^ 23 ≤ m) (hlt : m < 2 ^ 24) (hb : 0 < b)
    (hb' : b < 255) :
    UnpackedFloat.unpack Format.binary32
      (packComponents Format.binary32 s (BitVec.ofNat 8 b) (BitVec.ofNat 23 m)) =
      .finite s m (b - 150) (by omega) := by
  have hexponent : (BitVec.ofNat 8 b).toNat = b := by
    rw [BitVec.toNat_ofNat]
    exact Nat.mod_eq_of_lt (by omega)
  have hmantissa : 2 ^ 23 + (BitVec.ofNat 23 m).toNat = m := by
    rw [BitVec.toNat_ofNat]
    omega
  have hones : BitVec.ofNat 8 b ≠ -1#8 := by
    rw [BitVec.toNat_ne_iff_ne.symm, hexponent]
    exact hb'.ne
  have hzero : BitVec.ofNat 8 b ≠ 0#8 := by
    rw [BitVec.toNat_ne_iff_ne.symm, hexponent]
    exact hb.ne'
  rw [unpack_packComponents, if_neg hones, if_neg hzero]
  simp only [hexponent, hmantissa]

theorem repack_subnormal {s : Sign} {m : ℕ} (hm : 0 < m) (hlt : m < 2 ^ 23) :
    UnpackedFloat.unpack Format.binary32
      (packComponents Format.binary32 s 0#8 (BitVec.ofNat 23 m)) = .finite s m (-149) hm := by
  have hmantissa : (BitVec.ofNat 23 m).toNat = m := by
    rw [BitVec.toNat_ofNat]
    exact Nat.mod_eq_of_lt hlt
  have hzero : BitVec.ofNat 23 m ≠ 0#23 := by
    rw [BitVec.toNat_ne_iff_ne.symm, hmantissa]
    exact hm.ne'
  rw [unpack_packComponents, if_neg (by decide), if_pos rfl, dif_neg hzero]
  simp only [hmantissa]

/-- A float in standard form is read back as it is, unless its exponent is out of range. -/
theorem repack_finite {s : Sign} {m : ℕ} {e : ℤ} (hm : 0 < m) (h : IsStandard m e) :
    repack (.finite s m e hm) = if 104 < e then .infinity s else .finite s m e hm := by
  obtain ⟨hlt, hlow, hfull⟩ := h
  have hbiased : e + (Format.binary32.exponentBias : ℕ) + (23 : ℕ) = e + 150 := by
    show e + ((127 : ℕ) : ℤ) + ((23 : ℕ) : ℤ) = e + 150
    omega
  unfold repack UnpackedFloat.pack
  simp only
  rw [hbiased]
  by_cases hhigh : 104 < e
  · have hover : 2 ^ 8 ≤ (e + 150).toNat + 1 := by omega
    rw [if_pos hhigh, if_pos hover]
    exact repack_infinity s
  · have hfits : ¬ 2 ^ 8 ≤ (e + 150).toNat + 1 := by omega
    rw [if_neg hhigh, if_neg hfits]
    by_cases hnormal : m.log2 + 1 = Format.binary32.mantissaBits
    · have hlog : 23 ≤ m.log2 := Nat.le_of_eq (Nat.succ.inj hnormal.symm)
      rw [if_pos hnormal, repack_normal ((Nat.le_log2 hm.ne').mp hlog) hlt (by omega) (by omega)]
      congr 1
      omega
    · have hless : m.log2 < 23 := by
        have hlog := (Nat.log2_lt hm.ne').mpr hlt
        have hne : m.log2 ≠ 23 := fun h => hnormal (congrArg Nat.succ h)
        omega
      have hsmall := (Nat.log2_lt hm.ne').mp hless
      obtain rfl : e = -149 := hfull.resolve_left (by omega)
      rw [if_neg hnormal]
      exact repack_subnormal hm hsmall

/-- What is read back is in standard form. -/
theorem hasStandard_unpack (b : BitVec 32) :
    HasStandard (UnpackedFloat.unpack Format.binary32 b) := by
  have hmantissa : (@unpackMantissa Format.binary32 b).toNat < 2 ^ 23 := BitVec.isLt _
  unfold UnpackedFloat.unpack
  simp only
  split
  · split <;> trivial
  · split
    next hzero =>
      split
      · trivial
      · rw [hzero]
        exact ⟨by omega, by decide, .inr rfl⟩
    next hnonzero =>
      have hpos : 0 < (@unpackExponent Format.binary32 b).toNat := by
        rw [BitVec.toNat_pos, BitVec.pos_iff_ne_zero]
        exact hnonzero
      simp only [implicit_append]
      refine ⟨?_, ?_, ?_⟩
      · omega
      · show (-149 : ℤ) ≤ _ - ((127 : ℕ) + (23 : ℕ) : ℤ)
        omega
      · omega

/-! ## 2. Numbers out of range -/

/-- What is too large to pack becomes infinite. -/
noncomputable def clip (x : EReal) : EReal :=
  if (limit : EReal) ≤ x then ⊤ else if x ≤ ((-limit : ℝ) : EReal) then ⊥ else x

theorem limit_pos : 0 < limit := by
  rw [limit]
  positivity

theorem clip_mono : Monotone clip := by
  intro x y hxy
  unfold clip
  split_ifs with hx hy hy' hx' hy hy' hy hy'
  · exact le_rfl
  · exact absurd (hx.trans hxy) hy
  · exact absurd (hx.trans hxy) hy
  · exact bot_le
  · exact le_rfl
  · exact bot_le
  · exact le_top
  · exact absurd (hxy.trans hy') hx'
  · exact hxy

theorem clip_coe_of_abs_lt {x : ℝ} (h : |x| < limit) : clip x = x := by
  obtain ⟨hlo, hhi⟩ := abs_lt.mp h
  rw [clip, if_neg (not_le.mpr (EReal.coe_lt_coe hhi)), if_neg (not_le.mpr (EReal.coe_lt_coe hlo))]

theorem IsStandard.lt_of_le {m : ℕ} {e : ℤ} (h : IsStandard m e) (he : e ≤ 104) :
    (m : ℝ) * 2 ^ e < limit := by
  have hm : (m : ℝ) < 2 ^ 24 := by exact_mod_cast h.lt
  calc (m : ℝ) * 2 ^ e < 2 ^ 24 * 2 ^ e := mul_lt_mul_of_pos_right hm (two_zpow_pos e)
    _ ≤ 2 ^ 24 * 2 ^ (104 : ℤ) :=
      mul_le_mul_of_nonneg_left (zpow_le_zpow_right₀ one_le_two he) (by positivity)
    _ = limit := by norm_num [limit]

theorem IsStandard.le_of_lt {m : ℕ} {e : ℤ} (h : IsStandard m e) (he : 104 < e) :
    limit ≤ (m : ℝ) * 2 ^ e := by
  have hm : (2 : ℝ) ^ 23 ≤ m := by exact_mod_cast h.full.resolve_right (by omega)
  calc limit = 2 ^ 23 * 2 ^ (105 : ℤ) := by norm_num [limit]
    _ ≤ 2 ^ 23 * 2 ^ e :=
      mul_le_mul_of_nonneg_left (zpow_le_zpow_right₀ one_le_two he) (by positivity)
    _ ≤ m * 2 ^ e := mul_le_mul_of_nonneg_right hm (two_zpow_pos e).le

theorem clip_value_finite {s : Sign} {m : ℕ} {e : ℤ} (hm : 0 < m) (h : IsStandard m e) :
    clip (value (.finite s m e hm)) = value (repack (.finite s m e hm)) := by
  rw [repack_finite hm h]
  have hpos := magnitude_pos hm e
  by_cases he : 104 < e
  · have hlarge := h.le_of_lt he
    rw [if_pos he]
    cases s with
    | positive => exact if_pos (EReal.coe_le_coe hlarge)
    | negative =>
      have hbelow : -((m : ℝ) * 2 ^ e) < limit := (neg_lt_zero.mpr hpos).trans limit_pos
      rw [value_finite, apply_negative, neg_mul, clip,
        if_neg (not_le.mpr (EReal.coe_lt_coe hbelow)),
        if_pos (EReal.coe_le_coe (neg_le_neg hlarge)), value_infinity_negative]
  · have hsmall := h.lt_of_le (not_lt.mp he)
    rw [if_neg he]
    refine clip_coe_of_abs_lt ?_
    cases s with
    | positive => rwa [apply_positive, abs_of_pos hpos]
    | negative => rwa [apply_negative, neg_mul, abs_neg, abs_of_pos hpos]

theorem clip_zero : clip 0 = 0 := by
  rw [← EReal.coe_zero]
  exact clip_coe_of_abs_lt (abs_zero.trans_lt limit_pos)

/-- For the number of a float, packing is a cut. -/
theorem value_repack {u : UnpackedFloat} (h : HasStandard u) :
    value (repack u) = clip (value u) := by
  cases u with
  | notANumber =>
    rw [repack_notANumber]
    exact clip_zero.symm
  | infinity s =>
    rw [repack_infinity]
    cases s with
    | positive => exact (if_pos le_top).symm
    | negative => exact ((if_neg (not_le.mpr (EReal.bot_lt_coe _))).trans (if_pos bot_le)).symm
  | zero s =>
    rw [repack_zero]
    exact clip_zero.symm
  | finite s m e hm => exact (clip_value_finite hm h).symm

end Float32

end SceneAssembly
