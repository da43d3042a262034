import Mathlib.Algebra.Order.Group.Unbundled.Int
import OptionsProtocol.Library.FloorSum
import OptionsProtocol.Oracle.Pyth

/-!
# Normalisation and limits over the whole range

Two places where the oracle computes with truncating division. A price is normalised by a power of ten
whose exponent has a sign: the truncated result is the integer part of the exact product, and the power
leaves 64 bits on the dividing side only where that integer part is zero. The limits compare a ratio in
whole basis points, so that what they accept reaches up to the next basis point, as far as the scaled
difference fits in 64 bits.
-/

namespace OptionsProtocol

namespace Oracle

open Except FloorSum

/-! ## Normalisation -/

/-- The price with eight decimals, rounded down. -/
def normalized (price exponent : ℤ) : ℕ :=
  scale (10 ^ (exponent + 8).toNat) (10 ^ (-(exponent + 8)).toNat) price.toNat

/-- Ten to a power that does not fit in 64 bits exceeds every `i64`. -/
private theorem div_pow_eq_zero {p k : ℕ} (hp : p < 2 ^ 63) (hk : 20 ≤ k) : p / 10 ^ k = 0 := by
  refine Nat.div_eq_of_lt (hp.trans ?_)
  calc 2 ^ 63 < 10 ^ 20 := by norm_num
    _ ≤ 10 ^ k := Nat.pow_le_pow_right (by norm_num) hk

private theorem lt_of_mul_pow_lt {p k : ℕ} (hp : 0 < p) (h : p * 10 ^ k < 2 ^ 64) :
    10 ^ k < 2 ^ 64 ∧ k < 20 := by
  have hle : 10 ^ k < 2 ^ 64 := (Nat.le_mul_of_pos_left _ hp).trans_lt h
  refine ⟨hle, ?_⟩
  by_contra hk
  have hlarge : 10 ^ 20 ≤ 10 ^ k := Nat.pow_le_pow_right (by norm_num) (Nat.le_of_not_lt hk)
  have hmax : (2 : ℕ) ^ 64 < 10 ^ 20 := by norm_num
  omega

/-- **The value of `normalize_to_8_decimals`**, and when there is one. -/
theorem normalizeTo8Decimals_eq_ok {price exponent : ℤ} {n : ℕ} (hprice : price < 2 ^ 63) :
    normalizeTo8Decimals price exponent = .ok n ↔
      0 < price ∧ n = normalized price exponent ∧ 0 < n ∧ n < 2 ^ 64 := by
  rw [normalizeTo8Decimals, require_bind_eq_ok, require_bind_eq_ok, normalized, scale,
    show exponent - -8 = exponent + 8 by omega]
  refine and_congr_right fun hpos ↦ ?_
  have hp : 0 < price.toNat := by omega
  have hfit : price.toNat < 2 ^ 63 := by omega
  rcases lt_trichotomy (exponent + 8) 0 with hneg | hzero | hgt
  · -- dividing: where the power overflows, the quotient is zero
    obtain ⟨k, hk⟩ : ∃ k : ℕ, -(exponent + 8) = k := ⟨_, (Int.toNat_of_nonneg (by omega)).symm⟩
    rw [if_neg (by omega), if_pos hneg, hk, Int.toNat_of_nonpos hneg.le, Int.toNat_natCast, pow_zero,
      Nat.mul_one]
    simp only [fromOption_bind_eq_ok, Checked.pow_eq_some, require_bind_eq_ok, pure_eq_ok]
    constructor
    · rintro ⟨-, _, ⟨rfl, -⟩, hquot, rfl⟩
      exact ⟨rfl, hquot, (Nat.div_le_self _ _).trans_lt (hfit.trans (by norm_num))⟩
    · rintro ⟨rfl, hquot, -⟩
      have hk20 : k < 20 := by
        by_contra hlarge
        rw [div_pow_eq_zero hfit (Nat.le_of_not_lt hlarge)] at hquot
        exact hquot.false
      have hpow : 10 ^ k < 2 ^ 64 :=
        Checked.pow_lt_of_le (by norm_num) (by omega : k ≤ 19) (by norm_num)
      exact ⟨by omega, _, ⟨rfl, hpow⟩, hquot, rfl⟩
  · rw [if_neg (by omega), if_neg (by omega), hzero, pure_eq_ok]
    constructor
    · rintro ⟨-, rfl⟩
      exact ⟨by simp, hp, hfit.trans (by norm_num)⟩
    · rintro ⟨rfl, -, -⟩
      exact ⟨by norm_num, by simp⟩
  · -- multiplying: the product bounds the power
    obtain ⟨k, hk⟩ : ∃ k : ℕ, exponent + 8 = k := ⟨_, (Int.toNat_of_nonneg hgt.le).symm⟩
    rw [if_pos hgt, hk, Int.toNat_of_nonpos (by omega : -(k : ℤ) ≤ 0), Int.toNat_natCast, pow_zero,
      Nat.div_one]
    simp only [fromOption_bind_eq_ok, fromOption_eq_ok, Checked.pow_eq_some, Checked.mul_eq_some]
    constructor
    · rintro ⟨-, _, ⟨rfl, -⟩, rfl, hlt⟩
      exact ⟨rfl, by positivity, hlt⟩
    · rintro ⟨rfl, -, hlt⟩
      obtain ⟨hpow, hk20⟩ := lt_of_mul_pow_lt hp hlt
      exact ⟨by omega, _, ⟨rfl, hpow⟩, rfl, hlt⟩

/-- **Normalisation is exact.** For every `i64` price and every exponent, it yields the integer part of
`price * 10 ^ (exponent + 8)` where this is a positive 64-bit number, and fails everywhere else. -/
theorem normalization_exact {price exponent : ℤ} {n : ℕ} (hprice : price < 2 ^ 63) :
    normalizeTo8Decimals price exponent = .ok n ↔
      0 < price ∧ 1 ≤ ⌊(price : ℚ) * 10 ^ (exponent + 8)⌋ ∧
        ⌊(price : ℚ) * 10 ^ (exponent + 8)⌋ ≤ 2 ^ 64 - 1 ∧
        (n : ℤ) = ⌊(price : ℚ) * 10 ^ (exponent + 8)⌋ := by
  rw [normalizeTo8Decimals_eq_ok hprice]
  refine and_congr_right fun hpos ↦ ?_
  have hcast : (price : ℚ) = (price.toNat : ℚ) := by
    rw [← Int.cast_natCast, Int.toNat_of_nonneg hpos.le]
  have hfloor : ⌊(price : ℚ) * 10 ^ (exponent + 8)⌋ = normalized price exponent := by
    rw [hcast]
    exact_mod_cast floor_mul_zpow_eq_scale 10 price.toNat (exponent + 8)
  rw [hfloor]
  constructor
  · rintro ⟨rfl, hn, hlt⟩
    exact ⟨by omega, by omega, rfl⟩
  · rintro ⟨hn, hle, heq⟩
    exact ⟨by omega, by omega, by omega⟩

theorem normalization_exact_sample :
    normalizeTo8Decimals 16297000 (-5) = .ok 16297000000 ∧
      ⌊((16297000 : ℤ) : ℚ) * 10 ^ ((-5 : ℤ) + 8)⌋ = 16297000000 := by
  have hok : normalizeTo8Decimals 16297000 (-5) = .ok 16297000000 := by decide
  obtain ⟨-, -, -, heq⟩ := (normalization_exact (by norm_num : (16297000 : ℤ) < 2 ^ 63)).mp hok
  exact ⟨hok, heq.symm⟩

/-! ## Limits

A ratio in whole basis points stays within a limit as long as it stays below the next basis point. -/

private theorem bps_le_iff {a b t : ℕ} (hb : 0 < b) : a / b ≤ t ↔ a < (t + 1) * b := by
  rw [← Nat.lt_succ_iff, Nat.div_lt_iff_lt_mul hb]

private theorem natCast_absDiff (m n : ℕ) : (absDiff m n : ℤ) = |(m : ℤ) - n| := by
  rw [absDiff]
  split
  · rename_i h
    rw [abs_of_neg (by omega), Nat.cast_sub h.le]
    omega
  · rename_i h
    rw [abs_of_nonneg (by omega), Nat.cast_sub (by omega)]

theorem validatePriceDeviation_eq_ok {submitted reference t : ℕ} {u : Unit} (href : 0 < reference)
    (ht : 0 < t) : validatePriceDeviation submitted reference t = .ok u ↔
      absDiff submitted reference * 10000 < 2 ^ 64 ∧
        absDiff submitted reference * 10000 < (t + 1) * reference := by
  rw [validatePriceDeviation, require_bind_eq_ok, if_neg ht.ne', fromOption_bind_eq_ok]
  simp only [fromOption_bind_eq_ok, require_eq_ok, Checked.mul_eq_some, Checked.div_eq_some,
    BPS_DENOMINATOR]
  constructor
  · rintro ⟨-, _, ⟨rfl, hfit⟩, _, ⟨-, rfl⟩, hle⟩
    exact ⟨hfit, (bps_le_iff href).mp hle⟩
  · rintro ⟨hfit, hlt⟩
    exact ⟨href, _, ⟨rfl, hfit⟩, _, ⟨href.ne', rfl⟩, (bps_le_iff href).mpr hlt⟩

theorem validateConfidence_eq_ok {price : ℤ} {conf t : ℕ} {u : Unit} (hprice : 0 < price)
    (ht : 0 < t) : validateConfidence price conf t = .ok u ↔
      conf * 10000 < 2 ^ 64 ∧ conf * 10000 < (t + 1) * price.natAbs := by
  have habs : 0 < price.natAbs := Int.natAbs_pos.mpr hprice.ne'
  rw [validateConfidence, if_neg ht.ne', require_bind_eq_ok]
  simp only [fromOption_bind_eq_ok, require_eq_ok, Checked.mul_eq_some, Checked.div_eq_some,
    BPS_DENOMINATOR]
  constructor
  · rintro ⟨-, _, ⟨rfl, hfit⟩, _, ⟨-, rfl⟩, hle⟩
    exact ⟨hfit, (bps_le_iff habs).mp hle⟩
  · rintro ⟨hfit, hlt⟩
    exact ⟨habs, _, ⟨rfl, hfit⟩, _, ⟨habs.ne', rfl⟩, (bps_le_iff habs).mpr hlt⟩

/-- **The limits are exact to whole basis points.** A pair is accepted exactly when the difference,
scaled to basis points, fits in 64 bits and stays below the basis point after the limit. -/
theorem limits_exact_in_whole_bps :
    (∀ submitted reference t : ℕ, 0 < reference → 0 < t →
      (validatePriceDeviation submitted reference t = .ok () ↔
        |(submitted : ℤ) - reference| * 10000 < 2 ^ 64 ∧
          |(submitted : ℤ) - reference| * 10000 < (t + 1) * reference)) ∧
    ∀ (price : ℤ) (conf t : ℕ), 0 < price → 0 < t →
      (validateConfidence price conf t = .ok () ↔
        conf * 10000 < 2 ^ 64 ∧ (conf : ℤ) * 10000 < (t + 1) * price) := by
  constructor
  · intro submitted reference t href ht
    rw [validatePriceDeviation_eq_ok href ht, ← natCast_absDiff]
    norm_cast
  · intro price conf t hprice ht
    rw [validateConfidence_eq_ok hprice ht]
    refine and_congr_right fun _ ↦ ?_
    obtain ⟨p, rfl⟩ := Int.eq_ofNat_of_zero_le hprice.le
    rw [Int.natAbs_natCast]
    norm_cast

theorem limits_exact_in_whole_bps_sample :
    validatePriceDeviation 30300000000 30000000000 100 = .ok () ∧
      validateConfidence 30000000000 300000000 100 = .ok () := by
  constructor
  · exact (limits_exact_in_whole_bps.1 30300000000 30000000000 100 (by norm_num) (by norm_num)).mpr
      ⟨by norm_num, by norm_num⟩
  · exact (limits_exact_in_whole_bps.2 30000000000 300000000 100 (by norm_num) (by norm_num)).mpr
      ⟨by norm_num, by norm_num⟩

/-- Neither limit is exact over the integers: at one percent, a difference short of `101` basis points
passes, and a difference of a few basis points of a very large price is refused. -/
theorem limits_not_exact :
    ¬(validatePriceDeviation 30302999999 30000000000 100 = .ok () ↔
      |(30302999999 : ℤ) - 30000000000| * 10000 ≤ 100 * 30000000000) ∧
    ¬(validatePriceDeviation (2 ^ 63 + 2 ^ 51) (2 ^ 63) 100 = .ok () ↔
      |(2 ^ 63 + 2 ^ 51 : ℤ) - 2 ^ 63| * 10000 ≤ 100 * 2 ^ 63) ∧
    ¬(validateConfidence 30000000000 302999999 100 = .ok () ↔
      302999999 * 10000 ≤ 100 * (30000000000 : ℤ)) ∧
    ¬(validateConfidence (2 ^ 62) (2 ^ 51) 100 = .ok () ↔
      2 ^ 51 * 10000 ≤ 100 * (2 ^ 62 : ℤ)) := by
  refine ⟨?_, ?_, ?_, ?_⟩
  · have hok : validatePriceDeviation 30302999999 30000000000 100 = .ok () := by decide
    intro h
    exact absurd (h.mp hok) (by norm_num)
  · have herr : validatePriceDeviation (2 ^ 63 + 2 ^ 51) (2 ^ 63) 100 = .error (.error .mathOverflow) := by
      decide
    intro h
    have hok := h.mpr (by norm_num)
    rw [herr] at hok
    exact nomatch hok
  · have hok : validateConfidence 30000000000 302999999 100 = .ok () := by decide
    intro h
    exact absurd (h.mp hok) (by norm_num)
  · have herr : validateConfidence (2 ^ 62) (2 ^ 51) 100 = .error (.error .mathOverflow) := by decide
    intro h
    have hok := h.mpr (by norm_num)
    rw [herr] at hok
    exact nomatch hok

end Oracle

end OptionsProtocol
