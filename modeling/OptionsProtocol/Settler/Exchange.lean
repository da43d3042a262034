import OptionsProtocol.Settler.Effects

/-!
# What an exercise exchanges

Physical delivery pays a user what the series owes in the asset it is not collateralised in. The settler
computes this contra amount and tests the moneyness with formulas of its own. The contra amount of a
series is the collateral the controller would require for the same amount of the series of the other
side, and the settler's test accepts exactly where the controller pays the required collateral out.
-/

namespace OptionsProtocol

namespace Settler

open Except
open Controller (IsItm getRequiredCollateral getPayout)

variable {k p d n r : ℕ} {isPut : Bool} {clock : ℤ} {info : Controller.OTokenInfo}

/-! ## The contra amount -/

/-- The decimals the settler admits for the contra asset. -/
def ContraDecimals (isPut : Bool) (d : ℕ) : Prop := if isPut then 8 ≤ d ∧ d ≤ 18 else 6 ≤ d ∧ d ≤ 16

/-- **The contra amount is the collateral of the other side.** -/
theorem computeContraAmount_eq_ok : computeContraAmount n k isPut d = .ok r ↔
    ContraDecimals isPut d ∧ getRequiredCollateral k (!isPut) d n = .ok r ∧ 0 < r := by
  cases isPut with
  | true =>
    simp only [computeContraAmount, if_true, Bool.not_true, getRequiredCollateral, Bool.false_eq_true,
      if_false, ContraDecimals, require_bind_eq_ok, fromOption_bind_eq_ok, pure_eq_ok]
    refine and_congr_right fun hd ↦ ?_
    -- the factor fits in 64 bits, and so the product fits in 128 where the result fits in 64
    have hpow : 10 ^ (d - 8) < 2 ^ 64 :=
      Checked.pow_lt_of_le (by norm_num) (by omega : d - 8 ≤ 10) (by norm_num)
    simp only [if_pos hd.1, fromOption_bind_eq_ok, fromOption_eq_ok, Checked.pow_eq_some,
      Checked.mul_eq_some, Checked.cast_eq_some]
    constructor
    · rintro ⟨_, ⟨rfl, -⟩, _, ⟨rfl, -⟩, _, ⟨rfl, hlt⟩, hpos, rfl⟩
      exact ⟨⟨_, ⟨rfl, hpow⟩, rfl, hlt⟩, hpos⟩
    · rintro ⟨⟨_, ⟨rfl, -⟩, rfl, hlt⟩, hpos⟩
      exact ⟨_, ⟨rfl, hpow.trans (by norm_num)⟩, _, ⟨rfl, hlt.trans (by norm_num)⟩, _, ⟨rfl, hlt⟩, hpos,
        rfl⟩
  | false =>
    simp only [computeContraAmount, Bool.false_eq_true, if_false, Bool.not_false, getRequiredCollateral,
      if_true, ContraDecimals, require_bind_eq_ok, fromOption_bind_eq_ok, pure_eq_ok]
    refine and_congr_right fun hd ↦ ?_
    have hpow : 10 ^ (16 - d) < 2 ^ 128 :=
      Checked.pow_lt_of_le (by norm_num) (Nat.sub_le 16 d) (by norm_num)
    simp only [fromOption_eq_ok, Checked.pow_eq_some, Checked.mul_eq_some, Checked.sub_eq_some,
      Checked.div_eq_some, Checked.cast_eq_some]
    constructor
    · rintro ⟨_, ⟨rfl, -⟩, _, ⟨rfl, hmul⟩, _, ⟨hne, rfl⟩, _, ⟨rfl, hlt⟩, hpos, rfl⟩
      exact ⟨⟨_, ⟨rfl, hmul⟩, 16 - d, by omega, _, ⟨rfl, hpow⟩, _, ⟨hne, rfl⟩, rfl, hlt⟩, hpos⟩
    · rintro ⟨⟨_, ⟨rfl, hmul⟩, e, he, _, ⟨rfl, -⟩, _, ⟨hne, rfl⟩, rfl, hlt⟩, hpos⟩
      obtain rfl : e = 16 - d := by omega
      exact ⟨_, ⟨rfl, hpow⟩, _, ⟨rfl, hmul⟩, _, ⟨hne, rfl⟩, _, ⟨rfl, hlt⟩, hpos, rfl⟩

/-! ## The moneyness -/

theorem validateItm_eq_notItm (hexpired : info.expiry ≤ clock) (hprice : 0 < info.expiryPrice) :
    validateItm clock info = .error (err .optionNotITM) ↔
      ¬IsItm info.strikePrice info.expiryPrice info.isPut := by
  rw [validateItm, require, if_pos hexpired, require, if_pos hprice]
  cases hput : info.isPut with
  | true => exact require_eq_error.trans (and_iff_left rfl)
  | false => exact require_eq_error.trans (and_iff_left rfl)

/-- The largest amount has no required collateral of zero, except for a put with a strike of zero. -/
theorem getRequiredCollateral_max_ne_zero (hk : isPut = true → 0 < k) :
    getRequiredCollateral k isPut d (2 ^ 64 - 1) ≠ .ok 0 := by
  intro h
  obtain ⟨-, hzero⟩ := Controller.getRequiredCollateral_eq_ok.mp h
  rw [Controller.required, FloorSum.scale, eq_comm,
    Nat.div_eq_zero_iff_lt (Controller.scaleDen_pos isPut d)] at hzero
  have hnum : 1 ≤ Controller.scaleNum k isPut d := by
    cases isPut with
    | true => exact hk rfl
    | false => exact Nat.one_le_pow _ _ (by norm_num)
  have hden : Controller.scaleDen isPut d ≤ 10 ^ 16 := by
    cases isPut with
    | true => exact Nat.pow_le_pow_right (by norm_num) (Nat.sub_le 16 d)
    | false => exact Nat.pow_le_pow_right (by norm_num) (by omega)
  have hmul : 2 ^ 64 - 1 ≤ (2 ^ 64 - 1) * Controller.scaleNum k isPut d :=
    Nat.le_mul_of_pos_right _ hnum
  norm_num at hden hmul hzero
  omega

/-- In the money the payout is the required collateral, out of the money it is zero, whatever the
amount; each is the case for all amounts of 64 bits only on its side. -/
theorem isItm_iff_getPayout (hk : 0 < k) :
    (IsItm k p isPut ↔ ∀ n < 2 ^ 64, getPayout k p isPut d n = getRequiredCollateral k isPut d n) ∧
    (¬IsItm k p isPut ↔ ∀ n < 2 ^ 64, getPayout k p isPut d n = .ok 0) := by
  have hmax : getRequiredCollateral k isPut d (2 ^ 64 - 1) ≠ .ok 0 :=
    getRequiredCollateral_max_ne_zero fun _ ↦ hk
  simp only [Controller.getPayout_eq]
  constructor
  · constructor
    · intro h n _
      rw [if_pos h]
    · intro h
      by_contra hitm
      have heq := h (2 ^ 64 - 1) (by norm_num)
      rw [if_neg hitm] at heq
      exact hmax heq.symm
  · constructor
    · intro h n _
      rw [if_neg h]
    · intro h hitm
      have heq := h (2 ^ 64 - 1) (by norm_num)
      rw [if_pos hitm] at heq
      exact hmax heq

/-- **The two programs agree on what an exercise exchanges.** The contra amount of a series is the required
collateral of the other side, wherever the settler admits the decimals and the result is positive; and a
series that has a price after its expiry is exercised exactly where the controller pays out its required
collateral, and refused exactly where it pays nothing. -/
theorem exchange_agrees :
    (∀ amount strike d r, 6 ≤ d → d ≤ 16 →
      (computeContraAmount amount strike false d = .ok r ↔
        getRequiredCollateral strike true d amount = .ok r ∧ 0 < r)) ∧
    (∀ amount strike d r, 8 ≤ d → d ≤ 18 →
      (computeContraAmount amount strike true d = .ok r ↔
        getRequiredCollateral strike false d amount = .ok r ∧ 0 < r)) ∧
    ∀ (clock : ℤ) (info : Controller.OTokenInfo), info.expiry ≤ clock → 0 < info.expiryPrice →
      ((validateItm clock info = .ok () ↔ IsItm info.strikePrice info.expiryPrice info.isPut) ∧
        (validateItm clock info = .error (err .optionNotITM) ↔
          ¬IsItm info.strikePrice info.expiryPrice info.isPut)) ∧
      (∀ n, getPayout info.strikePrice info.expiryPrice info.isPut info.collateralDecimals n =
        if IsItm info.strikePrice info.expiryPrice info.isPut then
          getRequiredCollateral info.strikePrice info.isPut info.collateralDecimals n
        else .ok 0) ∧
      (0 < info.strikePrice →
        (validateItm clock info = .ok () ↔ ∀ n < 2 ^ 64,
          getPayout info.strikePrice info.expiryPrice info.isPut info.collateralDecimals n =
            getRequiredCollateral info.strikePrice info.isPut info.collateralDecimals n) ∧
        (validateItm clock info = .error (err .optionNotITM) ↔ ∀ n < 2 ^ 64,
          getPayout info.strikePrice info.expiryPrice info.isPut info.collateralDecimals n = .ok 0)) := by
  refine ⟨?_, ?_, ?_⟩
  · intro amount strike d r hlow hhigh
    have hd : ContraDecimals false d := ⟨hlow, hhigh⟩
    exact computeContraAmount_eq_ok.trans (and_iff_right hd)
  · intro amount strike d r hlow hhigh
    have hd : ContraDecimals true d := ⟨hlow, hhigh⟩
    exact computeContraAmount_eq_ok.trans (and_iff_right hd)
  · intro clock info hexpired hprice
    have hok : validateItm clock info = .ok () ↔
        IsItm info.strikePrice info.expiryPrice info.isPut := by
      rw [validateItm_eq_ok, and_iff_right hexpired, and_iff_right hprice]
    have hnot := validateItm_eq_notItm hexpired hprice
    refine ⟨⟨hok, hnot⟩, fun n ↦ Controller.getPayout_eq, fun hk ↦ ?_⟩
    obtain ⟨hpays, hzero⟩ := @isItm_iff_getPayout info.strikePrice info.expiryPrice
      info.collateralDecimals info.isPut hk
    exact ⟨hok.trans hpays, hnot.trans hzero⟩

/-- One oToken, of eight decimals, at a strike of `5`: a put is exercised for one unit of the underlying, a
call for its strike. -/
theorem exchange_agrees_sample :
    computeContraAmount 100000000 500000000 true 8 = .ok 100000000 ∧
      computeContraAmount 100000000 500000000 false 6 = .ok 5000000 ∧
      validateItm 100 ⟨20, 15, 10, 10, 500000000, 100, true, 6, 400000000⟩ = .ok () := by
  refine ⟨?_, ?_, ?_⟩
  · exact (exchange_agrees.2.1 100000000 500000000 8 100000000 (by norm_num) (by norm_num)).mpr
      ⟨by decide, by norm_num⟩
  · exact (exchange_agrees.1 100000000 500000000 6 5000000 (by norm_num) (by norm_num)).mpr
      ⟨by decide, by norm_num⟩
  · exact (exchange_agrees.2.2 100 _ (by norm_num) (by norm_num)).1.1.mpr (by decide)

end Settler

end OptionsProtocol
