import Mathlib.Tactic.NormNum
import Mathlib.Tactic.Positivity
import OptionsProtocol.Library.FloorSum
import OptionsProtocol.Runtime.Program

/-!
# Required collateral and payouts

The two pure functions every obligation of the controller is computed with. Amounts and strikes
carry eight decimals, so the collateral of `n` oTokens is `n` scaled by a fixed rational that
depends on the series only and rounded down: `strike_price / 10 ^ (16 - decimals)` for a put and
`10 ^ (decimals - 8)`, of either sign, for a call. The checked intermediate steps add when the
computation fails, not what it yields.

The payout of a series is all of the required collateral when it expires in the money, and nothing
otherwise.
-/

namespace OptionsProtocol

/-- The controller's error codes. -/
inductive ControllerError where
  | zeroAddress
  | zeroAmount
  | vaultSettled
  | collateralMismatch
  | otokenMismatch
  | insufficientCollateral
  | notExpired
  | expiryPriceNotSet
  | emptyVault
  | systemPartiallyPaused
  | systemFullyPaused
  | unauthorized
  | mathOverflow
  | expiryPriceAlreadySet
  | invalidDecimals
  | optionExpired
  | notFullyPaused
  | oTokenNotWhitelisted
  | collateralCreditMismatch
  deriving DecidableEq, Repr

namespace Controller

open Except FloorSum

abbrev Error := Failure ControllerError

/-- `get_required_collateral`. The exponent `8 + 8 - collateral_decimals` and the powers are not
checked operations, so they abort instead of returning `MathOverflow`. -/
def getRequiredCollateral (strikePrice : ℕ) (isPut : Bool) (collateralDecimals amount : ℕ) :
    Except Error ℕ :=
  if isPut then do
    let numerator ← fromOption (Checked.mul 128 amount strikePrice) (.error .mathOverflow)
    let exponent ← fromOption (Checked.sub (8 + 8) collateralDecimals) .panic
    let base ← fromOption (Checked.pow 128 10 exponent) .panic
    let result ← fromOption (Checked.div numerator base) (.error .mathOverflow)
    fromOption (Checked.cast 64 result) (.error .mathOverflow)
  else if 8 ≤ collateralDecimals then do
    let factor ← fromOption (Checked.pow 64 10 (collateralDecimals - 8)) .panic
    fromOption (Checked.mul 64 amount factor) (.error .mathOverflow)
  else do
    let factor ← fromOption (Checked.pow 64 10 (8 - collateralDecimals)) .panic
    fromOption (Checked.div amount factor) (.error .mathOverflow)

/-- The series expired in the money. -/
def IsItm (strikePrice expiryPrice : ℕ) (isPut : Bool) : Prop :=
  if isPut then expiryPrice < strikePrice else strikePrice < expiryPrice

instance (k p : ℕ) (isPut : Bool) : Decidable (IsItm k p isPut) :=
  inferInstanceAs (Decidable (ite _ _ _))

/-- `get_payout`. -/
def getPayout (strikePrice expiryPrice : ℕ) (isPut : Bool) (collateralDecimals amount : ℕ) :
    Except Error ℕ :=
  if isPut then
    if expiryPrice ≥ strikePrice then .ok 0
    else getRequiredCollateral strikePrice isPut collateralDecimals amount
  else if expiryPrice ≤ strikePrice then .ok 0
  else getRequiredCollateral strikePrice isPut collateralDecimals amount

/-! ## What they compute -/

/-- The numerator of the scale of a series. -/
def scaleNum (strikePrice : ℕ) (isPut : Bool) (collateralDecimals : ℕ) : ℕ :=
  if isPut then strikePrice else 10 ^ (collateralDecimals - 8)

/-- The denominator of the scale of a series. -/
def scaleDen (isPut : Bool) (collateralDecimals : ℕ) : ℕ :=
  if isPut then 10 ^ (16 - collateralDecimals) else 10 ^ (8 - collateralDecimals)

theorem scaleDen_pos (isPut : Bool) (d : ℕ) : 0 < scaleDen isPut d := by
  rw [scaleDen]
  split <;> positivity

/-- The collateral `amount` oTokens require, as an exact floored product. -/
def required (strikePrice : ℕ) (isPut : Bool) (collateralDecimals amount : ℕ) : ℕ :=
  scale (scaleNum strikePrice isPut collateralDecimals) (scaleDen isPut collateralDecimals) amount

/-- The inputs on which `get_required_collateral` succeeds. -/
def Computable (strikePrice : ℕ) (isPut : Bool) (collateralDecimals amount : ℕ) : Prop :=
  if isPut then
    amount * strikePrice < 2 ^ 128 ∧ collateralDecimals ≤ 16 ∧
      required strikePrice isPut collateralDecimals amount < 2 ^ 64
  else
    collateralDecimals < 8 ∨ 10 ^ (collateralDecimals - 8) < 2 ^ 64 ∧
      required strikePrice isPut collateralDecimals amount < 2 ^ 64

variable {k p d n m r : ℕ} {isPut : Bool}

/-- **The value of `get_required_collateral`**, and when there is one. -/
theorem getRequiredCollateral_eq_ok :
    getRequiredCollateral k isPut d n = .ok r ↔ Computable k isPut d n ∧ r = required k isPut d n := by
  cases isPut with
  | true =>
    simp only [getRequiredCollateral, if_true, fromOption_bind_eq_ok, fromOption_eq_ok,
      Checked.mul_eq_some, Checked.sub_eq_some, Checked.pow_eq_some, Checked.div_eq_some,
      Checked.cast_eq_some, Computable, required, scale, scaleNum, scaleDen]
    constructor
    · rintro ⟨_, ⟨rfl, hmul⟩, e, he, _, ⟨rfl, -⟩, _, ⟨-, rfl⟩, rfl, hlt⟩
      obtain rfl : e = 16 - d := by omega
      exact ⟨⟨hmul, by omega, hlt⟩, rfl⟩
    · rintro ⟨⟨hmul, hd, hlt⟩, rfl⟩
      have hpow : 10 ^ (16 - d) < 2 ^ 128 :=
        Checked.pow_lt_of_le (by norm_num) (Nat.sub_le 16 d) (by norm_num)
      exact ⟨_, ⟨rfl, hmul⟩, 16 - d, by omega, _, ⟨rfl, hpow⟩, _, ⟨by positivity, rfl⟩, rfl, hlt⟩
  | false =>
    by_cases hd : 8 ≤ d
    · simp only [getRequiredCollateral, Bool.false_eq_true, if_false, if_pos hd,
        fromOption_bind_eq_ok, fromOption_eq_ok, Checked.pow_eq_some, Checked.mul_eq_some,
        Computable, required, scale, scaleNum, scaleDen, Nat.sub_eq_zero_of_le hd, pow_zero,
        Nat.div_one]
      constructor
      · rintro ⟨_, ⟨rfl, hpow⟩, rfl, hlt⟩
        exact ⟨Or.inr ⟨hpow, hlt⟩, rfl⟩
      · rintro ⟨hlt | ⟨hpow, hlt⟩, rfl⟩
        · omega
        · exact ⟨_, ⟨rfl, hpow⟩, rfl, hlt⟩
    · have hpow : 10 ^ (8 - d) < 2 ^ 64 :=
        Checked.pow_lt_of_le (by norm_num) (Nat.sub_le 8 d) (by norm_num)
      simp only [getRequiredCollateral, Bool.false_eq_true, if_false, if_neg hd,
        fromOption_bind_eq_ok, fromOption_eq_ok, Checked.pow_eq_some, Checked.div_eq_some,
        Computable, required, scale, scaleNum, scaleDen,
        Nat.sub_eq_zero_of_le (Nat.le_of_not_le hd), pow_zero, Nat.mul_one]
      constructor
      · rintro ⟨_, ⟨rfl, -⟩, -, rfl⟩
        exact ⟨Or.inl (by omega), rfl⟩
      · rintro ⟨-, rfl⟩
        exact ⟨_, ⟨rfl, hpow⟩, by positivity, rfl⟩

theorem required_mono (h : m ≤ n) : required k isPut d m ≤ required k isPut d n := scale_mono h

@[simp] theorem required_zero : required k isPut d 0 = 0 := scale_zero _ _

theorem Computable.mono (h : Computable k isPut d n) (hmn : m ≤ n) : Computable k isPut d m := by
  have hreq : required k isPut d m ≤ required k isPut d n := required_mono hmn
  cases isPut with
  | true =>
    obtain ⟨hmul, hd, hlt⟩ := h
    exact ⟨(Nat.mul_le_mul_right k hmn).trans_lt hmul, hd, hreq.trans_lt hlt⟩
  | false =>
    rcases h with hd | ⟨hpow, hlt⟩
    · exact Or.inl hd
    · exact Or.inr ⟨hpow, hreq.trans_lt hlt⟩

/-- An amount whose result fits can be computed: the intermediate product is bounded by the result. -/
theorem Computable.of_required_lt (h : Computable k isPut d m)
    (hlt : required k isPut d n < 2 ^ 64) : Computable k isPut d n := by
  cases isPut with
  | true =>
    obtain ⟨-, hd, -⟩ := h
    refine ⟨?_, hd, hlt⟩
    have hden : 0 < 10 ^ (16 - d) := by positivity
    have hpow : 10 ^ (16 - d) ≤ 10 ^ 16 := Nat.pow_le_pow_right (by norm_num) (by omega)
    have hquot : n * k / 10 ^ (16 - d) < 2 ^ 64 := hlt
    have hprod : n * k < 2 ^ 64 * 10 ^ (16 - d) := (Nat.div_lt_iff_lt_mul hden).mp hquot
    calc n * k < 2 ^ 64 * 10 ^ (16 - d) := hprod
      _ ≤ 2 ^ 64 * 10 ^ 16 := Nat.mul_le_mul_left _ hpow
      _ ≤ 2 ^ 128 := by norm_num
  | false => exact h.imp id fun hc ↦ ⟨hc.1, hlt⟩

theorem getRequiredCollateral_ok (h : Computable k isPut d n) :
    getRequiredCollateral k isPut d n = .ok (required k isPut d n) :=
  getRequiredCollateral_eq_ok.mpr ⟨h, rfl⟩

/-- The payout of `amount` oTokens: all of the required collateral in the money. -/
def payoutOf (strikePrice expiryPrice : ℕ) (isPut : Bool) (collateralDecimals amount : ℕ) : ℕ :=
  if IsItm strikePrice expiryPrice isPut then required strikePrice isPut collateralDecimals amount
  else 0

theorem getPayout_eq : getPayout k p isPut d n =
    if IsItm k p isPut then getRequiredCollateral k isPut d n else .ok 0 := by
  cases isPut with
  | true =>
    by_cases h : p < k
    · simp [getPayout, IsItm, h]
    · simp [getPayout, IsItm, h, Nat.le_of_not_lt h]
  | false =>
    by_cases h : k < p
    · simp [getPayout, IsItm, h]
    · simp [getPayout, IsItm, h, Nat.le_of_not_lt h]

/-- **The value of `get_payout`**, and when there is one. -/
theorem getPayout_eq_ok : getPayout k p isPut d n = .ok r ↔
    (IsItm k p isPut → Computable k isPut d n) ∧ r = payoutOf k p isPut d n := by
  rw [getPayout_eq, payoutOf]
  split
  · rename_i h
    rw [getRequiredCollateral_eq_ok]
    simp [h]
  · rename_i h
    rw [Except.ok.injEq]
    simp [h, eq_comm]

theorem payoutOf_le_required : payoutOf k p isPut d n ≤ required k isPut d n := by
  rw [payoutOf]
  split
  · exact le_rfl
  · exact Nat.zero_le _

@[simp] theorem payoutOf_zero : payoutOf k p isPut d 0 = 0 := by
  rw [payoutOf, required_zero, ite_self]

end Controller

end OptionsProtocol
