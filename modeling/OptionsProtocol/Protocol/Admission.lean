import OptionsProtocol.Protocol.Mirror

/-!
# What a series must be for its collateral to be computed

Two checks admit a series: the factory requires a positive strike, the controller at most eighteen
decimals. The formula for puts subtracts the decimals from sixteen, so that a put on a collateral with
seventeen or eighteen decimals is admitted and can never be minted. Every other admitted series has the
exact value of the formula as its required collateral, wherever that value is a 64-bit number.
-/

namespace OptionsProtocol

namespace Controller

open Except FloorSum

variable {k d n : ℕ} {isPut : Bool}

/-- The documented formula, over the rationals and rounded down. -/
def collateralValue (strikePrice : ℕ) (isPut : Bool) (collateralDecimals amount : ℕ) : ℤ :=
  if isPut then ⌊((amount * strikePrice : ℕ) : ℚ) / 10 ^ (16 - collateralDecimals : ℤ)⌋
  else ⌊(amount : ℚ) * 10 ^ (collateralDecimals - 8 : ℤ)⌋

theorem collateralValue_eq_required (h : isPut = true → d ≤ 16) :
    collateralValue k isPut d n = required k isPut d n := by
  cases isPut with
  | true =>
    have hd : (16 - d : ℤ).toNat = 16 - d ∧ (-(16 - d : ℤ)).toNat = 0 := by
      have := h rfl
      omega
    have hfloor := floor_mul_zpow_eq_scale 10 (n * k) (-(16 - d : ℤ))
    rw [neg_neg, hd.1, hd.2, zpow_neg, ← div_eq_mul_inv] at hfloor
    simpa [collateralValue, required, scale, scaleNum, scaleDen] using hfloor
  | false =>
    have hd : (d - 8 : ℤ).toNat = d - 8 ∧ (-(d - 8 : ℤ)).toNat = 8 - d := by omega
    have hfloor := floor_mul_zpow_eq_scale 10 n (d - 8 : ℤ)
    rw [hd.1, hd.2] at hfloor
    simpa [collateralValue, required, scale, scaleNum, scaleDen] using hfloor

/-- The computation fails with `MathOverflow` exactly beyond 64 bits, and yields the value otherwise. -/
def ExactlyComputed (strikePrice : ℕ) (isPut : Bool) (collateralDecimals amount : ℕ) : Prop :=
  (getRequiredCollateral strikePrice isPut collateralDecimals amount = .error (.error .mathOverflow) ↔
    2 ^ 64 - 1 < collateralValue strikePrice isPut collateralDecimals amount) ∧
  (collateralValue strikePrice isPut collateralDecimals amount ≤ 2 ^ 64 - 1 →
    ∃ r : ℕ, getRequiredCollateral strikePrice isPut collateralDecimals amount = .ok r ∧
      (r : ℤ) = collateralValue strikePrice isPut collateralDecimals amount)

theorem getRequiredCollateral_failsOnly (hd : d ≤ 18) (hput : isPut = true → d ≤ 16) :
    FailsOnly (· = .error .mathOverflow) (getRequiredCollateral k isPut d n) := by
  cases isPut with
  | true =>
    rw [getRequiredCollateral, if_pos rfl]
    refine FailsOnly.fromOption_bind rfl fun _ _ ↦ ?_
    refine FailsOnly.fromOption_bind_of_some
      (Checked.sub_eq_some.mpr (by have := hput rfl; omega : 8 + 8 = d + (16 - d))) ?_
    refine FailsOnly.fromOption_bind_of_some
      (Checked.pow_of_le (by norm_num) (Nat.sub_le 16 d) (by norm_num)) ?_
    refine FailsOnly.fromOption_bind rfl fun _ _ ↦ ?_
    exact FailsOnly.fromOption fun _ ↦ rfl
  | false =>
    rw [getRequiredCollateral, if_neg (by decide)]
    split
    · refine FailsOnly.fromOption_bind_of_some
        (Checked.pow_of_le (by norm_num) (by omega : d - 8 ≤ 10) (by norm_num)) ?_
      exact FailsOnly.fromOption fun _ ↦ rfl
    · refine FailsOnly.fromOption_bind_of_some
        (Checked.pow_of_le (by norm_num) (Nat.sub_le 8 d) (by norm_num)) ?_
      exact FailsOnly.fromOption fun _ ↦ rfl

/-- Within the range of the exponent nothing but the size of the result stops the computation. -/
theorem computable_of_required_lt (hk : k < 2 ^ 64) (hn : n < 2 ^ 64) (hd : d ≤ 18)
    (hput : isPut = true → d ≤ 16) (hlt : required k isPut d n < 2 ^ 64) :
    Computable k isPut d n := by
  cases isPut with
  | true =>
    refine ⟨?_, hput rfl, hlt⟩
    calc n * k < 2 ^ 64 * 2 ^ 64 := Nat.mul_lt_mul'' hn hk
      _ = 2 ^ 128 := by norm_num
  | false =>
    have hpow : 10 ^ (d - 8) < 2 ^ 64 :=
      Checked.pow_lt_of_le (by norm_num) (by omega : d - 8 ≤ 10) (by norm_num)
    exact .inr ⟨hpow, hlt⟩

theorem Computable.required_lt (h : Computable k isPut d n) (hn : n < 2 ^ 64) :
    required k isPut d n < 2 ^ 64 := by
  cases isPut with
  | true => exact h.2.2
  | false =>
    rcases h with hd | ⟨-, hlt⟩
    · rw [required, scale, scaleNum, if_neg (by decide), Nat.sub_eq_zero_of_le hd.le, pow_zero,
        Nat.mul_one]
      exact (Nat.div_le_self _ _).trans_lt hn
    · exact hlt

theorem exactlyComputed (hk : k < 2 ^ 64) (hn : n < 2 ^ 64) (hd : d ≤ 18)
    (hput : isPut = true → d ≤ 16) : ExactlyComputed k isPut d n := by
  have hvalue : collateralValue k isPut d n = required k isPut d n := collateralValue_eq_required hput
  by_cases hlt : required k isPut d n < 2 ^ 64
  · have hok : getRequiredCollateral k isPut d n = .ok (required k isPut d n) :=
      getRequiredCollateral_ok (computable_of_required_lt hk hn hd hput hlt)
    constructor
    · rw [hok]
      exact iff_of_false (by simp) (by omega)
    · intro _
      exact ⟨_, hok, hvalue.symm⟩
  · have herror : getRequiredCollateral k isPut d n = .error (.error .mathOverflow) := by
      cases hr : getRequiredCollateral k isPut d n with
      | ok r => exact absurd ((getRequiredCollateral_eq_ok.mp hr).1.required_lt hn) hlt
      | error e => rw [getRequiredCollateral_failsOnly hd hput e hr]
    constructor
    · exact iff_of_true herror (by omega)
    · intro hle
      omega

/-- A put with more than sixteen decimals aborts whatever the amount. -/
theorem getRequiredCollateral_of_lt (hk : k < 2 ^ 64) (hn : n < 2 ^ 64) (hd : 16 < d) :
    getRequiredCollateral k true d n = .error .panic := by
  have hmul : Checked.mul 128 n k = some (n * k) := by
    refine Checked.mul_eq_some.mpr ⟨rfl, ?_⟩
    calc n * k < 2 ^ 64 * 2 ^ 64 := Nat.mul_lt_mul'' hn hk
      _ = 2 ^ 128 := by norm_num
  have hsub : Checked.sub (8 + 8) d = none := if_neg (by omega)
  rw [getRequiredCollateral, if_pos rfl, hmul, hsub]
  rfl

/-- **When the computation is exact.** -/
theorem exactlyComputed_iff (hk : k < 2 ^ 64) (hn : n < 2 ^ 64) (hd : d ≤ 18) :
    ExactlyComputed k isPut d n ↔ ¬(isPut = true ∧ 16 < d) := by
  constructor
  · rintro ⟨hiff, hvalue⟩ ⟨rfl, hlt⟩
    rw [getRequiredCollateral_of_lt hk hn hlt] at hiff hvalue
    by_cases hle : collateralValue k true d n ≤ 2 ^ 64 - 1
    · obtain ⟨r, hr, -⟩ := hvalue hle
      exact nomatch hr
    · exact absurd (hiff.mpr (by omega)) (by simp)
  · intro h
    exact exactlyComputed hk hn hd fun hput ↦ by
      by_contra hgt
      exact h ⟨hput, by omega⟩

end Controller

namespace Protocol

open OtokenFactory (SeriesAddresses)
open Controller (ExactlyComputed getRequiredCollateral)

variable {D : Deployment} {T : TokenProgram} {A : SeriesAddresses D} {s s' s₀ : State} {l : Label}
  {tr : List (Transition State Label)} {o : Pubkey} {info : Controller.OTokenInfo}

/-! ## What the two checks establish -/

/-- Strikes are 64-bit numbers, and decimals are within the limit of the check. -/
structure Admits (s : State) : Prop where
  strike : ∀ {terms otoken}, s.factory.otokens.lookup terms = some otoken → otoken.strikePrice < 2 ^ 64
  decimals : ∀ {o info}, s.controller.otokenInfos.lookup o = some info → info.collateralDecimals ≤ 18

theorem Initial.admits (h : Initial D s) : Admits s where
  strike hlookup := by
    rw [h.factory.otokens, Finmap.lookup_empty] at hlookup
    exact absurd hlookup (by simp)
  decimals hlookup := by
    rw [h.controller.otokenInfos, Finmap.lookup_empty] at hlookup
    exact absurd hlookup (by simp)

theorem Step.admits (hf : OtokenFactory.WellFormed A s.factory) (ha : Admits s)
    (h : Step D T A s l s') : Admits s' := by
  constructor
  · intro terms otoken hlookup
    cases h with
    | @factory ix f L h =>
      rcases OtokenFactory.cases_of_exec h with ⟨-, hadmin⟩ | ⟨ctx, config, rfl, he⟩
      · rw [hadmin.otokens_eq] at hlookup
        exact ha.strike hlookup
      · rw [he.state_eq] at hlookup
        rcases Store.lookup_insert_eq_some.mp hlookup with ⟨-, rfl⟩ | ⟨-, hold⟩
        · exact ctx.strikePrice.toNat_lt
        · exact ha.strike hold
    | _ => exact ha.strike hlookup
  · intro o info hi
    rcases h.info_cases hf hi with ⟨info₀, hi₀, hlater⟩ | ⟨ctx, -, -, he⟩
    · have hsame : info.collateralDecimals = info₀.collateralDecimals := by
        rcases hlater with rfl | ⟨-, p, -, rfl⟩
        · rfl
        · rfl
      rw [hsame]
      exact ha.decimals hi₀
    · exact he.decimals_le

theorem admits_of_run (hrun : Run (Step D T A) s₀ tr s) (h₀ : Initial D s₀) : Admits s := by
  have hboth : OtokenFactory.WellFormed A s.factory ∧ Admits s := by
    refine Run.invariant (I := fun s ↦ OtokenFactory.WellFormed A s.factory ∧ Admits s)
      ⟨h₀.factory.wellFormed, h₀.admits⟩ ?_ hrun
    intro u m u' hu hs
    exact ⟨hs.factory_wellFormed hu.1, hs.admits hu.1 hu.2⟩
  exact hboth.2

/-- **The collateral of an admitted series is computed exactly, unless it is a put on a collateral with
more than sixteen decimals.** -/
theorem collateral_exact_iff (hrun : Run (Step D T A) s₀ tr s) (h₀ : Initial D s₀)
    (hi : s.controller.otokenInfos.lookup o = some info) {amount : ℕ} (hamount : amount < 2 ^ 64) :
    ExactlyComputed info.strikePrice info.isPut info.collateralDecimals amount ↔
      ¬(info.isPut = true ∧ 16 < info.collateralDecimals) := by
  have hadmits : Admits s := admits_of_run hrun h₀
  have hrecord := (mirrored_of_run hrun h₀ o info hi).record
  exact Controller.exactlyComputed_iff (hadmits.strike hrecord) hamount (hadmits.decimals hi)

section Sample

theorem collateral_exact_iff_sample :
    ExactlyComputed 5 false 6 (2 ^ 64 - 1) := by
  have hrun : Run (Step sampleDeployment splToken sampleAddresses) sampleState
      (sampleTrace sampleSetup) (sampleRun sampleSetup) :=
    sampleRun_run (by decide +kernel) (by decide +kernel)
  have hi : (sampleRun sampleSetup).controller.otokenInfos.lookup 20 =
      some ⟨20, 10, 15, 10, 5, 100, false, 6, 0⟩ := by decide +kernel
  exact (collateral_exact_iff hrun sampleState_initial hi (by norm_num)).mpr (by decide)

/-- The sample state with another asset, of eighteen decimals and not yet issued. -/
def fineState : State :=
  { sampleState with controller := { Controller.sampleState with
      ledger := ⟨∅, Finmap.insert 10 ⟨none, 0, 18⟩ ∅⟩ } }

theorem fineState_initial : Initial sampleDeployment fineState where
  controller :=
    { config := rfl, vaultCounters := rfl, vaults := rfl, otokenInfos := rfl, log := rfl
      conserved := by
        refine Ledger.conserved_of_mints (fun k a ha ↦ ?_) fun m x hx ↦ ?_
        · exact absurd ha (by simp [fineState])
        · simp only [fineState, Store.lookup_insert_eq_some] at hx
          rcases hx with ⟨rfl, rfl⟩ | ⟨-, hx⟩
          · exact ⟨by decide +kernel, by decide⟩
          · exact absurd hx (by simp)
      undelegated := by
        intro k a ha
        exact absurd ha (by simp [fineState])
      mint_absent := by
        intro m hm
        have hne : m ≠ 10 := by
          rintro rfl
          exact absurd hm.1 (by decide)
        rw [show fineState.controller.ledger.mints = Finmap.insert 10 ⟨none, 0, 18⟩ ∅ from rfl,
          Finmap.lookup_insert_of_ne _ hne, Finmap.lookup_empty] }
  oracle := rfl
  factory := ⟨rfl, rfl, rfl⟩
  whitelist := rfl

/-- The setup of the samples for a put on the asset `15`, with the asset `10` as strike and collateral. -/
def sampleFinePut : List Action :=
  [.controller (.initializeConfig 1 1), .factory (.initializeConfig 1),
   .factory (.setController 1 sampleDeployment.controllerConfig), .factory (.setOperator 1 1),
   .whitelist (.initializeConfig 1),
   .factory (.createOtoken ⟨15, 10, 10, 5, 100, true, sampleDeployment.controllerConfig, 1⟩),
   .whitelist (.whitelistOtoken ⟨20, ⟨15, 10, 10, 5, 100, true, 20⟩, some 1, 1⟩),
   .controller (.createOtokenInfo ⟨20, ⟨15, 10, 10, 5, 100, true, 20⟩, 10, ⟨20, true⟩, some 1, 1⟩)]

/-- The put is admitted, and the collateral of a single oToken cannot be computed. -/
theorem admitted_put_aborts :
    ∃ tr s info, Initial sampleDeployment fineState ∧
      Run (Step sampleDeployment splToken sampleAddresses) fineState tr s ∧
      s.controller.otokenInfos.lookup 20 = some info ∧
      getRequiredCollateral info.strikePrice info.isPut info.collateralDecimals 1 = .error .panic ∧
      ¬ExactlyComputed info.strikePrice info.isPut info.collateralDecimals 1 := by
  have habort : getRequiredCollateral 5 true 18 1 = .error .panic := by decide
  have hvalue : Controller.collateralValue 5 true 18 1 = 500 := by
    norm_num [Controller.collateralValue]
  have hrun : Run (Step sampleDeployment splToken sampleAddresses) fineState
      (Run.playTrace (Action.next sampleDeployment splToken sampleAddresses) Action.label fineState
        sampleFinePut)
      (Run.playState (Action.next sampleDeployment splToken sampleAddresses) fineState sampleFinePut) :=
    run_of_bySampleUser (by decide +kernel) (by decide +kernel)
  refine ⟨_, _, ⟨20, 15, 10, 10, 5, 100, true, 18, 0⟩, fineState_initial, hrun, by decide +kernel, habort, ?_⟩
  rintro ⟨-, hok⟩
  obtain ⟨r, hr, -⟩ := hok (by rw [hvalue]; norm_num)
  rw [habort] at hr
  exact nomatch hr

end Sample

end Protocol

end OptionsProtocol
