import OptionsProtocol.Controller.Stranding
import OptionsProtocol.Settler.Origins
import OptionsProtocol.Settler.Redemption

/-!
# Out of custody

The oTokens in custody belong to makers, and the collateral they forfeit to the sellers whose vaults the orders
of these makers opened. A delivery is made for such a vault, and pays its seller. The other two ways out of
custody do not deliver. The operator may redeem for a maker, and a maker may redeem by itself once the escape
delay has passed; in both cases the collateral goes to the maker.
-/

namespace OptionsProtocol

namespace Settler

open Except

variable {D : Deployment} {T : TokenProgram} {rent : ℕ → ℕ} {verifies : Ed25519.Signed → Bool}
  {s s' s₀ : State} {l : Label} {tr : List (Transition State Label)}

theorem redeemForMM_signer {ctx : RedeemForMM} {n : ℕ} (h : redeemForMM D T ctx n s = .ok s') :
    ∃ config, s.config = some config ∧ ctx.signer = config.operator := by
  simp only [redeemForMM, loadConfig, fromOption_bind_eq_ok, require_bind_eq_ok] at h
  obtain ⟨config, hconfig, hop, -⟩ := h
  exact ⟨config, hconfig, hop⟩

theorem mmSelfRedeem_signer {ctx : RedeemForMM} {n : ℕ} (h : mmSelfRedeem D T ctx n s = .ok s') :
    ∃ config info, s.config = some config ∧ s.ctrl.otokenInfos.lookup ctx.otokenInfo = some info ∧
      ctx.signer = ctx.makerOtokenBalance.maker ∧ 0 < config.escapeDelay ∧
      info.expiry + config.escapeDelay ≤ s.ctrl.clock := by
  simp only [mmSelfRedeem, loadConfig, loadMakerState, fromOption_bind_eq_ok,
    require_bind_eq_ok] at h
  obtain ⟨config, hconfig, _, -, -, -, h⟩ := h
  obtain ⟨acc, hacc, h⟩ := bind_eq_ok.mp h
  simp only [require_bind_eq_ok] at h
  obtain ⟨hkey, -, -, -, hdelay, -, hclock, -⟩ := h
  exact ⟨config, acc.info, hconfig, (loadCustody_loaded hacc).info_eq, by rw [hkey], hdelay, hclock⟩

/-- The maker is paid, and nobody else has more than before. -/
structure RedeemForMM.Kept (T : TokenProgram) (s : State) (ctx : RedeemForMM) (n : ℕ) (s' : State) : Prop where
  maker : s.ctrl.ledger.Owns ctx.makerOtokenBalance.maker ctx.mmCollateralAccount
  paid : ctx.Apart → ctx.Paid T s n s'
  others : ∀ k ≠ ctx.mmCollateralAccount, s'.ctrl.ledger.amount k ≤ s.ctrl.ledger.amount k

theorem RedeemForMM.Effect.kept {ctx : RedeemForMM} {n payout : ℕ} {acc : Custody} {c : Controller.State}
    {L : Ledger} (hT : T.Plain) (h : RedeemForMM.Effect D T s ctx n acc c payout L s')
    (hw : Controller.WellFormed D s.ctrl) : ctx.Kept T s n s' := by
  refine ⟨⟨_, h.loaded.mmCollateral_eq, h.mmCollateral_owner⟩, h.paid hw, fun k hk ↦ ?_⟩
  obtain ⟨due, received, hr⟩ := h.loaded.redeemed hw h.redeem
  obtain ⟨d, hpay⟩ := h.pay
  have hledger : s'.ctrl.ledger = L := by rw [h.state_eq]
  have hmeasured := h.payout_eq
  rw [hr.settlerCollateral, Ledger.amount_eq h.loaded.settlerCollateral_eq] at hmeasured
  have hredeemed := hr.amounts k
  have hmoved := Controller.amount_of_transferIfPositive hT hpay k
  rw [if_neg hk] at hmoved
  rw [hledger]
  split_ifs at hredeemed hmoved <;> omega

/-- **oTokens leave custody by delivery, by the operator's decision, or by the maker's after the
delay.** A delivery is made for a vault that an order of the maker opened in the series, and pays the seller;
the other two pay the maker and nobody else. -/
theorem redemption_delivers (hT : T.Plain) (hrun : Run (Step D T rent verifies) s₀ tr s)
    (h₀ : Initial D s₀) (hs : Step D T rent verifies s l s') :
    (∀ ctx n m swap, l = .call (.physicalRedeem ctx n m swap) → ctx.Delivered D s n s' ∧
      ∃ t ∈ tr, ∃ user ord, t.label.Opens verifies ctx.vault ctx.makerOtokenBalance.maker user
        ctx.otokenMint ord) ∧
    (∀ ctx n, l = .call (.redeemForMM ctx n) → ctx.Kept T s n s' ∧
      ∃ config, s.config = some config ∧ ctx.signer = config.operator) ∧
    (∀ ctx n, l = .call (.mmSelfRedeem ctx n) → ctx.Kept T s n s' ∧
      ∃ config info, s.config = some config ∧
        s.ctrl.otokenInfos.lookup ctx.otokenInfo = some info ∧
        ctx.signer = ctx.makerOtokenBalance.maker ∧ 0 < config.escapeDelay ∧
        info.expiry + config.escapeDelay ≤ s.ctrl.clock) := by
  have hr := recorded_of_run hrun h₀
  refine ⟨?_, ?_, ?_⟩
  · rintro ctx n m swap rfl
    obtain ⟨r, he⟩ : ∃ r, PhysicalRedeem.Effect D T s ctx n m swap r s' := by
      cases hs with
      | call _ _ h => exact physicalRedeem_effect h
    have hdelivered := he.delivered hT hr
    obtain ⟨vm, hvm, hmaker, hotoken⟩ := hdelivered.vault
    obtain ⟨as, t, bs, ord, user, rfl, hopens, -⟩ := order_of_record hrun h₀ hvm
    rw [hmaker, hotoken] at hopens
    exact ⟨hdelivered, t, by simp, user, ord, hopens⟩
  · rintro ctx n rfl
    cases hs with
    | call _ _ h =>
      obtain ⟨acc, c, payout, L, he⟩ := redeemForMM_effect h
      exact ⟨he.kept hT hr.wellFormed, redeemForMM_signer h⟩
  · rintro ctx n rfl
    cases hs with
    | call _ _ h =>
      obtain ⟨acc, c, payout, L, he⟩ := mmSelfRedeem_effect h
      exact ⟨he.kept hT hr.wellFormed, mmSelfRedeem_signer h⟩

section Sample

theorem redemption_delivers_sample :
    samplePhysicalRedeem.Delivered sampleDeployment (sampleRun sampleExercised) 1000000
      (sampleRun (sampleExercised ++ [sampleDeliver])) := by
  obtain ⟨hrun, hstep⟩ := sampleDeliver_step
  exact ((redemption_delivers splToken_plain hrun sampleState_initial hstep).1 _ _ _ _ rfl).1

/-- The operator redeems the whole order for the maker instead. -/
def sampleTake : Action := .call (.redeemForMM sampleRedeemForMM 1000000)

/-- **A redemption need not deliver.** The maker gets the whole collateral; exercising would owe the
seller `50000` of asset `15`, and it has none before and none afterwards. -/
theorem redemption_without_delivery :
    Initial sampleDeployment sampleState ∧
    Run (Step sampleDeployment splToken id sampleScheme) sampleState
      (sampleTrace (sampleExercised ++ [sampleTake])) (sampleRun (sampleExercised ++ [sampleTake])) ∧
    (sampleRun sampleExercised).ctrl.otokenInfos.lookup 20 =
      some ⟨20, 10, 15, 10, 500000000, 100, false, 6, 700000000⟩ ∧
    computeContraAmount 1000000 500000000 false 6 = .ok 50000 ∧
    (sampleRun (sampleExercised ++ [sampleTake])).ctrl.ledger.amount 14 =
      (sampleRun sampleExercised).ctrl.ledger.amount 14 + 10000 ∧
    (sampleRun sampleExercised).ctrl.ledger.balance 1 15 = 0 ∧
    (sampleRun (sampleExercised ++ [sampleTake])).ctrl.ledger.balance 1 15 = 0 :=
  ⟨sampleState_initial, sampleRun_run (by decide +kernel) (by decide +kernel), by decide +kernel,
    by decide +kernel, by decide +kernel, by decide +kernel, by decide +kernel⟩

end Sample

end Settler

end OptionsProtocol
