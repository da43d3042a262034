import OptionsProtocol.Controller.Solvency
import OptionsProtocol.Settler.Exchange

/-!
# Amounts in pieces

Required collateral, payout and contra amount of a series are its amount scaled and rounded down. None of
them yields more in pieces than at once, and none less by more than one unit for each piece after the first.

Two consequences for the pool. Redemptions of a series, piece by piece, never pay more than one redemption
of everything would; and vaults, which reserve their payouts one by one, reserve at most one unit less for
each vault after the first than their oTokens can claim together.
-/

namespace OptionsProtocol

namespace Settler

open FloorSum
open Controller (getRequiredCollateral getPayout)

variable {k p d n r : ℕ} {isPut : Bool}

theorem getRequiredCollateral_splitsDown : SplitsDown (getRequiredCollateral k isPut d) :=
  splitsDown_of_scale (c := Controller.scaleNum k isPut d) (Controller.scaleDen_pos isPut d)
    fun h ↦ (Controller.getRequiredCollateral_eq_ok.mp h).2

theorem getPayout_splitsDown : SplitsDown (getPayout k p isPut d) := by
  refine splitsDown_of_scale
    (c := if Controller.IsItm k p isPut then Controller.scaleNum k isPut d else 0)
    (Controller.scaleDen_pos isPut d) fun {n r} h ↦ ?_
  rw [(Controller.getPayout_eq_ok.mp h).2, Controller.payoutOf]
  split
  · rfl
  · rw [scale, Nat.mul_zero, Nat.zero_div]

theorem computeContraAmount_splitsDown : SplitsDown fun n ↦ computeContraAmount n k isPut d :=
  splitsDown_of_scale (c := Controller.scaleNum k (!isPut) d) (Controller.scaleDen_pos (!isPut) d)
    fun h ↦ (Controller.getRequiredCollateral_eq_ok.mp (computeContraAmount_eq_ok.mp h).2.1).2

/-- **Nothing is gained by splitting, and little is lost.** Each of the three formulas grows with the amount,
yields no more in pieces than at once, and at most one unit less for each piece after the first. So the
redemptions of a series never pay more than its payout for everything redeemed, in every run of the
controller; and the oTokens of a series claim, pooled, at most one unit more for each vault after the first
than its vaults reserve one by one. -/
theorem splitting_bounded :
    (∀ (strikePrice expiryPrice : ℕ) (isPut : Bool) (decimals : ℕ),
      SplitsDown (getRequiredCollateral strikePrice isPut decimals) ∧
      SplitsDown (getPayout strikePrice expiryPrice isPut decimals) ∧
      SplitsDown fun n ↦ computeContraAmount n strikePrice isPut decimals) ∧
    (∀ (D : Deployment) (T : TokenProgram) (s₀ s : Controller.State)
      (tr : List (Transition Controller.State Controller.Label)), Controller.Initial D s₀ →
      Run (Controller.Step D T) s₀ tr s → ∀ o,
        Controller.paidTotal s o ≤ Controller.claim s o (Controller.redeemedTotal s o)) ∧
    ∀ (s : Controller.State) (o : Pubkey) (info : Controller.OTokenInfo),
      info.claim (Controller.mintedTotal s o) ≤
        Store.total (fun _ v ↦ info.claim (v.shortOf o)) s.vaults + (Controller.vaultsOf s o - 1) := by
  refine ⟨fun k p isPut d ↦ ?_, fun D T s₀ s tr h₀ hrun o ↦ ?_, fun s o info ↦ ?_⟩
  · exact ⟨getRequiredCollateral_splitsDown, getPayout_splitsDown, computeContraAmount_splitsDown⟩
  · exact Controller.paidTotal_le_claim hrun h₀ o
  · exact Controller.claim_mintedTotal_le_vaults s o info

/-- Of the `200` oTokens of the settled vault `100` are redeemed at once and the rest in halves. -/
def sampleHalves : List Controller.Action :=
  Controller.sampleSettled ++
    [.call (.redeem ⟨20, 20, 31, 11, 13, 10, sampleDeployment.poolVaultAuth 10, 1⟩ 50),
     .call (.redeem ⟨20, 20, 31, 11, 13, 10, sampleDeployment.poolVaultAuth 10, 1⟩ 50)]

/-- The requirement of `100` is `1` and that of each half is rounded down to nothing. Redeemed in this way
`200` pay `1`, where they could have claimed `2`. -/
theorem splitting_bounded_sample :
    (([0, 0] : List ℕ).sum ≤ 1 ∧ 1 ≤ ([0, 0] : List ℕ).sum + 1) ∧
    (Controller.paidTotal (Controller.sampleRun sampleHalves) 20 = 1 ∧
      Controller.claim (Controller.sampleRun sampleHalves) 20
        (Controller.redeemedTotal (Controller.sampleRun sampleHalves) 20) = 2 ∧
      Controller.paidTotal (Controller.sampleRun sampleHalves) 20 ≤
        Controller.claim (Controller.sampleRun sampleHalves) 20
          (Controller.redeemedTotal (Controller.sampleRun sampleHalves) 20)) := by
  have hrun : Run (Controller.Step sampleDeployment splToken) Controller.sampleState
      (Controller.sampleTrace sampleHalves) (Controller.sampleRun sampleHalves) :=
    Controller.sampleRun_run (by decide +kernel) (by decide +kernel)
  have hparts : List.Forall₂ (fun n r ↦ getRequiredCollateral 5 false 6 n = .ok r) [50, 50] [0, 0] :=
    .cons (by decide) (.cons (by decide) .nil)
  refine ⟨(splitting_bounded.1 5 0 false 6).1.pieces hparts (by decide), by decide +kernel,
    by decide +kernel, ?_⟩
  exact splitting_bounded.2.1 _ _ _ _ _ Controller.sampleState_initial hrun 20

end Settler

end OptionsProtocol
