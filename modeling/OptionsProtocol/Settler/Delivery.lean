import OptionsProtocol.Settler.Vaults

/-!
# Delivery

A series that expires in the money forfeits its collateral as a whole; what the seller gets for it is
up to the settler. `physical_redeem` brings it about in one instruction: the oTokens are redeemed, the
collateral is swapped into the other asset, and the instruction fails unless the seller's account has
gained what the exercise owes.
-/

namespace OptionsProtocol

namespace Settler

open Except
open Controller (VaultKey Vault OTokenInfo)

variable {D : Deployment} {T : TokenProgram} {rent : ℕ → ℕ} {verifies : Ed25519.Signed → Bool}
  {s s' s₀ : State} {l : Label} {tr : List (Transition State Label)}

/-! ## What a delivery brings the seller -/

/-- The seller of the instruction's vault is paid what exercising `n` oTokens owes, into an account of
its own, in the asset the series is delivered in. -/
structure PhysicalRedeem.Delivered (D : Deployment) (s : State) (ctx : PhysicalRedeem) (n : ℕ)
    (s' : State) : Prop where
  /-- The vault was opened by an order of the maker whose oTokens are redeemed, in their series. -/
  vault : ∃ vm, s.vaultMMs.lookup ctx.vault = some vm ∧ vm.maker = ctx.makerOtokenBalance.maker ∧
    vm.otokenMint = ctx.otokenMint
  beneficiary : ∃ v, s.ctrl.vaults.lookup ctx.vault = some v ∧ v.owner = D.settlerConfig ∧
    v.otokenMint = ctx.otokenMint ∧ ∃ a, s.ctrl.ledger.accounts.lookup ctx.userContraAccount = some a ∧
      a.owner = v.beneficiary ∧ a.mint = ctx.contraMint
  paid : ∃ info contraMint owed, s.ctrl.otokenInfos.lookup ctx.otokenInfo = some info ∧
    ctx.contraMint = expectedContra info ∧
    s.ctrl.ledger.mints.lookup ctx.contraMint = some contraMint ∧
    computeContraAmount n info.strikePrice info.isPut contraMint.decimals = .ok owed ∧
    s.ctrl.ledger.amount ctx.userContraAccount + owed ≤ s'.ctrl.ledger.amount ctx.userContraAccount

theorem PhysicalRedeem.Effect.userContra_ne {ctx : PhysicalRedeem} {n m : ℕ} {swap : Swap}
    {r : PhysicalRedeem.Course} (hr : Recorded D s)
    (h : PhysicalRedeem.Effect D T s ctx n m swap r s') :
    ctx.userContraAccount ≠ ctx.settlerCollateralAccount ∧
      ctx.userContraAccount ≠ ctx.settlerContraAccount := by
  obtain ⟨v, hv, hok⟩ := hr.vault _ _ h.vaultMM_eq
  obtain rfl : r.vault = v := Option.some.inj (h.vault_eq.symm.trans hv)
  have hseller : ctx.user ≠ D.settlerConfig := by
    rintro heq
    refine hok.beneficiary ?_
    rw [h.vault_beneficiary, heq]
    exact D.isPda_settlerConfig
  have huser : s.ctrl.ledger.Owns ctx.user ctx.userContraAccount :=
    ⟨_, h.userContra_eq, h.userContra_owner⟩
  exact ⟨huser.ne ⟨_, h.loaded.settlerCollateral_eq, h.loaded.settlerCollateral_owner⟩ hseller,
    huser.ne ⟨_, h.settlerContra_eq, h.settlerContra_owner⟩ hseller⟩

/-- **A delivery pays the seller.** -/
theorem PhysicalRedeem.Effect.delivered {ctx : PhysicalRedeem} {n m : ℕ} {swap : Swap}
    {r : PhysicalRedeem.Course} (hT : T.Plain) (hr : Recorded D s)
    (h : PhysicalRedeem.Effect D T s ctx n m swap r s') : ctx.Delivered D s n s' := by
  obtain ⟨v, hv, hok⟩ := hr.vault _ _ h.vaultMM_eq
  obtain rfl : r.vault = v := Option.some.inj (h.vault_eq.symm.trans hv)
  have hmaker : r.vaultMM.maker = ctx.makerOtokenBalance.maker := by rw [h.vaultMM_maker, h.key_eq]
  refine ⟨⟨_, h.vaultMM_eq, hmaker, h.vaultMM_otokenMint⟩,
    ⟨_, hv, hok.owner, h.vault_otokenMint, _, h.userContra_eq, ?_, h.userContra_mint⟩,
    ⟨_, _, _, h.loaded.info_eq, h.contra_eq, h.contraMint_eq, h.contraAmount_eq, ?_⟩⟩
  · rw [h.userContra_owner, h.vault_beneficiary]
  obtain ⟨hcollateral, hcontra⟩ := h.userContra_ne hr
  have hledger : s'.ctrl.ledger = r.ledger := by rw [h.state_eq]
  have hdelta := h.userContra_delta
  rw [hledger, Ledger.amount_eq h.userContra_eq]
  cases hside : r.acc.info.isPut with
  | true =>
    obtain ⟨hle, -, -, surplus, d, -, hpay⟩ := h.put hside
    have hkeeps := Controller.amount_le_of_transferIfPositive hpay ctx.userContraAccount
    rw [if_neg hcollateral] at hkeeps
    omega
  | false =>
    obtain ⟨-, hzero, surplus, paid, d, -, hdeliver, hpay⟩ := h.call hside
    have hgain := (hT hdeliver).amount_dst hcontra.symm
    have hkeeps := Controller.amount_le_of_transferIfPositive hpay ctx.userContraAccount
    rw [if_neg hcontra] at hkeeps
    omega

section Sample

/-- The market takes the collateral and pays a little more than what the exercise owes. -/
def sampleSwap : Swap := fun c ↦ do
  let L ← fromOption (splToken.transferChecked c.ledger 42 10 18 4 10000 6) .token
  let L ← fromOption (splToken.transferChecked L 17 15 43 9 50500 6) .token
  pure { c with ledger := L }

theorem sampleSwap_ordinary : sampleSwap.Ordinary sampleDeployment splToken := by
  intro c c' hu h
  simp only [sampleSwap, fromOption_bind_eq_ok, pure_eq_ok] at h
  obtain ⟨L, hL, L', hL', rfl⟩ := h
  have hpaid : Controller.Step sampleDeployment splToken c .token { c with ledger := L } :=
    step_of_transfer hu sampleDeployment.not_isControllerPda_settlerConfig hL
  have hbought := step_of_transfer (D := sampleDeployment) (c := { c with ledger := L })
    (hpaid.move.undelegated hu)
    (sampleDeployment_not_isControllerPda (by decide) (by decide)) hL'
  exact ⟨_, (Run.single hpaid).snoc hbought, by simp⟩

/-- Accounts `33`, `43` and `19` are the seller's, the settler's and the maker's for asset `15`, and
`18` is the market's for the collateral. -/
def sampleExercised : List Action := sampleFirst ++ samplePriced ++
  [.controller (.openAccount 33 15 1), .controller (.openAccount 43 15 4),
   .controller (.openAccount 19 15 otherKey), .controller (.openAccount 18 10 9)]

/-- User `1`, who is the operator and the seller, has the whole order delivered. -/
def samplePhysicalRedeem : PhysicalRedeem := { sampleRedeemForMM with
  mmCollateralAccount := 19
  contraMint := 15
  settlerContraAccount := 43
  user := 1
  vault := ⟨4, 0⟩
  userContraAccount := 33
  jupiterProgram := 7 }

def sampleDeliver : Action := .call (.physicalRedeem samplePhysicalRedeem 1000000 10000 sampleSwap)

theorem sampleDeliver_step :
    Run (Step sampleDeployment splToken id sampleScheme) sampleState (sampleTrace sampleExercised)
        (sampleRun sampleExercised) ∧
      Step sampleDeployment splToken id sampleScheme (sampleRun sampleExercised) sampleDeliver.label
        (sampleRun (sampleExercised ++ [sampleDeliver])) := by
  have hnext : sampleDeliver.next sampleDeployment splToken id (sampleRun sampleExercised) =
      some (sampleRun (sampleExercised ++ [sampleDeliver])) :=
    Run.next_of_playable _ (by decide +kernel)
  have hsigner : ∀ k ∈ [samplePhysicalRedeem.signer], ¬sampleDeployment.IsPda k := by
    intro k hk
    rw [List.mem_singleton] at hk
    exact hk ▸ sampleDeployment_not_isPda (by decide) (by decide) (by decide)
  have hallowed : sampleDeliver.Allowed sampleDeployment splToken sampleScheme :=
    ⟨hsigner, sampleSwap_ordinary⟩
  exact ⟨sampleRun_run (by decide +kernel) (by decide +kernel), Action.step hallowed hnext⟩

end Sample

end Settler

end OptionsProtocol
