import OptionsProtocol.Settler.Escape
import OptionsProtocol.Settler.Supply

/-!
# What a redemption from custody pays

The redemptions from custody take a snapshot of the settler's collateral account, let the controller
redeem into it, and hand on what it gained. So the account ends as it began, whatever it held before, and
the maker gets what the controller paid, as far as the transfers credit it. The operator's redemption and
the maker's own differ in who may call them and when, and in nothing else.
-/

namespace OptionsProtocol

namespace Settler

open Except

variable {D : Deployment} {T : TokenProgram} {rent : ℕ → ℕ} {verifies : Ed25519.Signed → Bool}
  {s s' s₀ : State} {tr : List (Transition State Label)}

/-! ## Amounts -/

theorem transferIfPositive_amount {L L' : Ledger} {src mint dst auth : Pubkey} {n d : ℕ}
    (h : Controller.transferIfPositive T L src mint dst auth n d = .ok L') (hne : src ≠ dst) :
    ∃ r ≤ n, (T.PlainOn (· = mint) → r = n) ∧
      ∀ k, L'.amount k + (if k = src then n else 0) = L.amount k + (if k = dst then r else 0) := by
  rcases Controller.transferIfPositive_eq_ok.mp h with ⟨-, ht⟩ | ⟨rfl, rfl⟩
  · obtain ⟨r, hr⟩ := T.transferChecked_spec ht
    have hle : r ≤ n := by obtain ⟨-, -, -, -, -, -, -, -, hr, -⟩ := hr; exact hr
    refine ⟨r, hle, fun hT ↦ ?_, hr.amount_of_ne hne⟩
    have hgain := hr.amount_dst hne
    have hplain := (hT rfl ht).amount_dst hne
    omega
  · exact ⟨0, le_rfl, fun _ ↦ rfl, fun k ↦ by simp⟩

/-- What a redemption into the settler's collateral account pays and moves. -/
structure RedeemForMM.Redeemed (D : Deployment) (T : TokenProgram) (s : State) (ctx : RedeemForMM)
    (acc : Custody) (n : ℕ) (c : Controller.State) (payout received : ℕ) : Prop where
  info_eq : s.ctrl.otokenInfos.lookup ctx.otokenMint = some acc.info
  payout_eq : Controller.getPayout acc.info.strikePrice acc.info.expiryPrice acc.info.isPut
    acc.info.collateralDecimals n = .ok payout
  collateralMint_eq : ctx.collateralMintAccount = acc.info.collateralMint
  received_le : received ≤ payout
  plain : T.PlainOn (· = acc.info.collateralMint) → received = payout
  amounts : ∀ k, c.ledger.amount k + (if k = ctx.settlerOtokenAccount then n else 0) +
      (if k = ctx.poolTokenAccount then payout else 0) =
    s.ctrl.ledger.amount k + (if k = ctx.settlerCollateralAccount then received else 0)
  supply : c.ledger.supply ctx.otokenMint + n = s.ctrl.ledger.supply ctx.otokenMint
  kept : s.ctrl.ledger.Kept c.ledger
  pool : s.ctrl.ledger.Owns (D.poolVaultAuth acc.info.collateralMint) ctx.poolTokenAccount
  otoken_ne : ctx.settlerOtokenAccount ≠ ctx.settlerCollateralAccount
  pool_ne : ctx.poolTokenAccount ≠ ctx.settlerCollateralAccount
  otoken_ne_pool : ctx.settlerOtokenAccount ≠ ctx.poolTokenAccount

theorem RedeemForMM.Redeemed.settlerCollateral {ctx : RedeemForMM} {acc : Custody} {n payout received : ℕ}
    {c : Controller.State}
    (hr : ctx.Redeemed D T s acc n c payout received) :
    c.ledger.amount ctx.settlerCollateralAccount =
      s.ctrl.ledger.amount ctx.settlerCollateralAccount + received := by
  have hamount := hr.amounts ctx.settlerCollateralAccount
  rwa [if_neg hr.otoken_ne.symm, if_neg hr.pool_ne.symm, if_pos rfl] at hamount

theorem redeem_getPayout {c c' : Controller.State} {ctx : Controller.Redeem} {n : ℕ}
    (h : Controller.redeem D T ctx n c = .ok c') : ∃ info,
      c.otokenInfos.lookup ctx.otokenMint = some info ∧ Controller.getPayout info.strikePrice
        info.expiryPrice info.isPut info.collateralDecimals n = .ok (info.payout n) := by
  simp only [Controller.redeem, Controller.loadConfig, Controller.loadOtokenInfo,
    Controller.loadTokenAccount, Controller.loadMint, fromOption_bind_eq_ok, require_bind_eq_ok] at h
  obtain ⟨_, -, info, hi, _, -, _, -, _, -, _, -, _, -, hseed, -, -, -, -, -, -, -, -, -, -, -, -, -, h⟩ := h
  obtain ⟨r, hr, -⟩ := bind_eq_ok.mp h
  obtain ⟨-, rfl⟩ := Controller.getPayout_eq_ok.mp hr
  exact ⟨info, hseed ▸ hi, hr⟩

theorem Custody.Loaded.redeemed {ctx : RedeemForMM} {acc : Custody} {n : ℕ} {c : Controller.State}
    (hl : acc.Loaded D s ctx) (hw : Controller.WellFormed D s.ctrl)
    (h : Controller.redeem D T (ctx.redeem D) n s.ctrl = .ok c) :
    ∃ payout received, ctx.Redeemed D T s acc n c payout received := by
  obtain ⟨info, otoken, coll, pool, B, L, he⟩ := Controller.redeem_effect h
  obtain ⟨d, hburn⟩ := he.burn
  obtain ⟨d', ht⟩ := he.transfer
  have hB : s.ctrl.ledger.Burned B ctx.otokenMint ctx.settlerOtokenAccount D.settlerConfig n :=
    T.burnChecked_spec hburn
  have hledger : c.ledger = L := congrArg Controller.State.ledger he.state_eq
  have hinfo : s.ctrl.otokenInfos.lookup ctx.otokenMint = some info := he.info_eq
  obtain rfl : acc.info = info :=
    Option.some.inj ((hl.info_eq_of_seed he.info_seed).symm.trans hinfo)
  have hpayout : Controller.getPayout acc.info.strikePrice acc.info.expiryPrice acc.info.isPut
      acc.info.collateralDecimals n = .ok (acc.info.payout n) := by
    obtain ⟨info', hinfo', hpay⟩ := redeem_getPayout h
    obtain rfl : acc.info = info' := Option.some.inj (hinfo.symm.trans hinfo')
    exact hpay
  obtain ⟨a, ha, hamint, -⟩ := hl.settlerOtoken
  have hmint : acc.info.collateralMint ≠ ctx.otokenMint := (hw.info hinfo).2.2
  have hotoken : ctx.settlerOtokenAccount ≠ ctx.settlerCollateralAccount :=
    (hl.collateral_ne_otoken hmint).symm
  have howns : s.ctrl.ledger.Owns (D.poolVaultAuth acc.info.collateralMint) ctx.poolTokenAccount :=
    ⟨pool, he.pool_eq, he.pool_owner⟩
  have hpool : ctx.poolTokenAccount ≠ ctx.settlerCollateralAccount :=
    howns.ne ⟨_, hl.settlerCollateral_eq, hl.settlerCollateral_owner⟩
      (poolVaultAuth_ne_settlerConfig D _)
  have hotokenPool : ctx.settlerOtokenAccount ≠ ctx.poolTokenAccount := by
    intro heq
    have hsame : s.ctrl.ledger.accounts.lookup ctx.poolTokenAccount = some pool := he.pool_eq
    rw [← heq, ha, Option.some.injEq] at hsame
    exact hmint (by rw [← he.pool_mint, ← hsame, hamint])
  obtain ⟨r, hr, hplain, hamounts⟩ := transferIfPositive_amount ht hpool
  refine ⟨_, r, hinfo, hpayout, he.collateralMint_eq, hr, hplain, fun k ↦ ?_, ?_, ?_, howns, hotoken,
    hpool, hotokenPool⟩
  · have hburned := hB.amount k
    have hmoved : L.amount k + (if k = ctx.poolTokenAccount then acc.info.payout n else 0) =
      B.amount k + (if k = ctx.settlerCollateralAccount then r else 0) := hamounts k
    rw [hledger]
    omega
  · rw [hledger, ← hB.supply ctx.otokenMint, if_pos rfl]
    have hmints := Controller.mints_of_transferIfPositive ht
    rw [Ledger.supply, Ledger.supply, hmints]
  · rw [hledger]
    exact hB.kept.trans (Controller.kept_of_transferIfPositive ht)

/-! ## Paying the maker -/

/-- A redemption for a maker burns what it is asked to, takes it off the books of that maker, draws the
controller's payout out of the pool, and leaves the settler's collateral account as it was. What arrives
at the maker is the payout, if transfers of the collateral credit what they debit. -/
structure RedeemForMM.Paid (T : TokenProgram) (s : State) (ctx : RedeemForMM) (n : ℕ) (s' : State) :
    Prop where
  burned : s'.ctrl.ledger.amount ctx.settlerOtokenAccount + n =
    s.ctrl.ledger.amount ctx.settlerOtokenAccount
  supply : s'.ctrl.ledger.supply ctx.otokenMint + n = s.ctrl.ledger.supply ctx.otokenMint
  balance : s'.custody ctx.makerOtokenBalance + n = s.custody ctx.makerOtokenBalance
  others : ∀ k ≠ ctx.makerOtokenBalance,
    s'.makerOtokenBalances.lookup k = s.makerOtokenBalances.lookup k
  settler : s'.ctrl.ledger.amount ctx.settlerCollateralAccount =
    s.ctrl.ledger.amount ctx.settlerCollateralAccount
  paid : ∃ info payout paid, s.ctrl.otokenInfos.lookup ctx.otokenMint = some info ∧
    Controller.getPayout info.strikePrice info.expiryPrice info.isPut info.collateralDecimals n
      = .ok payout ∧
    s'.ctrl.ledger.amount ctx.poolTokenAccount + payout = s.ctrl.ledger.amount ctx.poolTokenAccount ∧
    s'.ctrl.ledger.amount ctx.mmCollateralAccount =
      s.ctrl.ledger.amount ctx.mmCollateralAccount + paid ∧
    paid ≤ payout ∧ (T.PlainOn (· = info.collateralMint) → paid = payout)

/-- The maker is paid into an account the redemption itself does not use. -/
def RedeemForMM.Apart (ctx : RedeemForMM) : Prop :=
  ctx.mmCollateralAccount ≠ ctx.settlerCollateralAccount ∧
    ctx.mmCollateralAccount ≠ ctx.poolTokenAccount

/-- A maker that is not one of the programs has no other account to be paid into. -/
theorem RedeemForMM.Effect.apart {ctx : RedeemForMM} {n payout : ℕ} {acc : Custody}
    {c : Controller.State} {L : Ledger} (h : RedeemForMM.Effect D T s ctx n acc c payout L s')
    (hw : Controller.WellFormed D s.ctrl) (hmaker : ¬D.IsPda ctx.makerOtokenBalance.maker) :
    ctx.Apart := by
  obtain ⟨due, received, hr⟩ := h.loaded.redeemed hw h.redeem
  have hmm : s.ctrl.ledger.Owns ctx.makerOtokenBalance.maker ctx.mmCollateralAccount :=
    ⟨_, h.loaded.mmCollateral_eq, h.mmCollateral_owner⟩
  constructor
  · apply hmm.ne ⟨_, h.loaded.settlerCollateral_eq, h.loaded.settlerCollateral_owner⟩
    intro heq
    exact hmaker (heq ▸ D.isPda_settlerConfig)
  · apply hmm.ne hr.pool
    intro heq
    exact hmaker (heq ▸ .inl (D.isControllerPda_poolVaultAuth _))

/-- **A redemption pays the maker.** -/
theorem RedeemForMM.Effect.paid {ctx : RedeemForMM} {n payout : ℕ} {acc : Custody}
    {c : Controller.State} {L : Ledger} (h : RedeemForMM.Effect D T s ctx n acc c payout L s')
    (hw : Controller.WellFormed D s.ctrl) (hapart : ctx.Apart) : ctx.Paid T s n s' := by
  obtain ⟨due, received, hr⟩ := h.loaded.redeemed hw h.redeem
  obtain ⟨d, hpay⟩ := h.pay
  have hledger : s'.ctrl.ledger = L := by rw [h.state_eq]
  have hcollateral : ctx.settlerCollateralAccount ≠ ctx.mmCollateralAccount := hapart.1.symm
  have hpool : ctx.poolTokenAccount ≠ ctx.mmCollateralAccount := hapart.2.symm
  -- an account of the series is not one of its collateral
  have hotoken : ctx.settlerOtokenAccount ≠ ctx.mmCollateralAccount := by
    intro heq
    obtain ⟨a, ha, hmint, -⟩ := h.loaded.settlerOtoken
    rw [heq, h.loaded.mmCollateral_eq, Option.some.injEq] at ha
    apply (hw.info hr.info_eq).2.2
    rw [← hmint, ← ha, h.mmCollateral_mint]
  obtain ⟨sent, hsent, hplain, hamounts⟩ := transferIfPositive_amount hpay hcollateral
  -- what the snapshot measures is what the controller's payout credited
  obtain rfl : payout = received := by
    have hmeasured := h.payout_eq
    have hgained := hr.settlerCollateral
    rw [Ledger.amount_eq h.loaded.settlerCollateral_eq] at hgained
    omega
  have key : ∀ k, L.amount k + (if k = ctx.settlerOtokenAccount then n else 0) +
      (if k = ctx.poolTokenAccount then due else 0) =
        s.ctrl.ledger.amount k + (if k = ctx.mmCollateralAccount then sent else 0) := by
    intro k
    have hredeemed := hr.amounts k
    have hmoved := hamounts k
    omega
  refine ⟨?_, ?_, ?_, ?_, ?_, acc.info, due, sent, hr.info_eq, hr.payout_eq, ?_, ?_, ?_, ?_⟩
  · have hamount := key ctx.settlerOtokenAccount
    rw [if_pos rfl, if_neg hr.otoken_ne_pool, if_neg hotoken] at hamount
    rw [hledger]
    omega
  · rw [hledger, supply_of_transferIfPositive hpay]
    exact hr.supply
  · have hcovered := h.covered
    simp only [State.custody, h.state_eq, Finmap.lookup_insert, h.loaded.balance_eq, Option.elim_some]
    omega
  · intro k hk
    rw [h.state_eq]
    exact Finmap.lookup_insert_of_ne _ hk
  · have hamount := key ctx.settlerCollateralAccount
    rw [if_neg hr.otoken_ne.symm, if_neg hr.pool_ne.symm, if_neg hcollateral] at hamount
    rw [hledger]
    omega
  · have hamount := key ctx.poolTokenAccount
    rw [if_neg hr.otoken_ne_pool.symm, if_pos rfl, if_neg hpool] at hamount
    rw [hledger]
    omega
  · have hamount := key ctx.mmCollateralAccount
    rw [if_neg hotoken.symm, if_neg hpool.symm, if_pos rfl] at hamount
    rw [hledger]
    omega
  · exact hsent.trans hr.received_le
  · intro hT
    have hmint := hr.collateralMint_eq
    rw [hplain (hmint ▸ hT), hr.plain hT]

/-! ## Both redemptions -/

theorem redeemForMM_eq_ok {ctx : RedeemForMM} {n : ℕ} (h : redeemForMM D T ctx n s = .ok s') :
    ∃ acc, loadCustody D ctx s = .ok acc ∧ redeemToMaker D T ctx acc n s = .ok s' := by
  simp only [redeemForMM, loadConfig, fromOption_bind_eq_ok, require_bind_eq_ok] at h
  obtain ⟨config, -, -, h⟩ := h
  obtain ⟨acc, hacc, h⟩ := bind_eq_ok.mp h
  simp only [require_bind_eq_ok] at h
  obtain ⟨-, -, -, -, -, -, -, h⟩ := h
  exact ⟨acc, hacc, h⟩

theorem mmSelfRedeem_eq_ok {ctx : RedeemForMM} {n : ℕ} (h : mmSelfRedeem D T ctx n s = .ok s') :
    ∃ acc, loadCustody D ctx s = .ok acc ∧ redeemToMaker D T ctx acc n s = .ok s' := by
  simp only [mmSelfRedeem, loadConfig, loadMakerState, fromOption_bind_eq_ok,
    require_bind_eq_ok] at h
  obtain ⟨config, -, state, -, -, -, h⟩ := h
  obtain ⟨acc, hacc, h⟩ := bind_eq_ok.mp h
  simp only [require_bind_eq_ok] at h
  obtain ⟨-, -, -, -, -, -, -, -, h⟩ := h
  exact ⟨acc, hacc, h⟩

/-- Who signs makes no difference to what a redemption does. -/
theorem redemptions_agree {ctx : RedeemForMM} {signer : Pubkey} {n : ℕ} {s₁ s₂ : State}
    (h₁ : redeemForMM D T ctx n s = .ok s₁)
    (h₂ : mmSelfRedeem D T { ctx with signer } n s = .ok s₂) : s₁ = s₂ := by
  obtain ⟨acc, hacc, h₁⟩ := redeemForMM_eq_ok h₁
  obtain ⟨acc', hacc', h₂⟩ := mmSelfRedeem_eq_ok h₂
  -- the handlers load the same accounts
  obtain rfl : acc = acc' := Except.ok.inj (hacc.symm.trans hacc')
  exact Except.ok.inj (h₁.symm.trans h₂)

/-- **A redemption from custody pays the maker the controller's payout** and leaves the settler's
collateral account as it was, whoever makes it. The fees of the token program may have changed since. -/
theorem redemption_pays {T₀ : TokenProgram} (hrun : Run (Step D T₀ rent verifies) s₀ tr s)
    (h₀ : Initial D s₀) :
    (∀ ctx n s', redeemForMM D T ctx n s = .ok s' ∨ mmSelfRedeem D T ctx n s = .ok s' →
      (¬D.IsPda ctx.makerOtokenBalance.maker → ctx.Apart) ∧ (ctx.Apart → ctx.Paid T s n s')) ∧
    (∀ ctx signer n s₁ s₂, redeemForMM D T ctx n s = .ok s₁ →
      mmSelfRedeem D T { ctx with signer } n s = .ok s₂ → s₁ = s₂) := by
  have hw := (recorded_of_run hrun h₀).wellFormed
  constructor
  · intro ctx n s' h
    obtain ⟨acc, c, payout, L, he⟩ :
        ∃ acc c payout L, RedeemForMM.Effect D T s ctx n acc c payout L s' := by
      rcases h with h | h
      · exact redeemForMM_effect h
      · exact mmSelfRedeem_effect h
    exact ⟨he.apart hw, he.paid hw⟩
  · intro ctx signer n s₁ s₂
    exact redemptions_agree

section Sample

theorem sampleEscaped_run : Run (Step sampleDeployment splToken id sampleScheme) sampleState
    (sampleTrace sampleEscaped) (sampleRun sampleEscaped) :=
  sampleRun_run (by decide +kernel) (by decide +kernel)

theorem redemption_pays_sample : ∃ s',
    redeemForMM sampleDeployment splToken sampleRedeemForMM 1000000 (sampleRun sampleEscaped) = .ok s' ∧
    mmSelfRedeem sampleDeployment splToken sampleSelfRedeem 1000000 (sampleRun sampleEscaped) = .ok s' ∧
    sampleRedeemForMM.Paid splToken (sampleRun sampleEscaped) 1000000 s' := by
  obtain ⟨hpays, hagree⟩ := redemption_pays (T := splToken) sampleEscaped_run sampleState_initial
  obtain ⟨s₁, h₁⟩ : ∃ s₁, redeemForMM sampleDeployment splToken sampleRedeemForMM 1000000
      (sampleRun sampleEscaped) = .ok s₁ := exists_of_isSome (by decide +kernel)
  obtain ⟨s₂, h₂⟩ : ∃ s₂, mmSelfRedeem sampleDeployment splToken sampleSelfRedeem 1000000
      (sampleRun sampleEscaped) = .ok s₂ := exists_of_isSome (by decide +kernel)
  obtain rfl := hagree _ _ _ _ _ h₁ h₂
  exact ⟨s₁, h₁, h₂, (hpays _ _ _ (.inl h₁)).2 ⟨by decide, by decide⟩⟩

/-- **What arrives can be less than the payout.** A fee of one percent, taken on both transfers, is the
maker's loss. -/
theorem redemption_withholds : ∃ s',
    Initial sampleDeployment sampleState ∧
    Run (Step sampleDeployment splToken id sampleScheme) sampleState (sampleTrace sampleEscaped)
      (sampleRun sampleEscaped) ∧
    redeemForMM sampleDeployment (feeToken 100) sampleRedeemForMM 1000000 (sampleRun sampleEscaped)
      = .ok s' ∧
    (sampleRun sampleEscaped).ctrl.otokenInfos.lookup 20 =
      some ⟨20, 10, 15, 10, 500000000, 100, false, 6, 700000000⟩ ∧
    Controller.getPayout 500000000 700000000 false 6 1000000 = .ok 10000 ∧
    s'.ctrl.ledger.amount 14 = (sampleRun sampleEscaped).ctrl.ledger.amount 14 + 9801 := by
  have hgain : (redeemForMM sampleDeployment (feeToken 100) sampleRedeemForMM 1000000
      (sampleRun sampleEscaped)).toOption.map (fun s' ↦ s'.ctrl.ledger.amount 14) =
        some ((sampleRun sampleEscaped).ctrl.ledger.amount 14 + 9801) := by decide +kernel
  obtain ⟨s', hs', hamount⟩ := Option.map_eq_some_iff.mp hgain
  exact ⟨s', sampleState_initial, sampleEscaped_run, toOption_eq_some.mp hs', by decide +kernel,
    by decide +kernel, hamount⟩

end Sample

end Settler

end OptionsProtocol
