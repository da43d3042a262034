import OptionsProtocol.Controller.Liveness
import OptionsProtocol.Controller.Series
import OptionsProtocol.Settler.Attribution
import OptionsProtocol.Settler.Custody
import OptionsProtocol.Settler.Quotes

/-!
# The escape hatch

Once the escape delay has passed a maker redeems from custody by itself. Neither the operator nor a
pause of the settler stands in the way, and of all the owner can do only two things matter: raising
the delay, and delisting the maker.

Everything else such a call needs is there whenever the maker has anything in custody. What it has is
accounted for by some vault of its series, so payouts of the series can be computed.
-/

namespace OptionsProtocol

namespace Settler

open Except
open Controller (VaultKey Vault OTokenInfo)

variable {D : Deployment} {T : TokenProgram} {rent : ℕ → ℕ} {verifies : Ed25519.Signed → Bool}
  {s s' s₀ : State} {l : Label} {tr : List (Transition State Label)}

/-! ## The configuration -/

theorem config_of_exec {ix : Instruction} (h : exec D T rent ix s = .ok s')
    (hix : ix.IsAdministrative) :
    s'.config = s.config ∨ ∃ c', s'.config = some c' ∧ (MIN_ESCAPE_DELAY ≤ c'.escapeDelay ∨
      ∃ c, s.config = some c ∧ c'.escapeDelay = c.escapeDelay) := by
  -- everything but the delay is set with the delay kept
  have hkept : ∀ {c c' : SettlerConfig} {owner : Pubkey}, ownerConfig owner s = .ok c →
      s'.config = some c' → c'.escapeDelay = c.escapeDelay →
      s'.config = s.config ∨ ∃ c', s'.config = some c' ∧ (MIN_ESCAPE_DELAY ≤ c'.escapeDelay ∨
        ∃ c, s.config = some c ∧ c'.escapeDelay = c.escapeDelay) := by
    intro c c' owner hc hs' hd
    simp only [ownerConfig, loadConfig, fromOption_bind_eq_ok, require_bind_eq_ok, pure_eq_ok] at hc
    obtain ⟨_, hs, -, rfl⟩ := hc
    exact .inr ⟨c', hs', .inr ⟨_, hs, hd⟩⟩
  cases ix with
  | initializeConfig payer operator treasury fee delay jupiter =>
    simp only [exec, initializeConfig, require_bind_eq_ok, fromOption_bind_eq_ok, pure_eq_ok] at h
    obtain ⟨-, system, -, -, -, -, hdelay, rfl⟩ := h
    exact .inr ⟨_, rfl, .inl hdelay⟩
  | withdrawRentReserve owner recipient lamports =>
    obtain ⟨_, -, h⟩ := bind_eq_ok.mp h
    simp only [require_bind_eq_ok, fromOption_bind_eq_ok, pure_eq_ok] at h
    obtain ⟨-, -, -, system, -, rfl⟩ := h
    exact .inl rfl
  | setEscapeDelay owner delay =>
    obtain ⟨c, -, h⟩ := bind_eq_ok.mp h
    obtain ⟨hdelay, h⟩ := require_bind_eq_ok.mp h
    rw [pure_eq_ok] at h
    subst h
    exact .inr ⟨_, rfl, .inl hdelay⟩
  | pause owner paused =>
    obtain ⟨c, hc, h⟩ := bind_eq_ok.mp h
    rw [pure_eq_ok] at h
    subst h
    exact hkept hc rfl rfl
  | setTreasury _ _ | setProtocolFee _ _ | setOperator _ _ | setJupiterProgram _ _ =>
    obtain ⟨c, hc, h⟩ := bind_eq_ok.mp h
    obtain ⟨-, h⟩ := require_bind_eq_ok.mp h
    rw [pure_eq_ok] at h
    subst h
    exact hkept hc rfl rfl
  | _ => exact absurd hix (by simp [Instruction.IsAdministrative])

/-- **The configuration after a step**: as it was, or with a delay that is checked or unchanged. -/
theorem Step.config (h : Step D T rent verifies s l s') :
    s'.config = s.config ∨ ∃ c', s'.config = some c' ∧ (MIN_ESCAPE_DELAY ≤ c'.escapeDelay ∨
      ∃ c, s.config = some c ∧ c'.escapeDelay = c.escapeDelay) := by
  have hmove := h.move
  cases hmove with
  | configured hix _ =>
    cases h with
    | call _ _ h => exact config_of_exec h hix
  | executed _ _ h => exact .inl (by rw [h.state_eq])
  | withdrawn _ h => exact .inl (by rw [h.state_eq])
  | redeemed _ h => exact .inl (by rw [h.state_eq])
  | delivered _ h => exact .inl (by rw [h.state_eq])
  | _ => exact .inl rfl

theorem min_escape_delay_le (hrun : Run (Step D T rent verifies) s₀ tr s) (h₀ : Initial D s₀)
    {c : SettlerConfig} (hc : s.config = some c) : MIN_ESCAPE_DELAY ≤ c.escapeDelay := by
  have hinv : ∀ c, s.config = some c → MIN_ESCAPE_DELAY ≤ c.escapeDelay := by
    refine Run.invariant (I := fun s ↦ ∀ c, s.config = some c → MIN_ESCAPE_DELAY ≤ c.escapeDelay)
      ?_ ?_ hrun
    · intro c hc
      rw [h₀.config] at hc
      exact absurd hc (by simp)
    · intro u m u' hu hs c hc
      rcases hs.config with heq | ⟨c', hc', hmin | ⟨c'', hc'', heq⟩⟩
      · exact hu c (heq ▸ hc)
      · obtain rfl := Option.some.inj (hc.symm.trans hc')
        exact hmin
      · obtain rfl := Option.some.inj (hc.symm.trans hc')
        rw [heq]
        exact hu c'' hc''
  exact hinv c hc

/-! ## Redeeming from custody -/

/-- The accounts passed to `mm_self_redeem` are the maker's, the settler's and the pool's accounts of
the series, hold enough and can be spent by their owners. -/
structure RedeemForMM.Ready (D : Deployment) (s : State) (ctx : RedeemForMM) (acc : Custody) (n : ℕ) :
    Prop where
  loaded : acc.Loaded D s ctx
  key_eq : ctx.makerOtokenBalance = ⟨ctx.signer, ctx.otokenMint⟩
  info_seed : ctx.otokenInfo = ctx.otokenMint
  mmCollateral_mint : acc.mmCollateral.mint = acc.info.collateralMint
  mmCollateral_owner : acc.mmCollateral.owner = ctx.signer
  settlerOtoken : ∀ a, s.ctrl.ledger.accounts.lookup ctx.settlerOtokenAccount = some a →
    n ≤ a.amount ∧ a.Authorizes D.settlerConfig n
  settlerCollateral : acc.settlerCollateral.delegate = none
  pool : ∃ p, s.ctrl.ledger.accounts.lookup ctx.poolTokenAccount = some p ∧
    p.mint = acc.info.collateralMint ∧ p.owner = D.poolVaultAuth acc.info.collateralMint ∧
      acc.info.payout n ≤ p.amount
  mint_key : ctx.collateralMintAccount = acc.info.collateralMint
  authority : ctx.poolVaultAuthority = D.poolVaultAuth acc.info.collateralMint

variable {ctx : RedeemForMM} {acc : Custody} {n : ℕ}

theorem redeem_mint_of_ne {c c' : Controller.State} {ctx : Controller.Redeem}
    (h : Controller.redeem D T ctx n c = .ok c') {m : Pubkey} (hm : m ≠ ctx.otokenMint) :
    c'.ledger.mints.lookup m = c.ledger.mints.lookup m := by
  obtain ⟨info, otoken, coll, pool, B, L, he⟩ := Controller.redeem_effect h
  obtain ⟨d, hburn⟩ := he.burn
  obtain ⟨d', ht⟩ := he.transfer
  rw [he.state_eq, ← (T.burnChecked_spec hburn).mint_of_ne hm]
  exact congrArg (Finmap.lookup m) (Controller.mints_of_transferIfPositive ht)

theorem loadCustody_ok (h : acc.Loaded D s ctx)
    (hmint : ∃ x, s.ctrl.ledger.mints.lookup ctx.otokenMint = some x) :
    loadCustody D ctx s = .ok acc := by
  obtain ⟨x, hx⟩ := hmint
  obtain ⟨a, ha, ham, hao⟩ := h.settlerOtoken
  simp only [loadCustody, loadMakerOtokenBalance, loadMint, loadTokenAccount, fromOption_bind_eq_ok,
    require_bind_eq_ok, pure_eq_ok]
  exact ⟨_, h.balance_eq, _, h.info_eq, x, hx, _, h.collateralMint_eq, a, ha, ham, hao, _,
    h.settlerCollateral_eq, h.settlerCollateral_mint, h.settlerCollateral_owner, _,
    h.mmCollateral_eq, rfl⟩

/-- **The common end of the redemptions for a maker goes through.** -/
theorem redeemToMaker_succeeds (hlive : T.Live) (hburn : T.BurnLive)
    (hw : Controller.WellFormed D s.ctrl)
    (hpause : ∃ c, s.ctrl.config = some c ∧ c.fullyPaused = false) {m : ℕ}
    (hm : acc.info.Computable m) (hpos : 0 < n) (hexpired : acc.info.expiry ≤ s.ctrl.clock)
    (hpriced : 0 < acc.info.expiryPrice) (hcov : n ≤ acc.balance.balance)
    (h : ctx.Ready D s acc n) : ∃ s', redeemToMaker D T ctx acc n s = .ok s' := by
  have hinfo : s.ctrl.otokenInfos.lookup ctx.otokenMint = some acc.info :=
    h.loaded.info_eq_of_seed h.info_seed
  obtain ⟨a, ha, ham, hao⟩ := h.loaded.settlerOtoken
  obtain ⟨p, hp, hpm, hpo, hpay⟩ := h.pool
  have hx : s.ctrl.ledger.mints.lookup acc.info.collateralMint = some acc.collateralMint := by
    rw [← h.mint_key, h.loaded.collateralMint_eq]
  obtain ⟨hn, hauth⟩ := h.settlerOtoken a ha
  have hready : (ctx.redeem D).Ready D s.ctrl acc.info n :=
    ⟨hpause, hinfo, h.info_seed, ⟨a, ha, ham, hao, hn, hauth⟩,
      ⟨_, h.loaded.settlerCollateral_eq, h.loaded.settlerCollateral_mint,
        h.loaded.settlerCollateral_owner⟩,
      ⟨p, hp, hpm, hpo, hpay⟩, ⟨_, hx⟩, h.mint_key, h.authority, hpos, hexpired, hpriced⟩
  obtain ⟨c, hc⟩ := Controller.redeem_succeeds hlive hburn hw hm hready
  have hmove := (step_of_exec (.redeem (ctx.redeem D) n) rfl trivial hc).move
  have hkept := hmove.kept (by simp)
  -- neither account the redemption takes from is the one it pays into
  have hne : ctx.settlerCollateralAccount ≠ ctx.settlerOtokenAccount :=
    h.loaded.collateral_ne_otoken (hw.info hinfo).2.2
  have hpool : ctx.settlerCollateralAccount ≠ ctx.poolTokenAccount := by
    intro heq
    have hsame := h.loaded.settlerCollateral_eq
    rw [heq, hp, Option.some.injEq] at hsame
    apply D.settlerConfig_ne_poolVaultAuth acc.info.collateralMint
    rw [← h.loaded.settlerCollateral_owner, ← hsame, hpo]
  have hle := redeem_le_amount hc (k := ctx.settlerCollateralAccount) hne hpool
  obtain ⟨b, hb, hbm, hbo, hbd⟩ := hkept.some h.loaded.settlerCollateral_eq
  obtain ⟨e, he, hem, -, -⟩ := hkept.some h.loaded.mmCollateral_eq
  rw [Ledger.amount_eq h.loaded.settlerCollateral_eq, Ledger.amount_eq hb] at hle
  have hmint : c.ledger.mints.lookup acc.info.collateralMint = some acc.collateralMint := by
    rw [redeem_mint_of_ne hc (hw.info hinfo).2.2, hx]
  obtain ⟨L, hL⟩ := Controller.transferIfPositive_succeeds hlive (hmove.conserved hw.conserved) hb he
    hmint (hbm.trans h.loaded.settlerCollateral_mint) (hem.trans h.mmCollateral_mint)
    (Nat.sub_le b.amount acc.settlerCollateral.amount) (hbd h.settlerCollateral)
  refine ⟨{ s with
    ctrl := { c with ledger := L }
    makerOtokenBalances := s.makerOtokenBalances.insert ctx.makerOtokenBalance
      { acc.balance with balance := acc.balance.balance - n } }, ?_⟩
  simp only [redeemToMaker, loadTokenAccount, fromOption_bind_eq_ok, require_bind_eq_ok,
    lift_bind_eq_ok, Checked.sub_eq_some]
  refine ⟨hcov, _, (Nat.add_sub_of_le hcov).symm, c, hc, b, hb, _, (Nat.add_sub_of_le hle).symm, ?_⟩
  rw [bind_eq_ok]
  refine ⟨L, lift_eq_ok.mpr ?_, rfl⟩
  rw [h.mint_key, ← h.loaded.settlerCollateral_owner, ← hbo]
  exact hL

/-- Whatever a maker has in custody stands behind some vault of its series, and so does not leave the
payouts of the series undefined. -/
theorem computable_of_custody (hrun : Run (Step D T rent verifies) s₀ tr s) (h₀ : Initial D s₀)
    {maker otokenMint : Pubkey} (hpos : 0 < s.custody ⟨maker, otokenMint⟩) {info : OTokenInfo}
    (hinfo : s.ctrl.otokenInfos.lookup otokenMint = some info) : ∃ m, info.Computable m := by
  have hr := recorded_of_run hrun h₀
  have hle := custody_le_remainingTotal hrun h₀ ⟨maker, otokenMint⟩
  have htotal : remainingTotal s ⟨maker, otokenMint⟩ ≠ 0 := by omega
  obtain ⟨k, vm, hvm, hmint⟩ : ∃ k vm, s.vaultMMs.lookup k = some vm ∧ vm.otokenMint = otokenMint := by
    by_contra hnone
    push Not at hnone
    refine htotal (Store.total_eq_zero fun k vm hvm ↦ ?_)
    rw [VaultMM.remainingOf, if_neg]
    rintro ⟨-, hmint⟩
    exact hnone k vm hvm hmint
  obtain ⟨v, hv, hok⟩ := hr.vault k vm hvm
  have hvok := hr.wellFormed.vault hv
  obtain ⟨info', hinfo', -, hc, -⟩ := hvok.backed (hvok.bound.mp hok.otokenMint_ne)
  rw [hok.otokenMint, hmint, hinfo, Option.some.injEq] at hinfo'
  subst hinfo'
  exact ⟨_, hc⟩

/-! ## The escape hatch -/

/-- **A maker that has something in custody can get it out after the escape delay if and only if it is
still listed**, whatever else the owner and the operator have done. -/
theorem escape_succeeds_iff (hlive : T.Live) (hburn : T.BurnLive)
    (hrun : Run (Step D T rent verifies) s₀ tr s) (h₀ : Initial D s₀) (hclock : s.ctrl.clock < 2 ^ 63)
    (hpause : ∃ c, s.ctrl.config = some c ∧ c.fullyPaused = false) (hready : ctx.Ready D s acc n)
    (hpriced : 0 < acc.info.expiryPrice)
    (hescape : ∃ config, s.config = some config ∧
      acc.info.expiry + config.escapeDelay ≤ s.ctrl.clock)
    (hpos : 0 < n) (hcov : n ≤ s.custody ⟨ctx.signer, ctx.otokenMint⟩) :
    (∃ s', mmSelfRedeem D T ctx n s = .ok s') ↔
      ∃ state, s.makerStates.lookup ctx.signer = some state ∧ state.whitelisted = true := by
  constructor
  · rintro ⟨s', h⟩
    simp only [mmSelfRedeem, loadConfig, loadMakerState, fromOption_bind_eq_ok,
      require_bind_eq_ok] at h
    obtain ⟨-, -, state, hstate, -, hlisted, -⟩ := h
    exact ⟨state, hstate, hlisted⟩
  · rintro ⟨state, hstate, hlisted⟩
    have hw := (recorded_of_run hrun h₀).wellFormed
    obtain ⟨config, hconfig, hdue⟩ := hescape
    have hmin := min_escape_delay_le hrun h₀ hconfig
    have hdelay : 0 < config.escapeDelay := lt_of_lt_of_le (by decide) hmin
    have hinfo : s.ctrl.otokenInfos.lookup ctx.otokenMint = some acc.info :=
      hready.loaded.info_eq_of_seed hready.info_seed
    obtain ⟨m, hm⟩ := computable_of_custody hrun h₀ (hpos.trans_le hcov) hinfo
    have hbalance : n ≤ acc.balance.balance := by
      rwa [State.custody, ← hready.key_eq, hready.loaded.balance_eq, Option.elim_some] at hcov
    obtain ⟨a, ha, ham, -⟩ := hready.loaded.settlerOtoken
    have hheld := (hready.settlerOtoken a ha).1
    obtain ⟨x, hx, -⟩ := hw.conserved.mint ha (hpos.trans_le hheld)
    rw [ham] at hx
    obtain ⟨s', hs'⟩ := redeemToMaker_succeeds hlive hburn hw hpause hm hpos (by omega) hpriced
      hbalance hready
    refine ⟨s', ?_⟩
    simp only [mmSelfRedeem, loadConfig, loadMakerState, fromOption_bind_eq_ok, require_bind_eq_ok]
    refine ⟨config, hconfig, state, hstate, makersNamed_of_run hrun h₀ _ _ hstate, hlisted, ?_⟩
    rw [bind_eq_ok]
    refine ⟨acc, loadCustody_ok hready.loaded ⟨x, hx⟩, ?_⟩
    simp only [require_bind_eq_ok]
    exact ⟨hready.key_eq, hready.mmCollateral_mint, hready.mmCollateral_owner, hpos, hdelay,
      by omega, hdue, hpriced, hs'⟩

section Sample

/-- The maker redeems by itself. -/
def sampleSelfRedeem : RedeemForMM := { sampleRedeemForMM with signer := otherKey }

/-- The escape delay passes. -/
def sampleEscaped : List Action := sampleFirst ++ samplePriced ++ [.controller (.tick 259300)]

/-- And the owner delists the maker. -/
def sampleDelisted : List Action := sampleEscaped ++ [.call (.whitelistMaker 1 otherKey false)]

/-- What the accounts of that call hold. -/
def sampleCustody : Custody where
  balance := ⟨otherKey, 20, 1000000⟩
  info := ⟨20, 10, 15, 10, 500000000, 100, false, 6, 700000000⟩
  collateralMint := ⟨none, 6000000, 6⟩
  settlerCollateral := ⟨10, 4, 0, none, 0⟩
  mmCollateral := ⟨10, otherKey, 4000000, some 4, 4000000⟩

theorem sampleSelfRedeem_ready {as : List Action} (has : as = sampleEscaped ∨ as = sampleDelisted) :
    sampleSelfRedeem.Ready sampleDeployment (sampleRun as) sampleCustody 1000000 := by
  have hspend : ∀ a, (sampleRun as).ctrl.ledger.accounts.lookup 41 = some a →
      1000000 ≤ a.amount ∧ a.Authorizes sampleDeployment.settlerConfig 1000000 := by
    intro a ha
    have heq : (sampleRun as).ctrl.ledger.accounts.lookup 41 = some ⟨20, 4, 1000000, none, 0⟩ := by
      rcases has with rfl | rfl <;> decide +kernel
    obtain rfl := Option.some.inj (heq.symm.trans ha)
    exact ⟨by decide, by decide⟩
  rcases has with rfl | rfl <;> exact
    { loaded :=
        { balance_eq := by decide +kernel
          info_eq := by decide +kernel
          collateralMint_eq := by decide +kernel
          settlerOtoken := ⟨⟨20, 4, 1000000, none, 0⟩, by decide +kernel, rfl, rfl⟩
          settlerCollateral_eq := by decide +kernel
          settlerCollateral_mint := rfl
          settlerCollateral_owner := rfl
          mmCollateral_eq := by decide +kernel }
      key_eq := rfl
      info_seed := rfl
      mmCollateral_mint := rfl
      mmCollateral_owner := rfl
      settlerOtoken := hspend
      settlerCollateral := rfl
      pool := ⟨⟨10, sampleDeployment.poolVaultAuth 10, 10000, none, 0⟩, by decide +kernel, rfl, rfl,
        by decide +kernel⟩
      mint_key := rfl
      authority := rfl }

theorem sampleDelisted_run : Run (Step sampleDeployment splToken id sampleScheme) sampleState
    (sampleTrace sampleDelisted) (sampleRun sampleDelisted) :=
  sampleRun_run (by decide +kernel) (by decide +kernel)

/-- **A delisted maker cannot get out**, however long it waits: everything the call needs is there, and
it fails. -/
theorem escape_blocked_by_delisting :
    Initial sampleDeployment sampleState ∧
    Run (Step sampleDeployment splToken id sampleScheme) sampleState (sampleTrace sampleDelisted)
      (sampleRun sampleDelisted) ∧
    sampleSelfRedeem.Ready sampleDeployment (sampleRun sampleDelisted) sampleCustody 1000000 ∧
    (sampleRun sampleDelisted).ctrl.config = some ⟨1, 0, false, false⟩ ∧
    0 < sampleCustody.info.expiryPrice ∧
    (∃ config, (sampleRun sampleDelisted).config = some config ∧
      sampleCustody.info.expiry + config.escapeDelay ≤ (sampleRun sampleDelisted).ctrl.clock) ∧
    (sampleRun sampleDelisted).custody ⟨otherKey, 20⟩ = 1000000 ∧
    mmSelfRedeem sampleDeployment splToken sampleSelfRedeem 1000000 (sampleRun sampleDelisted) =
      .error (err .makerNotWhitelisted) := by
  have hconfig : (sampleRun sampleDelisted).config = some ⟨1, 1, 2, 100, false, 259200, 7⟩ := by
    decide +kernel
  have hmaker : (sampleRun sampleDelisted).makerStates.lookup otherKey =
      some ⟨otherKey, 0, false⟩ := by decide +kernel
  refine ⟨sampleState_initial, sampleDelisted_run, sampleSelfRedeem_ready (.inr rfl),
    by decide +kernel, by decide, ⟨_, hconfig, by decide +kernel⟩, by decide +kernel, ?_⟩
  rw [mmSelfRedeem, loadConfig, hconfig, loadMakerState]
  rw [show sampleSelfRedeem.signer = otherKey from rfl, hmaker]
  rfl

theorem escape_succeeds_iff_sample : ∃ s',
    mmSelfRedeem sampleDeployment splToken sampleSelfRedeem 1000000 (sampleRun sampleEscaped) = .ok s' := by
  have hrun : Run (Step sampleDeployment splToken id sampleScheme) sampleState
      (sampleTrace sampleEscaped) (sampleRun sampleEscaped) :=
    sampleRun_run (by decide +kernel) (by decide +kernel)
  have hconfig : (sampleRun sampleEscaped).config = some ⟨1, 1, 2, 100, false, 259200, 7⟩ := by
    decide +kernel
  have hmaker : (sampleRun sampleEscaped).makerStates.lookup otherKey =
      some ⟨otherKey, 0, true⟩ := by decide +kernel
  exact (escape_succeeds_iff splToken_live splToken_burnLive hrun sampleState_initial
    (by decide +kernel) ⟨⟨1, 0, false, false⟩, by decide +kernel, rfl⟩
    (sampleSelfRedeem_ready (.inl rfl)) (by decide) ⟨_, hconfig, by decide +kernel⟩ (by decide)
    (by decide +kernel)).mpr ⟨_, hmaker, rfl⟩

end Sample

end Settler

end OptionsProtocol
