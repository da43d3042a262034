import OptionsProtocol.Controller.Series

/-!
# Calls that go through

Nothing in the controller waits for anybody's consent once a series has its price, or once the
controller is fully paused: a redemption and an emergency withdrawal succeed whenever the accounts
passed to them fit and hold enough. What has to be ruled out is arithmetic. An account never
overflows, since all accounts of a mint together hold no more than its supply; and a payout the pool
can pay is a payout that can be computed.
-/

namespace OptionsProtocol

namespace Controller

open Except

variable {D : Deployment} {T : TokenProgram} {s s' s₀ : State} {l : Label}
  {tr : List (Transition State Label)}

/-- A transfer between accounts of a mint goes through if the owner signs, the source covers it and has no
delegate. -/
theorem transferIfPositive_succeeds (hlive : T.Live) {L : Ledger} (hc : L.Conserved)
    {src mint dst : Pubkey} {n : ℕ} {a b : TokenAccount} {x : Mint}
    (ha : L.accounts.lookup src = some a) (hb : L.accounts.lookup dst = some b)
    (hx : L.mints.lookup mint = some x) (hma : a.mint = mint) (hmb : b.mint = mint)
    (hn : n ≤ a.amount) (hd : a.delegate = none) :
    ∃ L', transferIfPositive T L src mint dst a.owner n x.decimals = .ok L' := by
  rcases Nat.eq_zero_or_pos n with hzero | hpos
  · exact ⟨L, transferIfPositive_eq_ok.mpr (.inr ⟨hzero, rfl⟩)⟩
  · have hfit : src ≠ dst → b.amount + n < 2 ^ 64 := by
      intro hne
      have htwo := Ledger.amount_add_le_circulating ha hb hne hma hmb
      have hsupply := hc mint
      omega
    obtain ⟨L', ht⟩ := Option.isSome_iff_exists.mp
      (hlive ha hb hx hma hmb rfl hn (TokenAccount.authorizes_owner hd) hfit)
    exact ⟨L', transferIfPositive_eq_ok.mpr (.inl ⟨hpos, ht⟩)⟩

/-! ## Issued series -/

/-- The controller can mint the series. -/
def Issued (D : Deployment) (o : Pubkey) (L : Ledger) : Prop :=
  ∃ x, L.mints.lookup o = some x ∧ x.mintAuthority = some D.controllerConfig

theorem Move.issued {o : Pubkey} (ho : D.IsOtokenMint o) (h : Move D T s l s')
    (hi : Issued D o s.ledger) : Issued D o s'.ledger := by
  obtain ⟨x, hx, hauth⟩ := hi
  cases l with
  | token =>
    cases h with
    | token h =>
      obtain ⟨x', hx', heq, -⟩ := h.mint_kept hx ho hauth D.isControllerPda_controllerConfig
      exact ⟨x', hx', by rw [heq, hauth]⟩
  | _ =>
    obtain ⟨supply, hx'⟩ := h.mint_kept (by simp) hx
    exact ⟨_, hx', hauth⟩

theorem issued_of_run (hrun : Run (Step D T) s₀ tr s) (h₀ : Initial D s₀) {o : Pubkey}
    (ho : D.IsOtokenMint o) (hpos : 0 < mintedTotal s o) : Issued D o s.ledger := by
  induction hrun with
  | nil =>
    rw [mintedTotal, h₀.vaults] at hpos
    exact absurd hpos (by simp)
  | @snoc tr u u' l hr hs ih =>
    have heq := hs.move.mintedTotal_eq (wellFormed_of_run hr h₀) o
    rcases Nat.eq_zero_or_pos (mintedTotal u o) with hzero | hprev
    · have hmint : l.mintedOf o ≠ 0 := by omega
      cases hs.move with
      | @minted ctx n _ _ _ _ _ h =>
        rw [Label.mintedOf, ne_eq, ite_eq_right_iff, Classical.not_imp] at hmint
        obtain ⟨rfl, -⟩ := hmint
        have hspec := T.mintTo_spec h.mintTo
        obtain ⟨x, -, hx, hauth, -⟩ := id hspec
        obtain ⟨supply, hx'⟩ := hspec.mint_kept hx
        rw [h.state_eq]
        exact ⟨_, hx', hauth⟩
      | @administered ix _ hix _ => cases ix <;> first | exact absurd rfl hmint | exact absurd hix id
      | _ => exact absurd rfl hmint
    · exact hs.move.issued ho (ih hprev)

/-! ## Redemption -/

/-- The accounts passed to `redeem` fit and hold enough, and the series is due. -/
structure Redeem.Ready (D : Deployment) (s : State) (ctx : Redeem) (info : OTokenInfo) (n : ℕ) :
    Prop where
  config : ∃ c, s.config = some c ∧ c.fullyPaused = false
  info_eq : s.otokenInfos.lookup ctx.otokenMint = some info
  info_seed : ctx.otokenInfo = ctx.otokenMint
  otoken : ∃ a, s.ledger.accounts.lookup ctx.redeemerOtokenAccount = some a ∧
    a.mint = ctx.otokenMint ∧ a.owner = ctx.redeemer ∧ n ≤ a.amount ∧ a.Authorizes ctx.redeemer n
  collateral : ∃ b, s.ledger.accounts.lookup ctx.redeemerCollateralAccount = some b ∧
    b.mint = info.collateralMint ∧ b.owner = ctx.redeemer
  pool : ∃ p, s.ledger.accounts.lookup ctx.poolTokenAccount = some p ∧
    p.mint = info.collateralMint ∧ p.owner = D.poolVaultAuth info.collateralMint ∧
      info.payout n ≤ p.amount
  mint : ∃ x, s.ledger.mints.lookup info.collateralMint = some x
  mint_key : ctx.collateralMintAccount = info.collateralMint
  authority : ctx.poolVaultAuthority = D.poolVaultAuth info.collateralMint
  amount_pos : 0 < n
  expired : info.expiry ≤ s.clock
  priced : 0 < info.expiryPrice

/-- A payout that an account holds can be computed, if anything was ever minted of the series. -/
theorem OTokenInfo.getPayout_ok {info : OTokenInfo} {m n : ℕ} (hm : info.Computable m)
    (hlt : info.payout n < 2 ^ 64) :
    getPayout info.strikePrice info.expiryPrice info.isPut info.collateralDecimals n =
      .ok (info.payout n) := by
  refine getPayout_eq_ok.mpr ⟨?_, rfl⟩
  intro hitm
  apply Computable.of_required_lt hm
  rwa [OTokenInfo.payout, payoutOf, if_pos hitm] at hlt

/-- **A redemption that is due goes through.** -/
theorem redeem_succeeds (hlive : T.Live) (hburn : T.BurnLive) (hw : WellFormed D s) {ctx : Redeem}
    {info : OTokenInfo} {m n : ℕ} (hm : info.Computable m) (h : ctx.Ready D s info n) :
    ∃ s', redeem D T ctx n s = .ok s' := by
  obtain ⟨c, hc, hpause⟩ := h.config
  obtain ⟨a, ha, ham, hao, hn, hauth⟩ := h.otoken
  obtain ⟨b, hb, hbm, hbo⟩ := h.collateral
  obtain ⟨p, hp, hpm, hpo, hpay⟩ := h.pool
  obtain ⟨x, hx⟩ := h.mint
  obtain ⟨himint, -, hcoll⟩ := hw.info h.info_eq
  have hpayout := OTokenInfo.getPayout_ok hm (hpay.trans_lt (hw.conserved.amount_lt hp))
  -- the mint exists, since some of its tokens do
  obtain ⟨y, hy, hsupply⟩ := hw.conserved.mint ha (h.amount_pos.trans_le hn)
  rw [ham] at hy
  obtain ⟨B, hB⟩ := Option.isSome_iff_exists.mp
    (hburn ha hy ham rfl hn (hn.trans hsupply) hauth)
  have hburned := T.burnChecked_spec hB
  have hother : ∀ {k : Pubkey} {e : TokenAccount}, s.ledger.accounts.lookup k = some e →
      e.mint = info.collateralMint → B.accounts.lookup k = some e := by
    intro k e he hem
    rw [hburned.lookup_of_ne, he]
    rintro rfl
    rw [ha, Option.some.injEq] at he
    exact hcoll (by rw [← hem, ← he, ham])
  obtain ⟨L, hL⟩ := transferIfPositive_succeeds hlive (hburned.conserved hw.conserved)
    (hother hp hpm) (hother hb hbm) (by rw [hburned.mint_of_ne hcoll, hx]) hpm hbm hpay
    (hw.undelegated _ _ hp (hpo ▸ D.isControllerPda_poolVaultAuth _))
  refine ⟨{ s with
    ledger := L
    log := s.log ++ [.redeemed ctx.otokenMint ctx.redeemer n (info.payout n)] }, ?_⟩
  simp only [redeem, loadConfig, loadOtokenInfo, loadTokenAccount, loadMint, fromOption_bind_eq_ok,
    require_bind_eq_ok]
  refine ⟨c, hc, info, h.info_seed ▸ h.info_eq, y, hy, a, ha, b, hb, p, hp, x, h.mint_key ▸ hx,
    h.info_seed, himint.symm, ham, hao, hbm, hbo, hpm, hpo.trans h.authority.symm, h.mint_key,
    h.authority, hpause, h.amount_pos, h.expired, h.priced, ?_⟩
  rw [bind_eq_ok]
  refine ⟨_, hpayout, ?_⟩
  rw [fromOption_bind_eq_ok]
  refine ⟨B, hB, ?_⟩
  rw [bind_eq_ok]
  refine ⟨L, ?_, rfl⟩
  rw [h.authority, h.mint_key, ← hpo]
  exact hL

/-! ## Emergency withdrawal -/

/-- The accounts passed to `emergency_withdraw_vault` fit, and one account of the pool holds the
collateral of the vault. -/
structure EmergencyWithdrawVault.Ready (D : Deployment) (s : State) (ctx : EmergencyWithdrawVault)
    (v : Vault) : Prop where
  config : ∃ c, s.config = some c ∧ c.fullyPaused = true
  vault_eq : s.vaults.lookup ctx.vault = some v
  owner_eq : v.owner = ctx.owner
  unsettled : v.settled = false
  pool : ∃ p, s.ledger.accounts.lookup ctx.poolTokenAccount = some p ∧
    p.mint = v.collateralMint ∧ p.owner = D.poolVaultAuth v.collateralMint ∧
      v.collateralAmount ≤ p.amount
  beneficiary : ∃ b, s.ledger.accounts.lookup ctx.beneficiaryTokenAccount = some b ∧
    b.mint = v.collateralMint ∧ b.owner = v.beneficiary
  mint : ∃ x, s.ledger.mints.lookup v.collateralMint = some x
  mint_key : ctx.collateralMintAccount = v.collateralMint
  authority : ctx.poolVaultAuthority = D.poolVaultAuth v.collateralMint

/-- **An emergency withdrawal from an account that holds the collateral goes through.** -/
theorem emergencyWithdrawVault_succeeds (hlive : T.Live) (hc : s.ledger.Conserved)
    (hu : s.ledger.Undelegated D.IsControllerPda) {ctx : EmergencyWithdrawVault} {v : Vault}
    (hkey : ctx.vault = ⟨v.owner, v.vaultId⟩) (h : ctx.Ready D s v) :
    ∃ s', emergencyWithdrawVault D T ctx s = .ok s' := by
  obtain ⟨c, hconfig, hpause⟩ := h.config
  obtain ⟨p, hp, hpm, hpo, hle⟩ := h.pool
  obtain ⟨b, hb, hbm, hbo⟩ := h.beneficiary
  obtain ⟨x, hx⟩ := h.mint
  obtain ⟨L, hL⟩ := transferIfPositive_succeeds hlive hc hp hb hx hpm hbm hle
    (hu _ _ hp (hpo ▸ D.isControllerPda_poolVaultAuth _))
  refine ⟨{ s with
    ledger := L
    vaults := s.vaults.insert ctx.vault { v with settled := true }
    log := s.log ++ [.emergencyWithdraw v.beneficiary v.vaultId v.collateralAmount] }, ?_⟩
  simp only [emergencyWithdrawVault, loadConfig, loadVault, loadTokenAccount, loadMint,
    fromOption_bind_eq_ok, require_bind_eq_ok]
  refine ⟨c, hconfig, v, h.vault_eq, p, hp, x, h.mint_key ▸ hx, b, hb, hkey, h.owner_eq, hpm,
    hpo.trans h.authority.symm, h.mint_key, hbo, hbm, h.authority, hpause, h.unsettled, ?_⟩
  rw [bind_eq_ok]
  refine ⟨L, ?_, rfl⟩
  rw [h.authority, h.mint_key, ← hpo]
  exact hL

end Controller

end OptionsProtocol
