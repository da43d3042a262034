import OptionsProtocol.Controller.Instructions

/-!
# What a successful instruction establishes

One structure and one theorem for each instruction that touches a vault, a series or a token: the
accounts it read, the guards it passed, and the state it left. Every later result about the
controller is derived from these and never unfolds a handler again.

The administrative instructions are grouped: they leave vaults, series and tokens alone.
-/

namespace OptionsProtocol

namespace Controller

open Except

variable {D : Deployment} {T : TokenProgram} {s s' : State}

theorem transferIfPositive_eq_ok {L L' : Ledger} {src mint dst auth : Pubkey} {n d : ℕ} :
    transferIfPositive T L src mint dst auth n d = .ok L' ↔
      0 < n ∧ T.transferChecked L src mint dst auth n d = some L' ∨ n = 0 ∧ L' = L := by
  rw [transferIfPositive]
  split
  · rename_i hn
    rw [fromOption_eq_ok]
    simp [hn, hn.ne']
  · rename_i hn
    rw [Except.ok.injEq]
    simp [Nat.eq_zero_of_not_pos hn, eq_comm]

theorem amount_le_of_transferIfPositive {L L' : Ledger} {src mint dst auth : Pubkey} {n d : ℕ}
    (h : transferIfPositive T L src mint dst auth n d = .ok L') (k : Pubkey) :
    L.amount k ≤ L'.amount k + (if k = src then n else 0) := by
  rcases transferIfPositive_eq_ok.mp h with ⟨-, ht⟩ | ⟨-, rfl⟩
  · obtain ⟨r, hr⟩ := T.transferChecked_spec ht
    exact hr.amount_le k
  · exact Nat.le_add_right _ _

/-! ## Vaults -/

structure OpenVault.Effect (s : State) (owner collateralMint beneficiary : Pubkey) (id : ℕ)
    (s' : State) : Prop where
  counter : s.vaultCounters.lookup owner = some ⟨owner, id⟩
  fresh : s.vaults.lookup ⟨owner, id⟩ = none
  free : ¬s.CounterAt ⟨owner, id⟩
  unpaused : ∃ c, s.config = some c ∧ c.fullyPaused = false ∧ c.partiallyPaused = false
  beneficiary_ne : beneficiary ≠ Pubkey.default
  state_eq : s' = { s with
    vaults := s.vaults.insert ⟨owner, id⟩
      { owner, vaultId := id, collateralMint, collateralAmount := 0
        otokenMint := Pubkey.default, shortAmount := 0, settled := false, beneficiary }
    vaultCounters := s.vaultCounters.insert owner { owner, nextId := id + 1 }
    log := s.log ++ [.vaultOpened owner id] }

theorem openVault_effect {owner collateralMint beneficiary : Pubkey}
    (h : openVault owner collateralMint beneficiary s = .ok s') :
    ∃ id, OpenVault.Effect s owner collateralMint beneficiary id s' := by
  simp only [openVault, loadConfig, fromOption_bind_eq_ok, require_bind_eq_ok, pure_eq_ok,
    Checked.add_eq_some] at h
  obtain ⟨c, hc, ⟨o, id⟩, hcounter, hfresh, hfree, rfl, hne, hfull, hpart, _, ⟨rfl, -⟩, rfl⟩ := h
  exact ⟨id, hcounter, hfresh, hfree, ⟨c, hc, hfull, hpart⟩, hne, rfl⟩

structure DepositCollateral.Effect (D : Deployment) (T : TokenProgram) (s : State)
    (ctx : DepositCollateral) (amount : ℕ) (vault : Vault) (user pool : TokenAccount)
    (ledger : Ledger) (s' : State) : Prop where
  vault_eq : s.vaults.lookup ctx.vault = some vault
  key_eq : ctx.vault = ⟨vault.owner, vault.vaultId⟩
  owner_eq : vault.owner = ctx.owner
  unsettled : vault.settled = false
  amount_pos : 0 < amount
  user_eq : s.ledger.accounts.lookup ctx.userTokenAccount = some user
  user_mint : user.mint = vault.collateralMint
  pool_eq : s.ledger.accounts.lookup ctx.poolTokenAccount = some pool
  pool_mint : pool.mint = vault.collateralMint
  pool_owner : pool.owner = D.poolVaultAuth vault.collateralMint
  collateral_eq : ctx.collateralMintAccount = vault.collateralMint
  transfer : ∃ d, T.transferChecked s.ledger ctx.userTokenAccount vault.collateralMint
    ctx.poolTokenAccount ctx.owner amount d = some ledger
  credited : ledger.amount ctx.poolTokenAccount = pool.amount + amount
  fits : vault.collateralAmount + amount < 2 ^ 64
  state_eq : s' = { s with
    ledger
    vaults := s.vaults.insert ctx.vault
      { vault with collateralAmount := vault.collateralAmount + amount }
    log := s.log ++ [.collateralDeposited vault.owner vault.vaultId vault.collateralMint amount] }

theorem depositCollateral_effect {ctx : DepositCollateral} {amount : ℕ}
    (h : depositCollateral D T ctx amount s = .ok s') :
    ∃ vault user pool ledger,
      DepositCollateral.Effect D T s ctx amount vault user pool ledger s' := by
  simp only [depositCollateral, loadConfig, loadVault, loadTokenAccount, loadMint,
    fromOption_bind_eq_ok, require_bind_eq_ok, pure_eq_ok, Checked.add_eq_some,
    Checked.sub_eq_some] at h
  obtain ⟨c, -, vault, hv, user, hu, mint, -, pool, hp, hk, ho, hcm, hpm, hpo, hpa, -, -, hpos,
    hset, hum, ledger, ht, reloaded, hr, _, hrec, rfl, _, ⟨rfl, hfit⟩, rfl⟩ := h
  refine ⟨vault, user, pool, ledger, hv, ?_, ho, hset, hpos, hu, hum, hp, hpm, hpo.trans hpa,
    hcm, ⟨_, hcm ▸ ht⟩, ?_, hfit, rfl⟩
  · rw [ho]
    exact hk
  · rw [Ledger.amount_eq hr, hrec]

structure MintOtoken.Effect (D : Deployment) (T : TokenProgram) (s : State) (ctx : MintOtoken)
    (amount : ℕ) (vault : Vault) (info : OTokenInfo) (destination : TokenAccount)
    (ledger : Ledger) (s' : State) : Prop where
  vault_eq : s.vaults.lookup ctx.vault = some vault
  owner_eq : vault.owner = ctx.owner
  info_eq : s.otokenInfos.lookup ctx.otokenMint = some info
  info_seed : ctx.otokenInfo = ctx.otokenMint
  info_mint : info.otokenMint = ctx.otokenMint
  collateral_eq : info.collateralMint = vault.collateralMint
  destination_eq : s.ledger.accounts.lookup ctx.destination = some destination
  destination_mint : destination.mint = ctx.otokenMint
  amount_pos : 0 < amount
  unexpired : s.clock < info.expiry
  unsettled : vault.settled = false
  bound : vault.otokenMint = Pubkey.default ∨ vault.otokenMint = ctx.otokenMint
  fits : vault.shortAmount + amount < 2 ^ 64
  computable : info.Computable (vault.shortAmount + amount)
  covered : info.required (vault.shortAmount + amount) ≤ vault.collateralAmount
  mintTo : T.mintTo s.ledger ctx.otokenMint ctx.destination D.controllerConfig amount = some ledger
  state_eq : s' = { s with
    ledger
    vaults := s.vaults.insert ctx.vault
      { vault with otokenMint := ctx.otokenMint, shortAmount := vault.shortAmount + amount }
    log := s.log ++ [.otokenMinted vault.owner vault.vaultId ctx.otokenMint amount] }

theorem mintOtoken_effect {ctx : MintOtoken} {amount : ℕ}
    (h : mintOtoken D T ctx amount s = .ok s') :
    ∃ vault info destination ledger,
      MintOtoken.Effect D T s ctx amount vault info destination ledger s' := by
  simp only [mintOtoken, loadConfig, loadVault, loadOtokenInfo, loadTokenAccount, loadMint,
    fromOption_bind_eq_ok, require_bind_eq_ok, Checked.add_eq_some] at h
  obtain ⟨c, -, vault, hv, info, hi, _, -, dest, hd, ho, hseed, hcm, him, hdm, -, -, hpos, hexp,
    hset, hbound, _, ⟨rfl, hfit⟩, h⟩ := h
  obtain ⟨r, hr, h⟩ := bind_eq_ok.mp h
  obtain ⟨hcomp, rfl⟩ := getRequiredCollateral_eq_ok.mp hr
  rw [require_bind_eq_ok, fromOption_bind_eq_ok] at h
  obtain ⟨hcov, ledger, hmint, hs⟩ := h
  rw [pure_eq_ok] at hs
  exact ⟨vault, info, dest, ledger, hv, ho, hseed ▸ hi, hseed, him.symm, hcm, hd, hdm, hpos, hexp,
    hset, hbound, hfit, hcomp, hcov, hmint, hs.symm⟩

structure SettleVault.Effect (D : Deployment) (T : TokenProgram) (s : State) (ctx : SettleVault)
    (vault : Vault) (info : OTokenInfo) (pool beneficiary : TokenAccount) (ledger : Ledger)
    (s' : State) : Prop where
  vault_eq : s.vaults.lookup ctx.vault = some vault
  key_eq : ctx.vault = ⟨vault.owner, vault.vaultId⟩
  info_eq : s.otokenInfos.lookup vault.otokenMint = some info
  info_mint : info.otokenMint = vault.otokenMint
  pool_eq : s.ledger.accounts.lookup ctx.poolTokenAccount = some pool
  pool_mint : pool.mint = vault.collateralMint
  pool_owner : pool.owner = D.poolVaultAuth vault.collateralMint
  beneficiary_eq : s.ledger.accounts.lookup ctx.beneficiaryTokenAccount = some beneficiary
  beneficiary_owner : beneficiary.owner = vault.beneficiary
  beneficiary_mint : beneficiary.mint = vault.collateralMint
  unsettled : vault.settled = false
  short_pos : 0 < vault.shortAmount
  expired : info.expiry ≤ s.clock
  priced : 0 < info.expiryPrice
  payout_le : info.payout vault.shortAmount ≤ vault.collateralAmount
  transfer : ∃ d, transferIfPositive T s.ledger ctx.poolTokenAccount vault.collateralMint
    ctx.beneficiaryTokenAccount (D.poolVaultAuth vault.collateralMint)
    (vault.collateralAmount - info.payout vault.shortAmount) d = .ok ledger
  state_eq : s' = { s with
    ledger
    vaults := s.vaults.insert ctx.vault { vault with settled := true }
    log := s.log ++ [.vaultSettled vault.owner vault.vaultId
      (vault.collateralAmount - info.payout vault.shortAmount) (info.payout vault.shortAmount)] }

theorem settleVault_effect {ctx : SettleVault} (h : settleVault D T ctx s = .ok s') :
    ∃ vault info pool beneficiary ledger,
      SettleVault.Effect D T s ctx vault info pool beneficiary ledger s' := by
  simp only [settleVault, loadConfig, loadVault, loadOtokenInfo, loadTokenAccount, loadMint,
    fromOption_bind_eq_ok, require_bind_eq_ok] at h
  obtain ⟨c, -, vault, hv, info, hi, pool, hp, mint, -, ben, hb, -, hk, hseed, him, hpm, hpo, hcm,
    hbo, hbm, hpa, -, hset, hshort, hexp, hprice, h⟩ := h
  obtain ⟨r, hr, h⟩ := bind_eq_ok.mp h
  obtain ⟨-, rfl⟩ := getPayout_eq_ok.mp hr
  obtain ⟨ret, hret, h⟩ := fromOption_bind_eq_ok.mp h
  rw [Checked.sub_eq_some] at hret
  obtain ⟨ledger, ht, hs⟩ := bind_eq_ok.mp h
  rw [pure_eq_ok] at hs
  obtain rfl : ret = vault.collateralAmount - info.payout vault.shortAmount := by
    rw [OTokenInfo.payout]
    omega
  refine ⟨vault, info, pool, ben, ledger, hv, hk, hseed ▸ hi, him, hp, hpm, hpo.trans hpa, hb, hbo,
    hbm, hset, hshort, hexp, hprice, ?_, ⟨mint.decimals, ?_⟩, hs.symm⟩
  · rw [OTokenInfo.payout]
    omega
  · rw [← hpa, ← hcm]
    exact ht

/-- The series passed to `settle_vault` is the one the vault is bound to. -/
theorem settleVault_seed {ctx : SettleVault} {vault : Vault} (h : settleVault D T ctx s = .ok s')
    (hv : s.vaults.lookup ctx.vault = some vault) : ctx.otokenInfo = vault.otokenMint := by
  simp only [settleVault, loadConfig, loadVault, loadOtokenInfo, loadTokenAccount, loadMint,
    fromOption_bind_eq_ok, require_bind_eq_ok] at h
  obtain ⟨c, -, vault', hv', info, -, pool, -, mint, -, ben, -, -, -, hseed, -⟩ := h
  rw [hseed, Option.some.inj (hv'.symm.trans hv)]

structure Redeem.Effect (D : Deployment) (T : TokenProgram) (s : State) (ctx : Redeem)
    (amount : ℕ) (info : OTokenInfo) (otoken collateral pool : TokenAccount)
    (burned ledger : Ledger) (s' : State) : Prop where
  info_eq : s.otokenInfos.lookup ctx.otokenMint = some info
  info_seed : ctx.otokenInfo = ctx.otokenMint
  info_mint : info.otokenMint = ctx.otokenMint
  otoken_eq : s.ledger.accounts.lookup ctx.redeemerOtokenAccount = some otoken
  otoken_mint : otoken.mint = ctx.otokenMint
  otoken_owner : otoken.owner = ctx.redeemer
  collateral_eq : s.ledger.accounts.lookup ctx.redeemerCollateralAccount = some collateral
  collateral_mint : collateral.mint = info.collateralMint
  collateral_owner : collateral.owner = ctx.redeemer
  collateralMint_eq : ctx.collateralMintAccount = info.collateralMint
  pool_eq : s.ledger.accounts.lookup ctx.poolTokenAccount = some pool
  pool_mint : pool.mint = info.collateralMint
  pool_owner : pool.owner = D.poolVaultAuth info.collateralMint
  amount_pos : 0 < amount
  expired : info.expiry ≤ s.clock
  priced : 0 < info.expiryPrice
  burn : ∃ d, T.burnChecked s.ledger ctx.otokenMint ctx.redeemerOtokenAccount ctx.redeemer amount d
    = some burned
  transfer : ∃ d, transferIfPositive T burned ctx.poolTokenAccount info.collateralMint
    ctx.redeemerCollateralAccount (D.poolVaultAuth info.collateralMint) (info.payout amount) d
    = .ok ledger
  state_eq : s' = { s with
    ledger
    log := s.log ++ [.redeemed ctx.otokenMint ctx.redeemer amount (info.payout amount)] }

theorem redeem_effect {ctx : Redeem} {amount : ℕ} (h : redeem D T ctx amount s = .ok s') :
    ∃ info otoken collateral pool burned ledger,
      Redeem.Effect D T s ctx amount info otoken collateral pool burned ledger s' := by
  simp only [redeem, loadConfig, loadOtokenInfo, loadTokenAccount, loadMint,
    fromOption_bind_eq_ok, require_bind_eq_ok] at h
  obtain ⟨c, -, info, hi, om, -, otoken, hot, coll, hco, pool, hp, mint, -, hseed, him, hom, hoo,
    hcolm, hcolo, hpm, hpo, hcm, hpa, -, hpos, hexp, hprice, h⟩ := h
  obtain ⟨r, hr, h⟩ := bind_eq_ok.mp h
  obtain ⟨-, rfl⟩ := getPayout_eq_ok.mp hr
  obtain ⟨burned, hburn, h⟩ := fromOption_bind_eq_ok.mp h
  obtain ⟨ledger, ht, hs⟩ := bind_eq_ok.mp h
  rw [pure_eq_ok] at hs
  refine ⟨info, otoken, coll, pool, burned, ledger, hseed ▸ hi, hseed, him.symm, hot, hom, hoo, hco,
    hcolm, hcolo, hcm, hp, hpm, hpo.trans hpa, hpos, hexp, hprice, ⟨_, hburn⟩, ⟨mint.decimals, ?_⟩,
    hs.symm⟩
  rw [← hpa, ← hcm]
  exact ht

structure EmergencyWithdrawVault.Effect (D : Deployment) (T : TokenProgram) (s : State)
    (ctx : EmergencyWithdrawVault) (vault : Vault) (pool beneficiary : TokenAccount)
    (ledger : Ledger) (s' : State) : Prop where
  vault_eq : s.vaults.lookup ctx.vault = some vault
  key_eq : ctx.vault = ⟨vault.owner, vault.vaultId⟩
  owner_eq : vault.owner = ctx.owner
  pool_eq : s.ledger.accounts.lookup ctx.poolTokenAccount = some pool
  pool_mint : pool.mint = vault.collateralMint
  pool_owner : pool.owner = D.poolVaultAuth vault.collateralMint
  beneficiary_eq : s.ledger.accounts.lookup ctx.beneficiaryTokenAccount = some beneficiary
  beneficiary_owner : beneficiary.owner = vault.beneficiary
  beneficiary_mint : beneficiary.mint = vault.collateralMint
  paused : ∃ c, s.config = some c ∧ c.fullyPaused = true
  unsettled : vault.settled = false
  transfer : ∃ d, transferIfPositive T s.ledger ctx.poolTokenAccount vault.collateralMint
    ctx.beneficiaryTokenAccount (D.poolVaultAuth vault.collateralMint) vault.collateralAmount d
    = .ok ledger
  state_eq : s' = { s with
    ledger
    vaults := s.vaults.insert ctx.vault { vault with settled := true }
    log := s.log ++
      [.emergencyWithdraw vault.beneficiary vault.vaultId vault.collateralAmount] }

theorem emergencyWithdrawVault_effect {ctx : EmergencyWithdrawVault}
    (h : emergencyWithdrawVault D T ctx s = .ok s') :
    ∃ vault pool beneficiary ledger,
      EmergencyWithdrawVault.Effect D T s ctx vault pool beneficiary ledger s' := by
  simp only [emergencyWithdrawVault, loadConfig, loadVault, loadTokenAccount, loadMint,
    fromOption_bind_eq_ok, require_bind_eq_ok] at h
  obtain ⟨c, hc, vault, hv, pool, hp, mint, -, ben, hb, hk, ho, hpm, hpo, hcm, hbo, hbm, hpa, hfull,
    hset, h⟩ := h
  obtain ⟨ledger, ht, hs⟩ := bind_eq_ok.mp h
  rw [pure_eq_ok] at hs
  refine ⟨vault, pool, ben, ledger, hv, hk, ho, hp, hpm, hpo.trans hpa, hb, hbo, hbm,
    ⟨c, hc, hfull⟩, hset, ⟨mint.decimals, ?_⟩, hs.symm⟩
  rw [← hpa, ← hcm]
  exact ht

/-! ## Series -/

structure CreateOTokenInfo.Effect (s : State) (ctx : CreateOTokenInfo) (info : OTokenInfo)
    (s' : State) : Prop where
  fresh : s.otokenInfos.lookup ctx.otokenMint = none
  mint_eq : info.otokenMint = ctx.otokenMint
  factory_mint : ctx.factoryOtoken.mint = ctx.otokenMint
  collateral_eq : info.collateralMint = ctx.factoryOtoken.collateral
  unpriced : info.expiryPrice = 0
  strike_pos : 0 < info.strikePrice
  decimals_le : info.collateralDecimals ≤ 18
  state_eq : s' = { s with otokenInfos := s.otokenInfos.insert ctx.otokenMint info }

theorem createOtokenInfo_effect {ctx : CreateOTokenInfo} (h : createOtokenInfo ctx s = .ok s') :
    ∃ info, CreateOTokenInfo.Effect s ctx info s' := by
  simp only [createOtokenInfo, loadConfig, loadMint, fromOption_bind_eq_ok, require_bind_eq_ok,
    pure_eq_ok] at h
  obtain ⟨c, -, mint, -, hfresh, hm, -, -, -, -, -, hstrike, hdec, rfl⟩ := h
  exact ⟨_, hfresh, hm, hm, rfl, rfl, hstrike, hdec, rfl⟩

/-- The record of a series that was just registered. -/
def OTokenInfo.ofFactory (otoken : OtokenFactory.OToken) (collateralDecimals : ℕ) : OTokenInfo :=
  { otokenMint := otoken.mint, underlying := otoken.underlying, strikeAsset := otoken.strikeAsset
    collateralMint := otoken.collateral, strikePrice := otoken.strikePrice, expiry := otoken.expiry
    isPut := otoken.isPut, collateralDecimals, expiryPrice := 0 }

theorem createOtokenInfo_copies {ctx : CreateOTokenInfo} (h : createOtokenInfo ctx s = .ok s') :
    ctx.factoryOtoken.mint = ctx.otokenMint ∧ ctx.whitelistedOtoken.otokenMint = ctx.otokenMint ∧
      ctx.whitelistedOtoken.active = true ∧ ∃ mint,
        s.ledger.mints.lookup ctx.factoryOtoken.collateral = some mint ∧
        s'.otokenInfos = s.otokenInfos.insert ctx.otokenMint
          (.ofFactory ctx.factoryOtoken mint.decimals) := by
  simp only [createOtokenInfo, loadConfig, loadMint, fromOption_bind_eq_ok, require_bind_eq_ok,
    pure_eq_ok] at h
  obtain ⟨c, -, mint, hmint, -, hm, hcollateral, hentry, hactive, -, -, -, -, rfl⟩ := h
  exact ⟨hm, hentry, hactive, mint, hcollateral ▸ hmint, rfl⟩

structure SetExpiryPrice.Effect (s : State) (ctx : SetExpiryPrice) (info : OTokenInfo)
    (s' : State) : Prop where
  info_eq : s.otokenInfos.lookup ctx.otokenInfo = some info
  info_mint : info.otokenMint = ctx.otokenInfo
  expired : info.expiry ≤ s.clock
  price_pos : 0 < ctx.oracleExpiryPrice.price
  unpriced : info.expiryPrice = 0
  state_eq : s' = { s with
    otokenInfos := s.otokenInfos.insert ctx.otokenInfo
      { info with expiryPrice := ctx.oracleExpiryPrice.price } }

theorem setExpiryPrice_effect {ctx : SetExpiryPrice} (h : setExpiryPrice ctx s = .ok s') :
    ∃ info, SetExpiryPrice.Effect s ctx info s' := by
  simp only [setExpiryPrice, loadConfig, loadOtokenInfo, fromOption_bind_eq_ok,
    require_bind_eq_ok, pure_eq_ok] at h
  obtain ⟨c, -, info, hi, -, hseed, -, -, -, hexp, hpos, hzero, -, rfl⟩ := h
  exact ⟨info, hi, hseed.symm, hexp, hpos, hzero, rfl⟩

/-! ## Administration -/

/-- The instruction only configures the controller or creates a counter. -/
def Instruction.IsAdministrative : Instruction → Prop
  | .initializeConfig .. | .initializeCounter .. | .setPartialPauser .. | .setPartiallyPaused ..
  | .setFullyPaused .. => True
  | _ => False

/-- Events that no account balance depends on. -/
def Event.IsAdministrative : Event → Prop
  | .controllerInitialized .. | .systemPartiallyPaused .. | .systemFullyPaused .. => True
  | _ => False

/-- Vaults, series, tokens and the clock are as before. -/
structure Administered (s s' : State) : Prop where
  clock_eq : s'.clock = s.clock
  ledger_eq : s'.ledger = s.ledger
  vaults_eq : s'.vaults = s.vaults
  otokenInfos_eq : s'.otokenInfos = s.otokenInfos
  log_eq : ∃ es, s'.log = s.log ++ es ∧ ∀ e ∈ es, e.IsAdministrative

theorem administered_of_exec {ix : Instruction} (h : exec D T ix s = .ok s')
    (hix : ix.IsAdministrative) : Administered s s' := by
  cases ix with
  | initializeConfig payer admin =>
    simp only [exec, initializeConfig, require_bind_eq_ok, pure_eq_ok] at h
    obtain ⟨-, -, rfl⟩ := h
    exact ⟨rfl, rfl, rfl, rfl, _, rfl, by simp [Event.IsAdministrative]⟩
  | initializeCounter owner =>
    simp only [exec, initializeCounter, require_bind_eq_ok, pure_eq_ok] at h
    obtain ⟨-, -, rfl⟩ := h
    exact ⟨rfl, rfl, rfl, rfl, [], by simp⟩
  | setPartialPauser admin pauser =>
    simp only [exec, setPartialPauser, adminConfig, loadConfig, bind_eq_ok, fromOption_eq_ok,
      require_eq_ok, pure_eq_ok] at h
    obtain ⟨c, -, -, -, rfl⟩ := h
    exact ⟨rfl, rfl, rfl, rfl, [], by simp⟩
  | setPartiallyPaused caller paused =>
    simp only [exec, setPartiallyPaused, loadConfig, fromOption_bind_eq_ok, require_bind_eq_ok,
      pure_eq_ok] at h
    obtain ⟨c, -, -, rfl⟩ := h
    refine ⟨rfl, rfl, rfl, rfl, if paused then [.systemPartiallyPaused caller] else [], ?_, ?_⟩
    · cases paused <;> simp
    · cases paused <;> simp [Event.IsAdministrative]
  | setFullyPaused admin paused =>
    simp only [exec, setFullyPaused, adminConfig, loadConfig, bind_eq_ok, fromOption_eq_ok,
      pure_eq_ok] at h
    obtain ⟨c, -, rfl⟩ := h
    refine ⟨rfl, rfl, rfl, rfl, if paused then [.systemFullyPaused admin] else [], ?_, ?_⟩
    · cases paused <;> simp
    · cases paused <;> simp [Event.IsAdministrative]
  | _ => exact absurd hix (by simp [Instruction.IsAdministrative])

end Controller

end OptionsProtocol
