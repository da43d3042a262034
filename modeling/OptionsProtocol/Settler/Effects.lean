import OptionsProtocol.Controller.Effects
import OptionsProtocol.Settler.Instructions

/-!
# What a successful settler instruction establishes

As for the controller, one structure and one theorem for each instruction that moves a token or
writes one of the settler's records. A call to the controller is kept as the equation it is: what
the controller establishes there is read off with the controller's own theorems.

An instruction that only configures the settler or moves lamports leaves all of this alone.
-/

namespace OptionsProtocol

namespace Settler

open Except
open Controller (VaultKey Vault OTokenInfo)

variable {D : Deployment} {T : TokenProgram} {rent : ℕ → ℕ} {s s' : State}

/-! ## Parts -/

@[simp] theorem lift_eq_ok {α : Type} {x : Except Controller.Error α} {a : α} :
    lift x = .ok a ↔ x = .ok a := by
  cases x <;> simp [lift, Except.mapError]

theorem lift_bind_eq_ok {α β : Type} {x : Except Controller.Error α} {f : α → Except Error β}
    {b : β} : (lift x >>= f) = .ok b ↔ ∃ a, x = .ok a ∧ f a = .ok b := by
  simp only [bind_eq_ok, lift_eq_ok]

theorem burnIfPositive_eq_ok {L L' : Ledger} {mint src : Pubkey} {n d : ℕ} :
    burnIfPositive D T L mint src n d = .ok L' ↔
      0 < n ∧ T.burnChecked L mint src D.settlerConfig n d = some L' ∨ n = 0 ∧ L' = L := by
  rw [burnIfPositive]
  split
  · rename_i hn
    rw [fromOption_eq_ok]
    simp [hn, hn.ne']
  · rename_i hn
    rw [Except.ok.injEq]
    simp [Nat.eq_zero_of_not_pos hn, eq_comm]

/-- An account that an order finds or creates. -/
def loadOrInit {α : Type} (D : Deployment) (rent : ℕ → ℕ) (s : State) (k : Address) (space : ℕ)
    (stored : Option α) (fresh : α) : Except Error (SystemAccounts Address × α) :=
  match stored with
  | some a => .ok (s.system, a)
  | none => do
    let system ← createProgramPda D rent s.system k space
    pure (system, fresh)

theorem loadOrInitQuoteFill_def (q : QuoteKey) : loadOrInitQuoteFill D rent s q =
    loadOrInit D rent s (.quoteFill q) QUOTE_FILL_SPACE (s.quoteFills.lookup q) .zeroed := by
  rw [loadOrInitQuoteFill]
  cases s.quoteFills.lookup q <;> rfl

theorem loadOrInitMakerOtokenBalance_def (b : BalanceKey) : loadOrInitMakerOtokenBalance D rent s b =
    loadOrInit D rent s (.makerOtokenBalance b) MAKER_OTOKEN_BALANCE_SPACE
      (s.makerOtokenBalances.lookup b)
      { maker := Pubkey.default, otokenMint := Pubkey.default, balance := 0 } := by
  rw [loadOrInitMakerOtokenBalance]
  cases s.makerOtokenBalances.lookup b <;> rfl

theorem loadOrInit_eq {α : Type} {k : Address} {space : ℕ} {stored : Option α} {fresh a : α}
    {system : SystemAccounts Address} (h : loadOrInit D rent s k space stored fresh = .ok (system, a)) :
    a = stored.getD fresh := by
  cases stored with
  | some _ => exact (congrArg Prod.snd (Except.ok.inj h)).symm
  | none =>
    obtain ⟨S, -, hS⟩ := bind_eq_ok.mp h
    exact (congrArg Prod.snd (pure_eq_ok.mp hS)).symm

/-- The counter of an order, created or not, says what was filled and whether it was cancelled. -/
theorem loadOrInitQuoteFill_eq {k : QuoteKey} {system : SystemAccounts Address} {fill : QuoteFill}
    (h : loadOrInitQuoteFill D rent s k = .ok (system, fill)) :
    fill = ⟨s.filledAmount k, s.isCancelled k⟩ := by
  rw [loadOrInitQuoteFill_def] at h
  rw [loadOrInit_eq h, State.filledAmount, State.isCancelled]
  cases s.quoteFills.lookup k <;> rfl

theorem loadOrInitMakerOtokenBalance_eq {k : BalanceKey} {system : SystemAccounts Address}
    {balance : MakerOTokenBalance}
    (h : loadOrInitMakerOtokenBalance D rent s k = .ok (system, balance)) :
    balance.balance = s.custody k := by
  rw [loadOrInitMakerOtokenBalance_def] at h
  rw [loadOrInit_eq h, State.custody]
  cases s.makerOtokenBalances.lookup k <;> rfl

theorem validateMaker_eq_ok {state : MakerState} {n : ℕ} {u : Unit} :
    validateMaker state n = .ok u ↔ state.whitelisted = true ∧ state.nonce = n := by
  simp only [validateMaker, require_bind_eq_ok, require_eq_ok]

theorem updateFill_eq_ok {fill fill' : QuoteFill} {amount maxAmount : ℕ} :
    updateFill fill amount maxAmount = .ok fill' ↔
      fill.cancelled = false ∧ fill.filledAmount + amount < 2 ^ 64 ∧
        fill.filledAmount + amount ≤ maxAmount ∧
        fill' = { fill with filledAmount := fill.filledAmount + amount } := by
  simp only [updateFill, require_bind_eq_ok, fromOption_bind_eq_ok, Checked.add_eq_some, pure_eq_ok]
  constructor
  · rintro ⟨hc, _, ⟨rfl, hfit⟩, hle, rfl⟩
    exact ⟨hc, hfit, hle, rfl⟩
  · rintro ⟨hc, hfit, hle, rfl⟩
    exact ⟨hc, _, ⟨rfl, hfit⟩, hle, rfl⟩

theorem validateItm_eq_ok {clock : ℤ} {info : OTokenInfo} {u : Unit} :
    validateItm clock info = .ok u ↔ info.expiry ≤ clock ∧ 0 < info.expiryPrice ∧
      Controller.IsItm info.strikePrice info.expiryPrice info.isPut := by
  simp only [validateItm, require_bind_eq_ok, Controller.IsItm]
  cases info.isPut <;> simp

theorem cpiOpenVault_eq_ok {ctx : ExecuteOrder} {mint : Pubkey} {c c' : Controller.State} :
    cpiOpenVault D ctx mint c = .ok c' ↔ ctx.vaultCounter = D.settlerConfig ∧
      (∃ counter, c.vaultCounters.lookup D.settlerConfig = some counter ∧
        ctx.vault = ⟨D.settlerConfig, counter.nextId⟩) ∧
      Controller.openVault D.settlerConfig mint ctx.user c = .ok c' := by
  simp only [cpiOpenVault, require_bind_eq_ok, fromOption_bind_eq_ok, lift_eq_ok]
  constructor
  · rintro ⟨hcounter, counter, hc, hv, h⟩
    exact ⟨hcounter, ⟨counter, hcounter ▸ hc, hv⟩, h⟩
  · rintro ⟨hcounter, ⟨counter, hc, hv⟩, h⟩
    exact ⟨hcounter, counter, hcounter ▸ hc, hv, h⟩

/-! ## Orders -/

/-- What an order reads and goes through. -/
structure ExecuteOrder.Course where
  config : SettlerConfig
  /-- The controller after each of the three calls. -/
  opened : Controller.State
  funded : Controller.State
  minted : Controller.State
  /-- The lamports afterwards. -/
  system : SystemAccounts Address
  fee : ℕ
  net : ℕ
  /-- The ledger after the user's share of the premium, and after the fee. -/
  paid : Ledger
  ledger : Ledger

structure ExecuteOrder.Effect (D : Deployment) (T : TokenProgram) (s : State) (ctx : ExecuteOrder)
    (ord : Order) (tx : Transaction) (currentIndex : ℕ) (r : ExecuteOrder.Course) (s' : State) :
    Prop where
  config_eq : s.config = some r.config
  unpaused : r.config.paused = false
  maker_eq : s.makerStates.lookup ctx.maker = some ⟨ctx.maker, ord.makerNonce.toNat, true⟩
  signed : verifyEd25519Signature tx currentIndex ctx.maker.toBytes (ord.message ctx.otokenMint)
    = .ok ()
  amount_ge : MIN_EXECUTE_AMOUNT ≤ ord.amount.toNat
  not_cancelled : s.isCancelled (ctx.quoteKey ord) = false
  filled_le : s.filledAmount (ctx.quoteKey ord) + ord.amount.toNat ≤ ord.maxAmount.toNat
  vault_eq : ∃ counter, s.ctrl.vaultCounters.lookup D.settlerConfig = some counter ∧
    ctx.vault = ⟨D.settlerConfig, counter.nextId⟩
  fresh : s.vaultMMs.lookup ctx.vault = none
  userCollateral : ∃ a, s.ctrl.ledger.accounts.lookup ctx.userCollateralAccount = some a ∧
    a.owner = ctx.user
  settlerOtoken : ∃ a, s.ctrl.ledger.accounts.lookup ctx.settlerOtokenAccount = some a ∧
    a.mint = ctx.otokenMint ∧ a.owner = D.settlerConfig
  mmPremium : ∃ a, s.ctrl.ledger.accounts.lookup ctx.mmPremiumAccount = some a ∧
    a.mint = ord.premiumMint ∧ a.owner = ctx.maker
  userPremium : ∃ a, s.ctrl.ledger.accounts.lookup ctx.userPremiumAccount = some a ∧
    a.mint = ord.premiumMint ∧ a.owner = ctx.user
  treasury : ∃ a, s.ctrl.ledger.accounts.lookup ctx.treasuryAccount = some a ∧
    a.mint = ord.premiumMint ∧ a.owner = r.config.treasury
  openVault : Controller.openVault D.settlerConfig ord.collateralMint ctx.user s.ctrl = .ok r.opened
  deposit : Controller.depositCollateral D T (ctx.deposit D) ord.collateralAmount.toNat r.opened
    = .ok r.funded
  mint : Controller.mintOtoken D T (ctx.mint D) ord.amount.toNat r.funded = .ok r.minted
  split : ∃ premium, computePremiumSplit ord.amount.toNat ord.bidPrice.toNat
    r.config.protocolFeeBps = .ok (premium, r.fee, r.net)
  pay : ∃ d, Controller.transferIfPositive T r.minted.ledger ctx.mmPremiumAccount ord.premiumMint
    ctx.userPremiumAccount D.settlerConfig r.net d = .ok r.paid
  payFee : ∃ d, Controller.transferIfPositive T r.paid ctx.mmPremiumAccount ord.premiumMint
    ctx.treasuryAccount D.settlerConfig r.fee d = .ok r.ledger
  state_eq : s' = { s with
    ctrl := { r.minted with ledger := r.ledger }
    system := r.system
    quoteFills := s.quoteFills.insert (ctx.quoteKey ord)
      ⟨s.filledAmount (ctx.quoteKey ord) + ord.amount.toNat, false⟩
    makerOtokenBalances := s.makerOtokenBalances.insert ctx.balanceKey
      ⟨ctx.maker, ctx.otokenMint, s.custody ctx.balanceKey + ord.amount.toNat⟩
    vaultMMs := s.vaultMMs.insert ctx.vault
      ⟨ctx.maker, ctx.vault, ctx.otokenMint, ord.amount.toNat⟩ }

/-- Where an order takes the lamports: two addresses that may exist, the vault's rent, and one new
address. -/
def ExecuteOrder.Creates (D : Deployment) (rent : ℕ → ℕ) (s : State) (ctx : ExecuteOrder) (ord : Order)
    (system : SystemAccounts Address) : Prop :=
  ∃ S₁ fill S₂ S₃ balance, loadOrInitQuoteFill D rent s (ctx.quoteKey ord) = .ok (S₁, fill) ∧
    SystemProgram.transfer S₁ .rentReserve (.vault ctx.vault) (rent VAULT_SPACE) = some S₂ ∧
    loadOrInitMakerOtokenBalance D rent { s with system := S₂ } ctx.balanceKey = .ok (S₃, balance) ∧
    initVaultMMAccount D rent { s with system := S₃ } ctx.vault = .ok system

theorem executeOrder_course {ctx : ExecuteOrder} {ord : Order} {tx : Transaction} {i : ℕ}
    (h : executeOrder D T rent ctx ord tx i s = .ok s') :
    ∃ r, ExecuteOrder.Effect D T s ctx ord tx i r s' ∧ ctx.Creates D rent s ord r.system := by
  simp only [executeOrder, loadConfig, loadMakerState, loadMint, loadTokenAccount,
    fromOption_bind_eq_ok, require_bind_eq_ok] at h
  obtain ⟨config, hconfig, -, maker, hmaker, _, -, _, -, hcm, prem, -, hpm, uc, huc, pool, -, so, hso,
    mp, hmp, up, hup, tr, htr, -, hmin, -, hpaused, hmk, huco, -, -, -, hsom, hsoo, hmpo, hmpm, hupo,
    hupm, htro, htrm, h⟩ := h
  obtain ⟨_, hvalid, h⟩ := bind_eq_ok.mp h
  obtain ⟨hlisted, hnonce⟩ := validateMaker_eq_ok.mp hvalid
  obtain ⟨_, hsigned, h⟩ := bind_eq_ok.mp h
  obtain ⟨-, h⟩ := require_bind_eq_ok.mp h
  obtain ⟨⟨S₁, fill⟩, hinit, h⟩ := bind_eq_ok.mp h
  obtain rfl := loadOrInitQuoteFill_eq hinit
  obtain ⟨fill', hupdate, h⟩ := bind_eq_ok.mp h
  obtain ⟨hcancelled, -, hle, rfl⟩ := updateFill_eq_ok.mp hupdate
  obtain ⟨⟨premium, fee, net⟩, hsplit, h⟩ := bind_eq_ok.mp h
  obtain ⟨S₂, hrent, h⟩ := fromOption_bind_eq_ok.mp h
  obtain ⟨c₁, hopen, h⟩ := bind_eq_ok.mp h
  obtain ⟨-, hvault, hopen⟩ := cpiOpenVault_eq_ok.mp hopen
  obtain ⟨c₂, hdeposit, h⟩ := lift_bind_eq_ok.mp h
  obtain ⟨c₃, hmint, h⟩ := lift_bind_eq_ok.mp h
  obtain ⟨⟨S₃, bal⟩, hbal, h⟩ := bind_eq_ok.mp h
  generalize hnamed : (if bal.maker = Pubkey.default then
    { bal with maker := ctx.maker, otokenMint := ctx.otokenMint } else bal) = held at h
  have hheld : held.balance = s.custody ctx.balanceKey := by
    have hloaded := loadOrInitMakerOtokenBalance_eq hbal
    rw [← hnamed]
    split <;> exact hloaded
  simp only [require_bind_eq_ok, fromOption_bind_eq_ok, Checked.add_eq_some] at h
  obtain ⟨hbm, hbo, _, ⟨rfl, -⟩, h⟩ := h
  obtain ⟨S₄, hmm, h⟩ := bind_eq_ok.mp h
  obtain ⟨hfresh, -⟩ := require_bind_eq_ok.mp hmm
  obtain ⟨L₁, hpay, h⟩ := bind_eq_ok.mp h
  obtain ⟨L₂, hfee, h⟩ := bind_eq_ok.mp h
  rw [pure_eq_ok] at h
  have hstate : maker = ⟨ctx.maker, ord.makerNonce.toNat, true⟩ := by
    rw [← hmk, ← hnonce, ← hlisted]
  refine ⟨⟨config, c₁, c₂, c₃, S₄, fee, net, L₁, L₂⟩, ⟨hconfig, hpaused, hstate ▸ hmaker, hsigned, hmin,
    hcancelled, hle, hvault, hfresh, ⟨uc, huc, huco⟩, ⟨so, hso, hsom, hsoo⟩, ⟨mp, hmp, hmpm, hmpo⟩,
    ⟨up, hup, hupm, hupo⟩, ⟨tr, htr, htrm, htro⟩, hopen, hdeposit, hmint, ⟨premium, hsplit⟩,
    ⟨prem.decimals, hpm ▸ lift_eq_ok.mp hpay⟩, ⟨prem.decimals, hpm ▸ lift_eq_ok.mp hfee⟩, ?_⟩,
    S₁, _, S₂, S₃, bal, hinit, hrent, hbal, hmm⟩
  rw [← h, hbm, hbo, hheld]
  dsimp only at hcancelled ⊢
  rw [hcancelled]

theorem executeOrder_effect {ctx : ExecuteOrder} {ord : Order} {tx : Transaction} {i : ℕ}
    (h : executeOrder D T rent ctx ord tx i s = .ok s') :
    ∃ r, ExecuteOrder.Effect D T s ctx ord tx i r s' :=
  (executeOrder_course h).imp fun _ hr ↦ hr.1

/-! ## Withdrawing -/

theorem settleVault_eq_ok {operator : Pubkey} {ctx : Controller.SettleVault} :
    settleVault D T operator ctx s = .ok s' ↔
      (∃ config, s.config = some config ∧ operator = config.operator) ∧
      ∃ c, Controller.settleVault D T ctx s.ctrl = .ok c ∧ s' = { s with ctrl := c } := by
  simp only [settleVault, loadConfig, fromOption_bind_eq_ok, require_bind_eq_ok, lift_bind_eq_ok,
    pure_eq_ok]
  constructor
  · rintro ⟨config, hconfig, hop, c, hc, rfl⟩
    exact ⟨⟨config, hconfig, hop⟩, c, hc, rfl⟩
  · rintro ⟨⟨config, hconfig, hop⟩, c, hc, rfl⟩
    exact ⟨config, hconfig, hop, c, hc, rfl⟩

/-- What an emergency withdrawal burns: of the vault's oTokens, those the maker still has. -/
def EmergencyWithdrawOrder.burned (vaultMM : VaultMM) (balance : MakerOTokenBalance) : ℕ :=
  min vaultMM.remainingAmount balance.balance

structure EmergencyWithdrawOrder.Effect (D : Deployment) (T : TokenProgram) (s : State)
    (ctx : EmergencyWithdrawOrder) (vault : Vault) (vaultMM : VaultMM)
    (balance : MakerOTokenBalance) (ledger : Ledger) (ctrl : Controller.State) (s' : State) :
    Prop where
  vault_eq : s.ctrl.vaults.lookup ctx.vault = some vault
  beneficiary_eq : ctx.beneficiary = vault.beneficiary
  owner_eq : vault.owner = D.settlerConfig
  settlerOtoken : ∃ a, s.ctrl.ledger.accounts.lookup ctx.settlerOtokenAccount = some a ∧
    a.mint = ctx.otokenMint ∧ a.owner = D.settlerConfig
  balance_eq : s.makerOtokenBalances.lookup ⟨ctx.maker, ctx.otokenMint⟩ = some balance
  vaultMM_eq : s.vaultMMs.lookup ctx.vault = some vaultMM
  maker_eq : vaultMM.maker = balance.maker
  otokenMint_eq : vaultMM.otokenMint = ctx.otokenMint
  burn : 0 < EmergencyWithdrawOrder.burned vaultMM balance ∧
      (∃ d, T.burnChecked s.ctrl.ledger ctx.otokenMint ctx.settlerOtokenAccount D.settlerConfig
        (EmergencyWithdrawOrder.burned vaultMM balance) d = some ledger) ∨
    EmergencyWithdrawOrder.burned vaultMM balance = 0 ∧ ledger = s.ctrl.ledger
  withdraw : Controller.emergencyWithdrawVault D T (ctx.withdraw D) { s.ctrl with ledger }
    = .ok ctrl
  state_eq : s' = { s with
    ctrl
    makerOtokenBalances := s.makerOtokenBalances.insert ⟨ctx.maker, ctx.otokenMint⟩
      { balance with
        balance := balance.balance - EmergencyWithdrawOrder.burned vaultMM balance }
    vaultMMs := s.vaultMMs.insert ctx.vault { vaultMM with remainingAmount := 0 } }

theorem emergencyWithdraw_effect {ctx : EmergencyWithdrawOrder}
    (h : emergencyWithdraw D T ctx s = .ok s') :
    ∃ vault vaultMM balance ledger ctrl,
      EmergencyWithdrawOrder.Effect D T s ctx vault vaultMM balance ledger ctrl s' := by
  simp only [emergencyWithdraw, loadConfig, loadMint, loadTokenAccount, loadMakerOtokenBalance,
    loadVaultMM, fromOption_bind_eq_ok, require_bind_eq_ok] at h
  obtain ⟨_, -, vault, hv, hben, hown, otoken, -, so, hso, hsoo, hsom, bal, hbal, vmm, hvmm, -, hmk,
    hmint, h⟩ := h
  obtain ⟨ledger, hburn, h⟩ := bind_eq_ok.mp h
  obtain ⟨left, hleft, h⟩ := fromOption_bind_eq_ok.mp h
  obtain ⟨ctrl, hctrl, h⟩ := lift_bind_eq_ok.mp h
  rw [pure_eq_ok] at h
  obtain rfl : left = bal.balance - min vmm.remainingAmount bal.balance := by
    rw [Checked.sub_eq_some] at hleft
    omega
  refine ⟨vault, vmm, bal, ledger, ctrl, hv, hben, hown, ⟨so, hso, hsom, hsoo⟩, hbal, hvmm, hmk, hmint,
    ?_, hctrl, h.symm⟩
  exact (burnIfPositive_eq_ok.mp hburn).imp (fun hb ↦ ⟨hb.1, _, hb.2⟩) id

/-! ## Redeeming from custody -/

/-- What the shared constraints establish of the accounts they load. -/
structure Custody.Loaded (D : Deployment) (s : State) (ctx : RedeemForMM) (acc : Custody) :
    Prop where
  balance_eq : s.makerOtokenBalances.lookup ctx.makerOtokenBalance = some acc.balance
  info_eq : s.ctrl.otokenInfos.lookup ctx.otokenInfo = some acc.info
  collateralMint_eq : s.ctrl.ledger.mints.lookup ctx.collateralMintAccount
    = some acc.collateralMint
  settlerOtoken : ∃ a, s.ctrl.ledger.accounts.lookup ctx.settlerOtokenAccount = some a ∧
    a.mint = ctx.otokenMint ∧ a.owner = D.settlerConfig
  settlerCollateral_eq : s.ctrl.ledger.accounts.lookup ctx.settlerCollateralAccount
    = some acc.settlerCollateral
  settlerCollateral_mint : acc.settlerCollateral.mint = acc.info.collateralMint
  settlerCollateral_owner : acc.settlerCollateral.owner = D.settlerConfig
  mmCollateral_eq : s.ctrl.ledger.accounts.lookup ctx.mmCollateralAccount = some acc.mmCollateral

theorem loadCustody_loaded {ctx : RedeemForMM} {acc : Custody}
    (h : loadCustody D ctx s = .ok acc) : acc.Loaded D s ctx := by
  simp only [loadCustody, loadMakerOtokenBalance, loadMint, loadTokenAccount,
    fromOption_bind_eq_ok, require_bind_eq_ok, pure_eq_ok] at h
  obtain ⟨bal, hbal, info, hinfo, _, -, cm, hcm, so, hso, hsom, hsoo, sc, hsc, hscm, hsco, mc, hmc,
    rfl⟩ := h
  exact ⟨hbal, hinfo, hcm, ⟨so, hso, hsom, hsoo⟩, hsc, hscm, hsco, hmc⟩

theorem Custody.Loaded.info_eq_of_seed {ctx : RedeemForMM} {acc : Custody} (h : acc.Loaded D s ctx)
    (hseed : ctx.otokenInfo = ctx.otokenMint) :
    s.ctrl.otokenInfos.lookup ctx.otokenMint = some acc.info := by
  rw [← hseed, h.info_eq]

/-- A series is not its own collateral, so the settler's accounts for the two are different. -/
theorem Custody.Loaded.collateral_ne_otoken {ctx : RedeemForMM} {acc : Custody}
    (h : acc.Loaded D s ctx) (hmint : acc.info.collateralMint ≠ ctx.otokenMint) :
    ctx.settlerCollateralAccount ≠ ctx.settlerOtokenAccount := by
  intro heq
  obtain ⟨a, ha, hm, -⟩ := h.settlerOtoken
  obtain rfl : acc.settlerCollateral = a :=
    Option.some.inj (h.settlerCollateral_eq.symm.trans (heq ▸ ha))
  exact hmint (h.settlerCollateral_mint.symm.trans hm)

/-- The redemptions that pay the maker. -/
structure RedeemForMM.Effect (D : Deployment) (T : TokenProgram) (s : State) (ctx : RedeemForMM)
    (amount : ℕ) (acc : Custody) (redeemed : Controller.State) (payout : ℕ) (ledger : Ledger)
    (s' : State) : Prop where
  loaded : acc.Loaded D s ctx
  key_mint : ctx.makerOtokenBalance.otokenMint = ctx.otokenMint
  mmCollateral_mint : acc.mmCollateral.mint = acc.info.collateralMint
  mmCollateral_owner : acc.mmCollateral.owner = ctx.makerOtokenBalance.maker
  amount_pos : 0 < amount
  covered : amount ≤ acc.balance.balance
  redeem : Controller.redeem D T (ctx.redeem D) amount s.ctrl = .ok redeemed
  payout_eq : redeemed.ledger.amount ctx.settlerCollateralAccount
    = acc.settlerCollateral.amount + payout
  pay : ∃ d, Controller.transferIfPositive T redeemed.ledger ctx.settlerCollateralAccount
    ctx.collateralMintAccount ctx.mmCollateralAccount D.settlerConfig payout d = .ok ledger
  state_eq : s' = { s with
    ctrl := { redeemed with ledger }
    makerOtokenBalances := s.makerOtokenBalances.insert ctx.makerOtokenBalance
      { acc.balance with balance := acc.balance.balance - amount } }

theorem redeemToMaker_effect {ctx : RedeemForMM} {acc : Custody} {amount : ℕ}
    (hloaded : acc.Loaded D s ctx) (hkey : ctx.makerOtokenBalance.otokenMint = ctx.otokenMint)
    (hmint : acc.mmCollateral.mint = acc.info.collateralMint)
    (howner : acc.mmCollateral.owner = ctx.makerOtokenBalance.maker) (hpos : 0 < amount)
    (h : redeemToMaker D T ctx acc amount s = .ok s') :
    ∃ redeemed payout ledger,
      RedeemForMM.Effect D T s ctx amount acc redeemed payout ledger s' := by
  simp only [redeemToMaker, loadTokenAccount, fromOption_bind_eq_ok, require_bind_eq_ok,
    lift_bind_eq_ok, Checked.sub_eq_some] at h
  obtain ⟨hcov, left, hleft, c, hc, a, ha, payout, hpayout, h⟩ := h
  obtain ⟨ledger, hpay, h⟩ := bind_eq_ok.mp h
  rw [pure_eq_ok] at h
  obtain rfl : left = acc.balance.balance - amount := by omega
  exact ⟨c, payout, ledger, hloaded, hkey, hmint, howner, hpos, hcov, hc,
    (Ledger.amount_eq ha).trans hpayout, ⟨_, lift_eq_ok.mp hpay⟩, h.symm⟩

theorem redeemForMM_effect {ctx : RedeemForMM} {amount : ℕ}
    (h : redeemForMM D T ctx amount s = .ok s') :
    ∃ acc redeemed payout ledger,
      RedeemForMM.Effect D T s ctx amount acc redeemed payout ledger s' := by
  simp only [redeemForMM, loadConfig, fromOption_bind_eq_ok, require_bind_eq_ok] at h
  obtain ⟨config, -, -, h⟩ := h
  obtain ⟨acc, hacc, h⟩ := bind_eq_ok.mp h
  simp only [require_bind_eq_ok] at h
  obtain ⟨hkey, hmint, howner, hpos, -, -, -, h⟩ := h
  exact ⟨acc, redeemToMaker_effect (loadCustody_loaded hacc) (by rw [hkey]) hmint
    (by rw [howner, hkey]) hpos h⟩

theorem mmSelfRedeem_effect {ctx : RedeemForMM} {amount : ℕ}
    (h : mmSelfRedeem D T ctx amount s = .ok s') :
    ∃ acc redeemed payout ledger,
      RedeemForMM.Effect D T s ctx amount acc redeemed payout ledger s' := by
  simp only [mmSelfRedeem, loadConfig, loadMakerState, fromOption_bind_eq_ok,
    require_bind_eq_ok] at h
  obtain ⟨config, -, state, -, -, -, h⟩ := h
  obtain ⟨acc, hacc, h⟩ := bind_eq_ok.mp h
  simp only [require_bind_eq_ok] at h
  obtain ⟨hkey, hmint, howner, hpos, -, -, -, -, h⟩ := h
  exact ⟨acc, redeemToMaker_effect (loadCustody_loaded hacc) (by rw [hkey]) hmint
    (by rw [howner, hkey]) hpos h⟩

/-! ## Physical delivery -/

/-- What a physical delivery reads and goes through. -/
structure PhysicalRedeem.Course where
  acc : Custody
  vault : Vault
  vaultMM : VaultMM
  contraMint : Mint
  settlerContra : TokenAccount
  userContra : TokenAccount
  /-- What the user is owed of the other asset. -/
  contraAmount : ℕ
  /-- The controller after the redemption, and after the swap. -/
  redeemed : Controller.State
  swapped : Controller.State
  collateralReceived : ℕ
  collateralUsed : ℕ
  userContraDelta : ℕ
  settlerContraDelta : ℕ
  ledger : Ledger

/-- The asset a series is delivered in. -/
def expectedContra (info : OTokenInfo) : Pubkey :=
  if info.isPut then info.underlying else info.strikeAsset

structure PhysicalRedeem.Effect (D : Deployment) (T : TokenProgram) (s : State)
    (ctx : PhysicalRedeem) (amount maxCollateralSpent : ℕ) (swap : Swap)
    (r : PhysicalRedeem.Course) (s' : State) : Prop where
  operator_eq : ∃ config, s.config = some config ∧ ctx.signer = config.operator ∧
    ctx.jupiterProgram = config.jupiterProgram
  loaded : r.acc.Loaded D s ctx.toRedeemForMM
  key_eq : ctx.makerOtokenBalance = ⟨r.acc.balance.maker, ctx.otokenMint⟩
  contraMint_eq : s.ctrl.ledger.mints.lookup ctx.contraMint = some r.contraMint
  contra_eq : ctx.contraMint = expectedContra r.acc.info
  settlerContra_eq : s.ctrl.ledger.accounts.lookup ctx.settlerContraAccount = some r.settlerContra
  settlerContra_mint : r.settlerContra.mint = ctx.contraMint
  settlerContra_owner : r.settlerContra.owner = D.settlerConfig
  vault_eq : s.ctrl.vaults.lookup ctx.vault = some r.vault
  vault_otokenMint : r.vault.otokenMint = ctx.otokenMint
  vault_beneficiary : r.vault.beneficiary = ctx.user
  vaultMM_eq : s.vaultMMs.lookup ctx.vault = some r.vaultMM
  vaultMM_maker : r.vaultMM.maker = r.acc.balance.maker
  vaultMM_otokenMint : r.vaultMM.otokenMint = ctx.otokenMint
  userContra_eq : s.ctrl.ledger.accounts.lookup ctx.userContraAccount = some r.userContra
  userContra_mint : r.userContra.mint = ctx.contraMint
  userContra_owner : r.userContra.owner = ctx.user
  mmCollateral_owner : r.acc.mmCollateral.owner = r.acc.balance.maker
  mmCollateral_mint : r.acc.mmCollateral.mint =
    if r.acc.info.isPut then r.acc.info.collateralMint else expectedContra r.acc.info
  amount_pos : 0 < amount
  expired : r.acc.info.expiry ≤ s.ctrl.clock
  priced : 0 < r.acc.info.expiryPrice
  itm : Controller.IsItm r.acc.info.strikePrice r.acc.info.expiryPrice r.acc.info.isPut
  contraAmount_eq : computeContraAmount amount r.acc.info.strikePrice r.acc.info.isPut
    r.contraMint.decimals = .ok r.contraAmount
  covered : amount ≤ r.acc.balance.balance
  remaining : amount ≤ r.vaultMM.remainingAmount
  redeem : Controller.redeem D T (ctx.redeem D) amount s.ctrl = .ok r.redeemed
  received : r.redeemed.ledger.amount ctx.settlerCollateralAccount
    = r.acc.settlerCollateral.amount + r.collateralReceived
  received_pos : 0 < r.collateralReceived
  swap : swap r.redeemed = .ok r.swapped
  used : r.redeemed.ledger.amount ctx.settlerCollateralAccount
    = r.swapped.ledger.amount ctx.settlerCollateralAccount + r.collateralUsed
  used_le : r.collateralUsed ≤ maxCollateralSpent
  userContra_delta : r.swapped.ledger.amount ctx.userContraAccount
    = r.userContra.amount + r.userContraDelta
  settlerContra_delta : r.swapped.ledger.amount ctx.settlerContraAccount
    = r.settlerContra.amount + r.settlerContraDelta
  /-- For a put the swap pays the user, and the maker gets the collateral it left over. -/
  put : r.acc.info.isPut = true → r.contraAmount ≤ r.userContraDelta ∧ r.settlerContraDelta = 0 ∧
    0 < r.collateralUsed ∧ ∃ surplus d, r.collateralReceived = r.collateralUsed + surplus ∧
      Controller.transferIfPositive T r.swapped.ledger ctx.settlerCollateralAccount
        ctx.collateralMintAccount ctx.mmCollateralAccount D.settlerConfig surplus d = .ok r.ledger
  /-- For a call the swap pays the settler, which pays the user, and the maker the surplus. -/
  call : r.acc.info.isPut = false → r.collateralUsed = r.collateralReceived ∧
    r.userContraDelta = 0 ∧ ∃ surplus paid d, r.settlerContraDelta = r.contraAmount + surplus ∧
      T.transferChecked r.swapped.ledger ctx.settlerContraAccount ctx.contraMint
        ctx.userContraAccount D.settlerConfig r.contraAmount d = some paid ∧
      Controller.transferIfPositive T paid ctx.settlerContraAccount ctx.contraMint
        ctx.mmCollateralAccount D.settlerConfig surplus d = .ok r.ledger
  state_eq : s' = { s with
    ctrl := { r.swapped with ledger := r.ledger }
    makerOtokenBalances := s.makerOtokenBalances.insert ctx.makerOtokenBalance
      { r.acc.balance with balance := r.acc.balance.balance - amount }
    vaultMMs := s.vaultMMs.insert ctx.vault
      { r.vaultMM with remainingAmount := r.vaultMM.remainingAmount - amount } }

theorem physicalRedeem_effect {ctx : PhysicalRedeem} {amount maxCollateralSpent : ℕ} {swap : Swap}
    (h : physicalRedeem D T ctx amount maxCollateralSpent swap s = .ok s') :
    ∃ r, PhysicalRedeem.Effect D T s ctx amount maxCollateralSpent swap r s' := by
  simp only [physicalRedeem, loadConfig, fromOption_bind_eq_ok, require_bind_eq_ok] at h
  obtain ⟨config, hconfig, hop, h⟩ := h
  obtain ⟨acc, hacc, h⟩ := bind_eq_ok.mp h
  simp only [loadMint, loadTokenAccount, loadVaultMM, fromOption_bind_eq_ok,
    require_bind_eq_ok] at h
  obtain ⟨hkey, cm, hcm, sc, hsc, hscm, hsco, vault, hv, hvo, hvb, vmm, hvmm, -, hmk, hmo, uc, huc,
    hucm, huco, hmmo, hpos, -, h⟩ := h
  obtain ⟨_, hitm, h⟩ := bind_eq_ok.mp h
  obtain ⟨hexp, hprice, hitm⟩ := validateItm_eq_ok.mp hitm
  obtain ⟨hcontra, h⟩ := require_bind_eq_ok.mp h
  obtain ⟨contra, hamount, h⟩ := bind_eq_ok.mp h
  simp only [fromOption_bind_eq_ok, require_bind_eq_ok, lift_bind_eq_ok, Checked.sub_eq_some] at h
  obtain ⟨hmmm, hcov, hrem, rem, hremeq, bal, hbal, c, hc, a, ha, recv, hrecv, hrpos, hjup, h⟩ := h
  obtain ⟨c', hswap, h⟩ := bind_eq_ok.mp h
  simp only [fromOption_bind_eq_ok, require_bind_eq_ok, Checked.sub_eq_some] at h
  obtain ⟨a', ha', u', hu', sc', hsc', used, hused, hmax, udelta, hudelta, sdelta, hsdelta, h⟩ := h
  obtain rfl : rem = vmm.remainingAmount - amount := by omega
  obtain rfl : bal = acc.balance.balance - amount := by omega
  have hused' : c.ledger.amount ctx.settlerCollateralAccount
      = c'.ledger.amount ctx.settlerCollateralAccount + used := by
    rw [Ledger.amount_eq ha, Ledger.amount_eq ha', hused]
  -- the two sides of the series share everything but the last transfers
  have hfinish : ∀ (ledger : Ledger),
      (acc.info.isPut = true → contra ≤ udelta ∧ sdelta = 0 ∧ 0 < used ∧ ∃ surplus d,
        recv = used + surplus ∧ Controller.transferIfPositive T c'.ledger
          ctx.settlerCollateralAccount ctx.collateralMintAccount ctx.mmCollateralAccount
          D.settlerConfig surplus d = .ok ledger) →
      (acc.info.isPut = false → used = recv ∧ udelta = 0 ∧ ∃ surplus paid d,
        sdelta = contra + surplus ∧ T.transferChecked c'.ledger ctx.settlerContraAccount
          ctx.contraMint ctx.userContraAccount D.settlerConfig contra d = some paid ∧
        Controller.transferIfPositive T paid ctx.settlerContraAccount ctx.contraMint
          ctx.mmCollateralAccount D.settlerConfig surplus d = .ok ledger) →
      s' = { s with
        ctrl := { c' with ledger }
        makerOtokenBalances := s.makerOtokenBalances.insert ctx.makerOtokenBalance
          { acc.balance with balance := acc.balance.balance - amount }
        vaultMMs := s.vaultMMs.insert ctx.vault
          { vmm with remainingAmount := vmm.remainingAmount - amount } } →
      ∃ r, PhysicalRedeem.Effect D T s ctx amount maxCollateralSpent swap r s' :=
    fun ledger hput hcall hs' ↦
      ⟨⟨acc, vault, vmm, cm, sc, uc, contra, c, c', recv, used, udelta, sdelta, ledger⟩,
        ⟨config, hconfig, hop, hjup⟩, loadCustody_loaded hacc, hkey, hcm, hcontra, hsc, hscm, hsco,
        hv, hvo, hvb, hvmm, hmk, hmo, huc, hucm, huco, hmmo, hmmm, hpos, hexp, hprice, hitm, hamount,
        hcov, hrem, hc, (Ledger.amount_eq ha).trans hrecv, hrpos, hswap, hused', hmax,
        (Ledger.amount_eq hu').trans hudelta, (Ledger.amount_eq hsc').trans hsdelta, hput, hcall,
        hs'⟩
  cases hside : acc.info.isPut with
  | true =>
    simp only [hside, if_true, require_bind_eq_ok, fromOption_bind_eq_ok,
      Checked.sub_eq_some] at h
    obtain ⟨hle, hzero, hupos, surplus, hsurplus, h⟩ := h
    obtain ⟨ledger, hpay, h⟩ := bind_eq_ok.mp h
    rw [pure_eq_ok] at h
    exact hfinish ledger (fun _ ↦ ⟨hle, hzero, hupos, surplus, _, hsurplus, lift_eq_ok.mp hpay⟩)
      (by simp [hside]) h.symm
  | false =>
    simp only [hside, Bool.false_eq_true, if_false, require_bind_eq_ok, fromOption_bind_eq_ok,
      Checked.sub_eq_some] at h
    obtain ⟨heq, -, hzero, paid, hpaid, surplus, hsurplus, h⟩ := h
    obtain ⟨ledger, hpay, h⟩ := bind_eq_ok.mp h
    rw [pure_eq_ok] at h
    exact hfinish ledger (by simp [hside])
      (fun _ ↦ ⟨heq, hzero, surplus, paid, _, hsurplus, hpaid, lift_eq_ok.mp hpay⟩) h.symm

/-! ## Makers and quotes -/

/-- A maker's record after it was listed or delisted. Only a record nobody has claimed gets a fresh
nonce. -/
def MakerState.listed (state : MakerState) (maker : Pubkey) (whitelisted : Bool) : MakerState :=
  if state.maker = Pubkey.default then ⟨maker, 0, whitelisted⟩ else { state with whitelisted }

/-- An address of the settler is created by its payer, unless it is in use. -/
def InitIfNeeded (D : Deployment) (rent : ℕ → ℕ) (inUse : Bool) (payer : Pubkey) (target : Address)
    (space : ℕ) (S S' : SystemAccounts Address) : Prop :=
  if inUse then S' = S else
    SystemProgram.initAccount S rent (.wallet payer) target space D.settlerProgram = some S'

theorem whitelistMaker_effect {owner maker : Pubkey} {whitelisted : Bool}
    (h : whitelistMaker D rent owner maker whitelisted s = .ok s') :
    ∃ system, InitIfNeeded D rent (s.makerStates.lookup maker).isSome owner (.makerState maker)
        MAKER_STATE_SPACE s.system system ∧ s' = { s with
      system
      makerStates := s.makerStates.insert maker
        (((s.makerStates.lookup maker).getD .zeroed).listed maker whitelisted) } := by
  obtain ⟨_, -, h⟩ := bind_eq_ok.mp h
  have hlisted : ∀ state : MakerState,
      ({ (if state.maker = Pubkey.default then { state with maker, nonce := 0 } else state) with
        whitelisted } : MakerState) = state.listed maker whitelisted := fun state ↦ by
    rw [MakerState.listed]
    split <;> rfl
  cases hk : s.makerStates.lookup maker with
  | some state =>
    simp only [hk, pure_bind, pure_eq_ok, hlisted] at h
    exact ⟨s.system, rfl, h.symm⟩
  | none =>
    simp only [hk, pure_bind, fromOption_bind_eq_ok, pure_eq_ok, hlisted] at h
    obtain ⟨system, hinit, h⟩ := h
    exact ⟨system, hinit, h.symm⟩

theorem incrementMakerNonce_effect {maker : Pubkey} (h : incrementMakerNonce maker s = .ok s') :
    ∃ state, s.makerStates.lookup maker = some state ∧ s' = { s with
      makerStates := s.makerStates.insert maker { state with nonce := state.nonce + 1 } } := by
  simp only [incrementMakerNonce, loadMakerState, fromOption_bind_eq_ok, require_bind_eq_ok,
    Checked.add_eq_some, pure_eq_ok] at h
  obtain ⟨state, hstate, -, _, ⟨rfl, -⟩, rfl⟩ := h
  exact ⟨state, hstate, rfl⟩

theorem cancelQuote_effect {maker : Pubkey} {quoteId : UInt64}
    (h : cancelQuote D rent maker quoteId s = .ok s') :
    ∃ system, InitIfNeeded D rent
        (s.quoteFills.lookup ⟨maker, s.nonceOf maker, quoteId.toNat⟩).isSome maker
        (.quoteFill ⟨maker, s.nonceOf maker, quoteId.toNat⟩) QUOTE_FILL_SPACE s.system system ∧
      s' = { s with
      system
      quoteFills := s.quoteFills.insert ⟨maker, s.nonceOf maker, quoteId.toNat⟩
        ⟨s.filledAmount ⟨maker, s.nonceOf maker, quoteId.toNat⟩, true⟩ } := by
  simp only [cancelQuote, loadMakerState, fromOption_bind_eq_ok, require_bind_eq_ok] at h
  obtain ⟨state, hstate, -, h⟩ := h
  have hnonce : s.nonceOf maker = state.nonce := by rw [State.nonceOf, hstate, Option.elim_some]
  rw [hnonce, State.filledAmount]
  cases hk : s.quoteFills.lookup ⟨maker, state.nonce, quoteId.toNat⟩ with
  | some fill =>
    simp only [hk, pure_bind, require_bind_eq_ok, pure_eq_ok] at h
    exact ⟨s.system, rfl, h.2.symm⟩
  | none =>
    simp only [hk, pure_bind, fromOption_bind_eq_ok, require_bind_eq_ok,
      pure_eq_ok] at h
    obtain ⟨system, hinit, -, h⟩ := h
    exact ⟨system, hinit, h.symm⟩

/-! ## Configuration -/

theorem initVaultCounter_effect {owner vaultCounter : Pubkey}
    (h : initVaultCounter D rent owner vaultCounter s = .ok s') :
    ∃ system ctrl, SystemProgram.transfer s.system (.wallet owner) (.vaultCounter vaultCounter)
        (rent VAULT_COUNTER_SPACE) = some system ∧
      Controller.initializeCounter D.settlerConfig s.ctrl = .ok ctrl ∧
      s' = { s with system, ctrl } := by
  obtain ⟨_, -, h⟩ := bind_eq_ok.mp h
  simp only [fromOption_bind_eq_ok, require_bind_eq_ok, lift_bind_eq_ok, pure_eq_ok] at h
  obtain ⟨system, hrent, -, ctrl, hctrl, rfl⟩ := h
  exact ⟨system, ctrl, hrent, hctrl, rfl⟩

/-- The instruction only configures the settler or moves lamports. -/
def Instruction.IsAdministrative : Instruction → Prop
  | .initializeConfig .. | .setTreasury .. | .setProtocolFee .. | .setOperator .. | .pause ..
  | .setEscapeDelay .. | .setJupiterProgram .. | .withdrawRentReserve .. => True
  | _ => False

/-- The controller and the settler's records are as before. -/
structure Configured (s s' : State) : Prop where
  ctrl_eq : s'.ctrl = s.ctrl
  makerStates_eq : s'.makerStates = s.makerStates
  quoteFills_eq : s'.quoteFills = s.quoteFills
  makerOtokenBalances_eq : s'.makerOtokenBalances = s.makerOtokenBalances
  vaultMMs_eq : s'.vaultMMs = s.vaultMMs

theorem configured_of_exec {ix : Instruction} (h : exec D T rent ix s = .ok s')
    (hix : ix.IsAdministrative) : Configured s s' := by
  cases ix with
  | initializeConfig payer operator treasury fee delay jupiter =>
    simp only [exec, initializeConfig, require_bind_eq_ok, fromOption_bind_eq_ok, pure_eq_ok] at h
    obtain ⟨-, system, -, -, -, -, -, rfl⟩ := h
    exact ⟨rfl, rfl, rfl, rfl, rfl⟩
  | withdrawRentReserve owner recipient lamports =>
    obtain ⟨_, -, h⟩ := bind_eq_ok.mp h
    simp only [require_bind_eq_ok, fromOption_bind_eq_ok, pure_eq_ok] at h
    obtain ⟨-, -, -, system, -, rfl⟩ := h
    exact ⟨rfl, rfl, rfl, rfl, rfl⟩
  | pause owner paused =>
    obtain ⟨config, -, h⟩ := bind_eq_ok.mp h
    rw [pure_eq_ok] at h
    subst h
    exact ⟨rfl, rfl, rfl, rfl, rfl⟩
  | setTreasury _ _ | setProtocolFee _ _ | setOperator _ _ | setEscapeDelay _ _
  | setJupiterProgram _ _ =>
    obtain ⟨config, -, h⟩ := bind_eq_ok.mp h
    obtain ⟨-, h⟩ := require_bind_eq_ok.mp h
    rw [pure_eq_ok] at h
    subst h
    exact ⟨rfl, rfl, rfl, rfl, rfl⟩
  | _ => exact absurd hix (by simp [Instruction.IsAdministrative])

end Settler

end OptionsProtocol
