import OptionsProtocol.Controller.Instructions
import OptionsProtocol.Settler.State

/-!
# The settler's instructions

As for the controller: the accounts passed, the arguments and the state, in; the new state or the
way the instruction failed, out. The settler signs for its own address, `settlerConfig`, when it
calls the controller or the token program. Calls to the controller run the controller's
instructions; the swap of `physical_redeem` is a program chosen by the caller and enters as a
function.
-/

namespace OptionsProtocol

namespace Settler

open Except
open Controller (VaultKey Vault OTokenInfo)

variable (D : Deployment) (T : TokenProgram) (rent : ℕ → ℕ)

/-! ## Loading accounts -/

def loadConfig (s : State) : Except Error SettlerConfig :=
  fromOption s.config (.anchor .accountNotInitialized)

def loadMakerState (s : State) (maker : Pubkey) : Except Error MakerState :=
  fromOption (s.makerStates.lookup maker) (.anchor .accountNotInitialized)

def loadMakerOtokenBalance (s : State) (k : BalanceKey) : Except Error MakerOTokenBalance :=
  fromOption (s.makerOtokenBalances.lookup k) (.anchor .accountNotInitialized)

def loadVaultMM (s : State) (k : VaultKey) : Except Error VaultMM :=
  fromOption (s.vaultMMs.lookup k) (.anchor .accountNotInitialized)

/-- `InterfaceAccount<TokenAccount>`. -/
def loadTokenAccount (L : Ledger) (k : Pubkey) : Except Error TokenAccount :=
  fromOption (L.accounts.lookup k) (.anchor .accountNotInitialized)

/-- `InterfaceAccount<Mint>`. -/
def loadMint (L : Ledger) (m : Pubkey) : Except Error Mint :=
  fromOption (L.mints.lookup m) (.anchor .accountNotInitialized)

/-- The result of a call to the controller. -/
def lift {α : Type} (x : Except Controller.Error α) : Except Error α :=
  x.mapError (Failure.map Sum.inr)

/-- A transfer signed by the settler, made only for a positive amount. -/
def transferIfPositive (L : Ledger) (src mint dst : Pubkey) (amount decimals : ℕ) :
    Except Error Ledger :=
  lift (Controller.transferIfPositive T L src mint dst D.settlerConfig amount decimals)

/-- A burn signed by the settler, made only for a positive amount. -/
def burnIfPositive (L : Ledger) (mint src : Pubkey) (amount decimals : ℕ) : Except Error Ledger :=
  if 0 < amount then
    fromOption (T.burnChecked L mint src D.settlerConfig amount decimals) .token
  else .ok L

/-! ## Creating accounts -/

/-- `create_program_pda`. The address may have been funded by anybody beforehand. -/
def createProgramPda (S : SystemAccounts Address) (target : Address) (space : ℕ) :
    Except Error (SystemAccounts Address) := do
  let lamports := rent space
  if (S.get target).lamports = 0 then
    fromOption (SystemProgram.createAccount S .rentReserve target lamports space D.settlerProgram)
      .system
  else
    require ((S.get target).owner = systemProgram) (err .invalidCustodyAccount)
    require ((S.get target).space = 0) (err .invalidCustodyAccount)
    let currentLamports := (S.get target).lamports
    let S ← if currentLamports < lamports then
      fromOption (SystemProgram.transfer S .rentReserve target (lamports - currentLamports)) .system
      else pure S
    let S ← fromOption (SystemProgram.allocate S target space) .system
    fromOption (SystemProgram.assign S target D.settlerProgram) .system

/-- `load_or_init_quote_fill`. -/
def loadOrInitQuoteFill (s : State) (k : QuoteKey) :
    Except Error (SystemAccounts Address × QuoteFill) :=
  match s.quoteFills.lookup k with
  | some fill => .ok (s.system, fill)
  | none => do
    let system ← createProgramPda D rent s.system (.quoteFill k) QUOTE_FILL_SPACE
    pure (system, { filledAmount := 0, cancelled := false })

/-- `load_or_init_maker_otoken_balance`. -/
def loadOrInitMakerOtokenBalance (s : State) (k : BalanceKey) :
    Except Error (SystemAccounts Address × MakerOTokenBalance) :=
  match s.makerOtokenBalances.lookup k with
  | some balance => .ok (s.system, balance)
  | none => do
    let system ← createProgramPda D rent s.system (.makerOtokenBalance k)
      MAKER_OTOKEN_BALANCE_SPACE
    pure (system, { maker := Pubkey.default, otokenMint := Pubkey.default, balance := 0 })

/-- `init_vault_mm_account`. -/
def initVaultMMAccount (s : State) (k : VaultKey) : Except Error (SystemAccounts Address) := do
  require (s.vaultMMs.lookup k = none) (err .invalidCustodyAccount)
  createProgramPda D rent s.system (.vaultMM k) VAULT_MM_SPACE

/-! ## Checks and amounts -/

/-- `validate_maker`. -/
def validateMaker (makerState : MakerState) (expectedNonce : ℕ) : Except Error Unit := do
  require (makerState.whitelisted = true) (err .makerNotWhitelisted)
  require (makerState.nonce = expectedNonce) (err .invalidNonce)

/-- `update_fill`. -/
def updateFill (fill : QuoteFill) (amount maxAmount : ℕ) : Except Error QuoteFill := do
  require (fill.cancelled = false) (err .quoteCancelled)
  let newFilled ← fromOption (Checked.add 64 fill.filledAmount amount) (err .mathOverflow)
  require (newFilled ≤ maxAmount) (err .quoteExceeded)
  pure { fill with filledAmount := newFilled }

/-- `compute_premium_split`: the premium, and its division into the fee and what the user gets. -/
def computePremiumSplit (amount bidPrice feeBps : ℕ) : Except Error (ℕ × ℕ × ℕ) := do
  let product ← fromOption (Checked.mul 128 amount bidPrice) (err .mathOverflow)
  let raw ← fromOption (Checked.div product PRICE_SCALE) (err .mathOverflow)
  let premium ← fromOption (Checked.cast 64 raw) (err .mathOverflow)
  let scaled ← fromOption (Checked.mul 64 premium feeBps) (err .mathOverflow)
  let fee ← fromOption (Checked.div scaled 10000) (err .mathOverflow)
  let net ← fromOption (Checked.sub premium fee) (err .mathOverflow)
  pure (premium, fee, net)

/-- `validate_itm`. -/
def validateItm (clock : ℤ) (info : OTokenInfo) : Except Error Unit := do
  require (info.expiry ≤ clock) (err .optionNotExpired)
  require (0 < info.expiryPrice) (err .expiryPriceNotSet)
  if info.isPut then require (info.expiryPrice < info.strikePrice) (err .optionNotITM)
  else require (info.strikePrice < info.expiryPrice) (err .optionNotITM)

/-- `compute_contra_amount`: what the seller of the option is owed of the other asset. -/
def computeContraAmount (amount strikePrice : ℕ) (isPut : Bool) (contraDecimals : ℕ) :
    Except Error ℕ := do
  let result ←
    if isPut then do
      require (8 ≤ contraDecimals ∧ contraDecimals ≤ 18) (err .unsupportedDecimals)
      let factor ← fromOption (Checked.pow 128 10 (contraDecimals - 8)) (err .mathOverflow)
      fromOption (Checked.mul 128 amount factor) (err .mathOverflow)
    else do
      require (6 ≤ contraDecimals ∧ contraDecimals ≤ 16) (err .unsupportedDecimals)
      let divisor ← fromOption (Checked.pow 128 10 (16 - contraDecimals)) (err .mathOverflow)
      let product ← fromOption (Checked.mul 128 amount strikePrice) (err .mathOverflow)
      fromOption (Checked.div product divisor) (err .mathOverflow)
  let result ← fromOption (Checked.cast 64 result) (err .mathOverflow)
  require (0 < result) (err .zeroAmount)
  pure result

/-! ## Setting up -/

/-- `initialize`, over the accounts of `Initialize`. -/
def initializeConfig (payer operator treasury : Pubkey) (protocolFeeBps : ℕ) (escapeDelay : ℤ)
    (jupiterProgram : Pubkey) (s : State) : Except Error State := do
  require (s.config = none) .system
  let system ← fromOption (SystemProgram.initAccount s.system rent (.wallet payer) .settlerConfig
    SETTLER_CONFIG_SPACE D.settlerProgram) .system
  require (operator ≠ Pubkey.default) (err .zeroAddress)
  require (treasury ≠ Pubkey.default) (err .zeroAddress)
  require (protocolFeeBps ≤ MAX_FEE_BPS) (err .feeTooHigh)
  require (MIN_ESCAPE_DELAY ≤ escapeDelay) (err .escapeDelayTooShort)
  pure { s with
    system
    config := some { owner := payer, operator, treasury, protocolFeeBps, paused := false,
                     escapeDelay, jupiterProgram } }

/-- The accounts of `OwnerAction` admit the caller. -/
def ownerConfig (owner : Pubkey) (s : State) : Except Error SettlerConfig := do
  let config ← loadConfig s
  require (config.owner = owner) (.anchor .constraintHasOne)
  pure config

/-- `init_vault_counter`. -/
def initVaultCounter (owner vaultCounter : Pubkey) (s : State) : Except Error State := do
  let _ ← ownerConfig owner s
  let system ← fromOption (SystemProgram.transfer s.system (.wallet owner)
    (.vaultCounter vaultCounter) (rent VAULT_COUNTER_SPACE)) .system
  require (vaultCounter = D.settlerConfig) (.anchor .constraintSeeds)
  let ctrl ← lift (Controller.initializeCounter D.settlerConfig s.ctrl)
  pure { s with system, ctrl }

/-- `whitelist_maker`. A maker that was listed before keeps its nonce. -/
def whitelistMaker (owner maker : Pubkey) (whitelisted : Bool) (s : State) :
    Except Error State := do
  let _ ← ownerConfig owner s
  let (system, state) ←
    match s.makerStates.lookup maker with
    | some state => pure (s.system, state)
    | none => do
      let system ← fromOption (SystemProgram.initAccount s.system rent (.wallet owner)
        (.makerState maker) MAKER_STATE_SPACE D.settlerProgram) .system
      pure (system, MakerState.zeroed)
  let state := if state.maker = Pubkey.default then { state with maker, nonce := 0 } else state
  pure { s with
    system
    makerStates := s.makerStates.insert maker { state with whitelisted } }

/-- `increment_maker_nonce`. -/
def incrementMakerNonce (maker : Pubkey) (s : State) : Except Error State := do
  let state ← loadMakerState s maker
  require (state.maker = maker) (.anchor .constraintHasOne)
  let nonce ← fromOption (Checked.add 64 state.nonce 1) (err .mathOverflow)
  pure { s with makerStates := s.makerStates.insert maker { state with nonce } }

/-- `cancel_quote`. The counter is created if nothing was filled yet. -/
def cancelQuote (maker : Pubkey) (quoteId : UInt64) (s : State) : Except Error State := do
  let state ← loadMakerState s maker
  require (state.maker = maker) (.anchor .constraintHasOne)
  let k : QuoteKey := ⟨maker, state.nonce, quoteId.toNat⟩
  let (system, fill) ←
    match s.quoteFills.lookup k with
    | some fill => pure (s.system, fill)
    | none => do
      let system ← fromOption (SystemProgram.initAccount s.system rent (.wallet maker)
        (.quoteFill k) QUOTE_FILL_SPACE D.settlerProgram) .system
      pure (system, QuoteFill.zeroed)
  require (fill.cancelled = false) (err .quoteAlreadyCancelled)
  pure { s with
    system
    quoteFills := s.quoteFills.insert k { fill with cancelled := true } }

/-! ## Executing an order -/

/-- The arguments of `execute_order`. -/
structure Order where
  amount : UInt64
  bidPrice : UInt64
  deadline : Int64
  quoteId : UInt64
  maxAmount : UInt64
  makerNonce : UInt64
  premiumMint : Pubkey
  collateralAmount : UInt64
  collateralMint : Pubkey

/-- The message the maker must have signed for the order. -/
def Order.message (ord : Order) (otokenMint : Pubkey) : List UInt8 :=
  buildQuoteMessage otokenMint ord.bidPrice.toNat ord.deadline.toInt ord.quoteId.toNat
    ord.maxAmount.toNat ord.makerNonce.toNat ord.premiumMint

structure ExecuteOrder where
  vault : VaultKey
  /-- The seed of the `vault_counter` account. -/
  vaultCounter : Pubkey
  /-- The seed of the `otoken_info` account. -/
  otokenInfo : Pubkey
  otokenMint : Pubkey
  collateralMintAccount : Pubkey
  premiumMintAccount : Pubkey
  userCollateralAccount : Pubkey
  poolTokenAccount : Pubkey
  poolVaultAuthority : Pubkey
  settlerOtokenAccount : Pubkey
  mmPremiumAccount : Pubkey
  userPremiumAccount : Pubkey
  treasuryAccount : Pubkey
  user : Pubkey
  maker : Pubkey

/-- The fill counter of the order. -/
def ExecuteOrder.quoteKey (ctx : ExecuteOrder) (ord : Order) : QuoteKey :=
  ⟨ctx.maker, ord.makerNonce.toNat, ord.quoteId.toNat⟩

/-- The custody balance of the order. -/
def ExecuteOrder.balanceKey (ctx : ExecuteOrder) : BalanceKey := ⟨ctx.maker, ctx.otokenMint⟩

/-- The accounts `cpi_deposit_collateral` passes on. -/
def ExecuteOrder.deposit (ctx : ExecuteOrder) : Controller.DepositCollateral where
  vault := ctx.vault
  userTokenAccount := ctx.userCollateralAccount
  collateralMintAccount := ctx.collateralMintAccount
  poolTokenAccount := ctx.poolTokenAccount
  poolVaultAuthority := ctx.poolVaultAuthority
  owner := D.settlerConfig

/-- The accounts `cpi_mint_otoken` passes on. -/
def ExecuteOrder.mint (ctx : ExecuteOrder) : Controller.MintOtoken where
  vault := ctx.vault
  otokenInfo := ctx.otokenInfo
  otokenMint := ctx.otokenMint
  destination := ctx.settlerOtokenAccount
  owner := D.settlerConfig

/-- `cpi_open_vault`. The controller opens the vault at the next id of the settler's counter, and
refuses any other address. -/
def cpiOpenVault (ctx : ExecuteOrder) (collateralMint : Pubkey) (c : Controller.State) :
    Except Error Controller.State := do
  require (ctx.vaultCounter = D.settlerConfig) (.anchor .constraintSeeds)
  let counter ← fromOption (c.vaultCounters.lookup ctx.vaultCounter)
    (.anchor .accountNotInitialized)
  require (ctx.vault = ⟨D.settlerConfig, counter.nextId⟩) (.anchor .constraintSeeds)
  lift (Controller.openVault D.settlerConfig collateralMint ctx.user c)

/-- `execute_order`, as instruction `currentIndex` of the transaction `tx`. -/
def executeOrder (ctx : ExecuteOrder) (ord : Order) (tx : Transaction) (currentIndex : ℕ)
    (s : State) : Except Error State := do
  let config ← loadConfig s
  require ((s.system.get .rentReserve).owner = systemProgram) (.anchor .constraintRaw)
  let makerState ← loadMakerState s ctx.maker
  let L := s.ctrl.ledger
  let _ ← loadMint L ctx.otokenMint
  let _ ← loadMint L ctx.collateralMintAccount
  require (ctx.collateralMintAccount = ord.collateralMint) (err .invalidCollateralMint)
  let premiumMint ← loadMint L ctx.premiumMintAccount
  require (ctx.premiumMintAccount = ord.premiumMint) (err .invalidPremiumMint)
  let userCollateral ← loadTokenAccount L ctx.userCollateralAccount
  let pool ← loadTokenAccount L ctx.poolTokenAccount
  let settlerOtoken ← loadTokenAccount L ctx.settlerOtokenAccount
  let mmPremium ← loadTokenAccount L ctx.mmPremiumAccount
  let userPremium ← loadTokenAccount L ctx.userPremiumAccount
  let treasury ← loadTokenAccount L ctx.treasuryAccount
  require (0 < ord.amount.toNat) (err .zeroAmount)
  require (MIN_EXECUTE_AMOUNT ≤ ord.amount.toNat) (err .amountTooSmall)
  require (0 < ord.bidPrice.toNat) (err .zeroAmount)
  require (config.paused = false) (err .paused)
  require (makerState.maker = ctx.maker) (err .unauthorized)
  require (userCollateral.owner = ctx.user) (err .unauthorized)
  require (pool.mint = ord.collateralMint) (err .invalidCustodyAccount)
  require (ctx.poolVaultAuthority = D.poolVaultAuth ord.collateralMint) (err .unauthorized)
  require (pool.owner = D.poolVaultAuth ord.collateralMint) (err .unauthorized)
  require (settlerOtoken.mint = ctx.otokenMint) (err .invalidCustodyAccount)
  require (settlerOtoken.owner = D.settlerConfig) (err .invalidCustodyAccount)
  require (mmPremium.owner = ctx.maker) (err .invalidCustodyAccount)
  require (mmPremium.mint = ord.premiumMint) (err .invalidCustodyAccount)
  require (userPremium.owner = ctx.user) (err .unauthorized)
  require (userPremium.mint = ord.premiumMint) (err .invalidCustodyAccount)
  require (treasury.owner = config.treasury) (err .invalidTreasury)
  require (treasury.mint = ord.premiumMint) (err .invalidTreasury)
  validateMaker makerState ord.makerNonce.toNat
  verifyEd25519Signature tx currentIndex ctx.maker.toBytes (ord.message ctx.otokenMint)
  require (s.ctrl.clock ≤ ord.deadline.toInt) (err .quoteExpired)
  let (system, quoteFill) ← loadOrInitQuoteFill D rent s (ctx.quoteKey ord)
  let quoteFill ← updateFill quoteFill ord.amount.toNat ord.maxAmount.toNat
  let s := { s with
    system, quoteFills := s.quoteFills.insert (ctx.quoteKey ord) quoteFill }
  let (_, fee, net) ← computePremiumSplit ord.amount.toNat ord.bidPrice.toNat
    config.protocolFeeBps
  -- `fund_vault_rent`
  let system ← fromOption (SystemProgram.transfer s.system .rentReserve (.vault ctx.vault)
    (rent VAULT_SPACE)) .system
  let s := { s with system }
  let c ← cpiOpenVault D ctx ord.collateralMint s.ctrl
  let c ← lift (Controller.depositCollateral D T (ctx.deposit D) ord.collateralAmount.toNat c)
  let c ← lift (Controller.mintOtoken D T (ctx.mint D) ord.amount.toNat c)
  let s := { s with ctrl := c }
  let (system, mmBal) ← loadOrInitMakerOtokenBalance D rent s ctx.balanceKey
  let mmBal := if mmBal.maker = Pubkey.default then
    { mmBal with maker := ctx.maker, otokenMint := ctx.otokenMint } else mmBal
  require (mmBal.maker = ctx.maker) (err .unauthorized)
  require (mmBal.otokenMint = ctx.otokenMint) (err .invalidCustodyAccount)
  let balance ← fromOption (Checked.add 64 mmBal.balance ord.amount.toNat) (err .mathOverflow)
  let s := { s with
    system
    makerOtokenBalances := s.makerOtokenBalances.insert ctx.balanceKey { mmBal with balance } }
  let system ← initVaultMMAccount D rent s ctx.vault
  let s := { s with
    system
    vaultMMs := s.vaultMMs.insert ctx.vault
      { maker := ctx.maker, vault := ctx.vault, otokenMint := ctx.otokenMint
        remainingAmount := ord.amount.toNat } }
  -- `transfer_premium`
  let L ← transferIfPositive D T s.ctrl.ledger ctx.mmPremiumAccount ctx.premiumMintAccount
    ctx.userPremiumAccount net premiumMint.decimals
  let L ← transferIfPositive D T L ctx.mmPremiumAccount ctx.premiumMintAccount ctx.treasuryAccount
    fee premiumMint.decimals
  pure { s with ctrl := { s.ctrl with ledger := L } }

/-! ## Settling and withdrawing -/

/-- `settle_vault`. The controller's administrator signs as well. -/
def settleVault (operator : Pubkey) (ctx : Controller.SettleVault) (s : State) :
    Except Error State := do
  let config ← loadConfig s
  require (operator = config.operator) (err .unauthorized)
  let ctrl ← lift (Controller.settleVault D T ctx s.ctrl)
  pure { s with ctrl }

structure EmergencyWithdrawOrder where
  beneficiary : Pubkey
  vault : VaultKey
  poolTokenAccount : Pubkey
  collateralMintAccount : Pubkey
  beneficiaryTokenAccount : Pubkey
  poolVaultAuthority : Pubkey
  maker : Pubkey
  otokenMint : Pubkey
  settlerOtokenAccount : Pubkey

/-- The accounts passed on to the controller. -/
def EmergencyWithdrawOrder.withdraw (ctx : EmergencyWithdrawOrder) :
    Controller.EmergencyWithdrawVault where
  vault := ctx.vault
  poolTokenAccount := ctx.poolTokenAccount
  collateralMintAccount := ctx.collateralMintAccount
  beneficiaryTokenAccount := ctx.beneficiaryTokenAccount
  poolVaultAuthority := ctx.poolVaultAuthority
  owner := D.settlerConfig

/-- `emergency_withdraw`. Only what is still in custody is burned, so that redemptions by the maker
cannot block the beneficiary. -/
def emergencyWithdraw (ctx : EmergencyWithdrawOrder) (s : State) : Except Error State := do
  let _ ← loadConfig s
  let vault ← fromOption (s.ctrl.vaults.lookup ctx.vault) (.anchor .accountNotInitialized)
  require (ctx.beneficiary = vault.beneficiary) (err .unauthorized)
  require (vault.owner = D.settlerConfig) (err .unauthorized)
  let otoken ← loadMint s.ctrl.ledger ctx.otokenMint
  let settlerOtoken ← loadTokenAccount s.ctrl.ledger ctx.settlerOtokenAccount
  require (settlerOtoken.owner = D.settlerConfig) (err .invalidCustodyAccount)
  require (settlerOtoken.mint = ctx.otokenMint) (err .invalidCustodyAccount)
  let mmBal ← loadMakerOtokenBalance s ⟨ctx.maker, ctx.otokenMint⟩
  let vaultMM ← loadVaultMM s ctx.vault
  require (vaultMM.vault = ctx.vault) (err .unauthorized)
  require (vaultMM.maker = mmBal.maker) (err .unauthorized)
  require (vaultMM.otokenMint = ctx.otokenMint) (err .invalidCustodyAccount)
  let burnAmount := min vaultMM.remainingAmount mmBal.balance
  let ledger ← burnIfPositive D T s.ctrl.ledger ctx.otokenMint ctx.settlerOtokenAccount burnAmount
    otoken.decimals
  let balance ← fromOption (Checked.sub mmBal.balance burnAmount) (err .mathOverflow)
  let ctrl ← lift (Controller.emergencyWithdrawVault D T (ctx.withdraw D)
    { s.ctrl with ledger })
  pure { s with
    ctrl
    makerOtokenBalances := s.makerOtokenBalances.insert ⟨ctx.maker, ctx.otokenMint⟩
      { mmBal with balance }
    vaultMMs := s.vaultMMs.insert ctx.vault { vaultMM with remainingAmount := 0 } }

/-! ## Configuration -/

/-- `set_treasury`. -/
def setTreasury (owner treasury : Pubkey) (s : State) : Except Error State := do
  let config ← ownerConfig owner s
  require (treasury ≠ Pubkey.default) (err .zeroAddress)
  pure { s with config := some { config with treasury } }

/-- `set_protocol_fee`. -/
def setProtocolFee (owner : Pubkey) (protocolFeeBps : ℕ) (s : State) : Except Error State := do
  let config ← ownerConfig owner s
  require (protocolFeeBps ≤ MAX_FEE_BPS) (err .feeTooHigh)
  pure { s with config := some { config with protocolFeeBps } }

/-- `set_operator`. -/
def setOperator (owner operator : Pubkey) (s : State) : Except Error State := do
  let config ← ownerConfig owner s
  require (operator ≠ Pubkey.default) (err .zeroAddress)
  pure { s with config := some { config with operator } }

/-- `pause`. -/
def pause (owner : Pubkey) (paused : Bool) (s : State) : Except Error State := do
  let config ← ownerConfig owner s
  pure { s with config := some { config with paused } }

/-- `set_escape_delay`. -/
def setEscapeDelay (owner : Pubkey) (escapeDelay : ℤ) (s : State) : Except Error State := do
  let config ← ownerConfig owner s
  require (MIN_ESCAPE_DELAY ≤ escapeDelay) (err .escapeDelayTooShort)
  pure { s with config := some { config with escapeDelay } }

/-- `set_jupiter_program`. -/
def setJupiterProgram (owner jupiterProgram : Pubkey) (s : State) : Except Error State := do
  let config ← ownerConfig owner s
  require (jupiterProgram ≠ Pubkey.default) (err .zeroAddress)
  pure { s with config := some { config with jupiterProgram } }

/-- `withdraw_rent_reserve`. -/
def withdrawRentReserve (owner : Pubkey) (recipient : Address) (lamports : ℕ) (s : State) :
    Except Error State := do
  let _ ← ownerConfig owner s
  require ((s.system.get .rentReserve).owner = systemProgram) (.anchor .constraintRaw)
  require (0 < lamports) (err .zeroAmount)
  require (lamports ≤ (s.system.get .rentReserve).lamports) (err .insufficientRentReserve)
  let system ← fromOption (SystemProgram.transfer s.system .rentReserve recipient lamports) .system
  pure { s with system }

/-! ## Redeeming from custody -/

/-- The accounts that all redemptions from custody share. -/
structure RedeemForMM where
  /-- The operator of `redeem_for_mm` and `physical_redeem`, the maker of `mm_self_redeem`. -/
  signer : Pubkey
  makerOtokenBalance : BalanceKey
  /-- The seed of the `otoken_info` account. -/
  otokenInfo : Pubkey
  otokenMint : Pubkey
  collateralMintAccount : Pubkey
  settlerOtokenAccount : Pubkey
  settlerCollateralAccount : Pubkey
  mmCollateralAccount : Pubkey
  poolTokenAccount : Pubkey
  poolVaultAuthority : Pubkey

/-- The accounts passed on to the controller. -/
def RedeemForMM.redeem (ctx : RedeemForMM) : Controller.Redeem where
  otokenInfo := ctx.otokenInfo
  otokenMint := ctx.otokenMint
  redeemerOtokenAccount := ctx.settlerOtokenAccount
  redeemerCollateralAccount := ctx.settlerCollateralAccount
  poolTokenAccount := ctx.poolTokenAccount
  collateralMintAccount := ctx.collateralMintAccount
  poolVaultAuthority := ctx.poolVaultAuthority
  redeemer := D.settlerConfig

/-- What the constraints of the redemptions load. -/
structure Custody where
  balance : MakerOTokenBalance
  info : OTokenInfo
  collateralMint : Mint
  settlerCollateral : TokenAccount
  mmCollateral : TokenAccount

/-- The account constraints all redemptions from custody share. -/
def loadCustody (ctx : RedeemForMM) (s : State) : Except Error Custody := do
  let balance ← loadMakerOtokenBalance s ctx.makerOtokenBalance
  let info ← fromOption (s.ctrl.otokenInfos.lookup ctx.otokenInfo) (.anchor .accountNotInitialized)
  let _ ← loadMint s.ctrl.ledger ctx.otokenMint
  let collateralMint ← loadMint s.ctrl.ledger ctx.collateralMintAccount
  let settlerOtoken ← loadTokenAccount s.ctrl.ledger ctx.settlerOtokenAccount
  require (settlerOtoken.mint = ctx.otokenMint) (err .invalidCustodyAccount)
  require (settlerOtoken.owner = D.settlerConfig) (err .invalidCustodyAccount)
  let settlerCollateral ← loadTokenAccount s.ctrl.ledger ctx.settlerCollateralAccount
  require (settlerCollateral.mint = info.collateralMint) (err .invalidCustodyAccount)
  require (settlerCollateral.owner = D.settlerConfig) (err .invalidCustodyAccount)
  let mmCollateral ← loadTokenAccount s.ctrl.ledger ctx.mmCollateralAccount
  pure { balance, info, collateralMint, settlerCollateral, mmCollateral }

/-- The common end of `redeem_for_mm` and `mm_self_redeem`: lower the maker's balance, redeem, and
hand on what the redemption brought in. -/
def redeemToMaker (ctx : RedeemForMM) (acc : Custody) (amount : ℕ) (s : State) :
    Except Error State := do
  require (amount ≤ acc.balance.balance) (err .insufficientMMBalance)
  let balance ← fromOption (Checked.sub acc.balance.balance amount) (err .mathOverflow)
  let balanceBefore := acc.settlerCollateral.amount
  let ctrl ← lift (Controller.redeem D T (ctx.redeem D) amount s.ctrl)
  let reloaded ← loadTokenAccount ctrl.ledger ctx.settlerCollateralAccount
  let payout ← fromOption (Checked.sub reloaded.amount balanceBefore) (err .mathOverflow)
  let ledger ← transferIfPositive D T ctrl.ledger ctx.settlerCollateralAccount
    ctx.collateralMintAccount ctx.mmCollateralAccount payout acc.collateralMint.decimals
  pure { s with
    ctrl := { ctrl with ledger }
    makerOtokenBalances := s.makerOtokenBalances.insert ctx.makerOtokenBalance
      { acc.balance with balance } }

/-- `redeem_for_mm`. -/
def redeemForMM (ctx : RedeemForMM) (amount : ℕ) (s : State) : Except Error State := do
  let config ← loadConfig s
  require (ctx.signer = config.operator) (err .unauthorized)
  let acc ← loadCustody D ctx s
  require (ctx.makerOtokenBalance = ⟨acc.balance.maker, ctx.otokenMint⟩) (.anchor .constraintSeeds)
  require (acc.mmCollateral.mint = acc.info.collateralMint) (err .invalidCustodyAccount)
  require (acc.mmCollateral.owner = acc.balance.maker) (err .invalidCustodyAccount)
  require (0 < amount) (err .zeroAmount)
  require (config.paused = false) (err .paused)
  require (acc.info.expiry ≤ s.ctrl.clock) (err .optionNotExpired)
  require (0 < acc.info.expiryPrice) (err .expiryPriceNotSet)
  redeemToMaker D T ctx acc amount s

/-- `mm_self_redeem`. -/
def mmSelfRedeem (ctx : RedeemForMM) (amount : ℕ) (s : State) : Except Error State := do
  let config ← loadConfig s
  let makerState ← loadMakerState s ctx.signer
  require (makerState.maker = ctx.signer) (.anchor .constraintHasOne)
  require (makerState.whitelisted = true) (err .makerNotWhitelisted)
  let acc ← loadCustody D ctx s
  require (ctx.makerOtokenBalance = ⟨ctx.signer, ctx.otokenMint⟩) (.anchor .constraintSeeds)
  require (acc.mmCollateral.mint = acc.info.collateralMint) (err .invalidCustodyAccount)
  require (acc.mmCollateral.owner = ctx.signer) (err .invalidCustodyAccount)
  require (0 < amount) (err .zeroAmount)
  require (0 < config.escapeDelay) (err .escapeNotReady)
  require (acc.info.expiry + config.escapeDelay < 2 ^ 63) (err .mathOverflow)
  require (acc.info.expiry + config.escapeDelay ≤ s.ctrl.clock) (err .escapeNotReady)
  require (0 < acc.info.expiryPrice) (err .expiryPriceNotSet)
  redeemToMaker D T ctx acc amount s

structure PhysicalRedeem extends RedeemForMM where
  contraMint : Pubkey
  settlerContraAccount : Pubkey
  user : Pubkey
  vault : VaultKey
  userContraAccount : Pubkey
  jupiterProgram : Pubkey

/-- What a route of the swap program does. It acts on everything the settler's signature, passed on
to it, can act on. -/
abbrev Swap := Controller.State → Except Error Controller.State

/-- `physical_redeem`. -/
def physicalRedeem (ctx : PhysicalRedeem) (amount maxCollateralSpent : ℕ) (swap : Swap) (s : State) :
    Except Error State := do
  let config ← loadConfig s
  require (ctx.signer = config.operator) (err .unauthorized)
  let acc ← loadCustody D ctx.toRedeemForMM s
  require (ctx.makerOtokenBalance = ⟨acc.balance.maker, ctx.otokenMint⟩) (.anchor .constraintSeeds)
  let contraMint ← loadMint s.ctrl.ledger ctx.contraMint
  let settlerContra ← loadTokenAccount s.ctrl.ledger ctx.settlerContraAccount
  require (settlerContra.mint = ctx.contraMint) (err .invalidContraMint)
  require (settlerContra.owner = D.settlerConfig) (err .invalidCustodyAccount)
  let vault ← fromOption (s.ctrl.vaults.lookup ctx.vault) (.anchor .accountNotInitialized)
  require (vault.otokenMint = ctx.otokenMint) (err .invalidCustodyAccount)
  require (vault.beneficiary = ctx.user) (err .unauthorized)
  let vaultMM ← loadVaultMM s ctx.vault
  require (vaultMM.vault = ctx.vault) (err .unauthorized)
  require (vaultMM.maker = acc.balance.maker) (err .unauthorized)
  require (vaultMM.otokenMint = ctx.otokenMint) (err .invalidCustodyAccount)
  let userContra ← loadTokenAccount s.ctrl.ledger ctx.userContraAccount
  require (userContra.mint = ctx.contraMint) (err .invalidContraMint)
  require (userContra.owner = ctx.user) (err .invalidCustodyAccount)
  require (acc.mmCollateral.owner = acc.balance.maker) (err .invalidCustodyAccount)
  require (0 < amount) (err .zeroAmount)
  require (config.paused = false) (err .paused)
  validateItm s.ctrl.clock acc.info
  let isPut := acc.info.isPut
  let expectedContra := if isPut then acc.info.underlying else acc.info.strikeAsset
  require (ctx.contraMint = expectedContra) (err .invalidContraMint)
  let contraAmount ← computeContraAmount amount acc.info.strikePrice isPut contraMint.decimals
  let expectedMMMint := if isPut then acc.info.collateralMint else expectedContra
  require (acc.mmCollateral.mint = expectedMMMint) (err .invalidCustodyAccount)
  require (amount ≤ acc.balance.balance) (err .insufficientMMBalance)
  require (amount ≤ vaultMM.remainingAmount) (err .insufficientMMBalance)
  let remainingAmount ← fromOption (Checked.sub vaultMM.remainingAmount amount) (err .mathOverflow)
  let balance ← fromOption (Checked.sub acc.balance.balance amount) (err .mathOverflow)
  let collateralBefore := acc.settlerCollateral.amount
  let userContraBefore := userContra.amount
  let settlerContraBefore := settlerContra.amount
  let c ← lift (Controller.redeem D T (ctx.redeem D) amount s.ctrl)
  let reloaded ← loadTokenAccount c.ledger ctx.settlerCollateralAccount
  let collateralAfterRedeem := reloaded.amount
  let collateralReceived ← fromOption (Checked.sub collateralAfterRedeem collateralBefore)
    (err .mathOverflow)
  require (0 < collateralReceived) (err .redeemReturnedZero)
  require (ctx.jupiterProgram = config.jupiterProgram) (err .invalidJupiterProgram)
  let c ← swap c
  let settlerCollateral ← loadTokenAccount c.ledger ctx.settlerCollateralAccount
  let userContra ← loadTokenAccount c.ledger ctx.userContraAccount
  let settlerContra ← loadTokenAccount c.ledger ctx.settlerContraAccount
  let collateralUsed ← fromOption (Checked.sub collateralAfterRedeem settlerCollateral.amount)
    (err .mathOverflow)
  require (collateralUsed ≤ maxCollateralSpent) (err .excessCollateralUsed)
  let userContraDelta ← fromOption (Checked.sub userContra.amount userContraBefore)
    (err .mathOverflow)
  let settlerContraDelta ← fromOption (Checked.sub settlerContra.amount settlerContraBefore)
    (err .mathOverflow)
  let ledger ←
    if isPut then do
      require (contraAmount ≤ userContraDelta) (err .insufficientSwapOutput)
      require (settlerContraDelta = 0) (err .unexpectedSwapDestination)
      require (0 < collateralUsed) (err .unexpectedSwapDestination)
      let surplusCollateral ← fromOption (Checked.sub collateralReceived collateralUsed)
        (err .mathOverflow)
      transferIfPositive D T c.ledger ctx.settlerCollateralAccount ctx.collateralMintAccount
        ctx.mmCollateralAccount surplusCollateral acc.collateralMint.decimals
    else do
      require (collateralUsed = collateralReceived) (err .unexpectedSwapDestination)
      require (contraAmount ≤ settlerContraDelta) (err .insufficientSwapOutput)
      require (userContraDelta = 0) (err .unexpectedSwapDestination)
      let ledger ← fromOption (T.transferChecked c.ledger ctx.settlerContraAccount ctx.contraMint
        ctx.userContraAccount D.settlerConfig contraAmount contraMint.decimals) .token
      let surplusContra ← fromOption (Checked.sub settlerContraDelta contraAmount)
        (err .mathOverflow)
      transferIfPositive D T ledger ctx.settlerContraAccount ctx.contraMint ctx.mmCollateralAccount
        surplusContra contraMint.decimals
  pure { s with
    ctrl := { c with ledger }
    makerOtokenBalances := s.makerOtokenBalances.insert ctx.makerOtokenBalance
      { acc.balance with balance }
    vaultMMs := s.vaultMMs.insert ctx.vault { vaultMM with remainingAmount } }

/-! ## Dispatch -/

inductive Instruction where
  | initializeConfig (payer operator treasury : Pubkey) (protocolFeeBps : ℕ) (escapeDelay : ℤ)
      (jupiterProgram : Pubkey)
  | initVaultCounter (owner vaultCounter : Pubkey)
  | whitelistMaker (owner maker : Pubkey) (whitelisted : Bool)
  | incrementMakerNonce (maker : Pubkey)
  | cancelQuote (maker : Pubkey) (quoteId : UInt64)
  | executeOrder (ctx : ExecuteOrder) (ord : Order) (tx : Transaction) (currentIndex : ℕ)
  | settleVault (operator : Pubkey) (ctx : Controller.SettleVault)
  | emergencyWithdraw (ctx : EmergencyWithdrawOrder)
  | setTreasury (owner treasury : Pubkey)
  | setProtocolFee (owner : Pubkey) (protocolFeeBps : ℕ)
  | setOperator (owner operator : Pubkey)
  | pause (owner : Pubkey) (paused : Bool)
  | setEscapeDelay (owner : Pubkey) (escapeDelay : ℤ)
  | setJupiterProgram (owner jupiterProgram : Pubkey)
  | withdrawRentReserve (owner : Pubkey) (recipient : Address) (lamports : ℕ)
  | redeemForMM (ctx : RedeemForMM) (amount : ℕ)
  | mmSelfRedeem (ctx : RedeemForMM) (amount : ℕ)
  | physicalRedeem (ctx : PhysicalRedeem) (amount maxCollateralSpent : ℕ) (swap : Swap)

/-- The accounts whose signatures the instruction requires. -/
def Instruction.signers : Instruction → List Pubkey
  | .initializeConfig payer .. => [payer]
  | .initVaultCounter owner _ => [owner]
  | .whitelistMaker owner .. => [owner]
  | .incrementMakerNonce maker => [maker]
  | .cancelQuote maker _ => [maker]
  | .executeOrder ctx .. => [ctx.user]
  | .settleVault operator ctx => [operator, ctx.admin]
  | .emergencyWithdraw ctx => [ctx.beneficiary]
  | .setTreasury owner _ => [owner]
  | .setProtocolFee owner _ => [owner]
  | .setOperator owner _ => [owner]
  | .pause owner _ => [owner]
  | .setEscapeDelay owner _ => [owner]
  | .setJupiterProgram owner _ => [owner]
  | .withdrawRentReserve owner .. => [owner]
  | .redeemForMM ctx _ => [ctx.signer]
  | .mmSelfRedeem ctx _ => [ctx.signer]
  | .physicalRedeem ctx .. => [ctx.signer]

/-- Run an instruction. -/
def exec : Instruction → State → Except Error State
  | .initializeConfig payer operator treasury protocolFeeBps escapeDelay jupiterProgram, s =>
    initializeConfig D rent payer operator treasury protocolFeeBps escapeDelay jupiterProgram s
  | .initVaultCounter owner vaultCounter, s => initVaultCounter D rent owner vaultCounter s
  | .whitelistMaker owner maker whitelisted, s => whitelistMaker D rent owner maker whitelisted s
  | .incrementMakerNonce maker, s => incrementMakerNonce maker s
  | .cancelQuote maker quoteId, s => cancelQuote D rent maker quoteId s
  | .executeOrder ctx ord tx currentIndex, s => executeOrder D T rent ctx ord tx currentIndex s
  | .settleVault operator ctx, s => settleVault D T operator ctx s
  | .emergencyWithdraw ctx, s => emergencyWithdraw D T ctx s
  | .setTreasury owner treasury, s => setTreasury owner treasury s
  | .setProtocolFee owner protocolFeeBps, s => setProtocolFee owner protocolFeeBps s
  | .setOperator owner operator, s => setOperator owner operator s
  | .pause owner paused, s => pause owner paused s
  | .setEscapeDelay owner escapeDelay, s => setEscapeDelay owner escapeDelay s
  | .setJupiterProgram owner jupiterProgram, s => setJupiterProgram owner jupiterProgram s
  | .withdrawRentReserve owner recipient lamports, s =>
    withdrawRentReserve owner recipient lamports s
  | .redeemForMM ctx amount, s => redeemForMM D T ctx amount s
  | .mmSelfRedeem ctx amount, s => mmSelfRedeem D T ctx amount s
  | .physicalRedeem ctx amount maxCollateralSpent swap, s =>
    physicalRedeem D T ctx amount maxCollateralSpent swap s

end Settler

end OptionsProtocol
