import OptionsProtocol.Controller.State

/-!
# The controller's instructions

Each instruction takes the accounts passed to it, its arguments and the state, and returns the new
state or the way it failed; a failed instruction leaves no trace. Anchor loads the accounts and
checks their constraints in declaration order before the handler runs, so each definition below
reads: the loads, the constraints, the handler.

An account at a program-derived address is named by its seeds. Where a constraint pins an address
to seeds that are themselves read from accounts, the check is written out; of the constraints of one account
it comes first. What the creation of an account costs its payer is left to the payer.
-/

namespace OptionsProtocol

namespace Controller

open Except

variable (D : Deployment) (T : TokenProgram)

/-! ## Loading accounts -/

def loadConfig (s : State) : Except Error ControllerConfig :=
  fromOption s.config (.anchor .accountNotInitialized)

def loadVault (s : State) (k : VaultKey) : Except Error Vault :=
  fromOption (s.vaults.lookup k) (.anchor .accountNotInitialized)

def loadOtokenInfo (s : State) (m : Pubkey) : Except Error OTokenInfo :=
  fromOption (s.otokenInfos.lookup m) (.anchor .accountNotInitialized)

/-- `InterfaceAccount<TokenAccount>`. -/
def loadTokenAccount (L : Ledger) (k : Pubkey) : Except Error TokenAccount :=
  fromOption (L.accounts.lookup k) (.anchor .accountNotInitialized)

/-- `InterfaceAccount<Mint>`. -/
def loadMint (L : Ledger) (m : Pubkey) : Except Error Mint :=
  fromOption (L.mints.lookup m) (.anchor .accountNotInitialized)

/-- A transfer the handlers make only for a positive amount. -/
def transferIfPositive (L : Ledger) (src mint dst auth : Pubkey) (amount decimals : ℕ) :
    Except Error Ledger :=
  if 0 < amount then fromOption (T.transferChecked L src mint dst auth amount decimals) .token
  else .ok L

/-! ## Setting up -/

/-- `initialize`, over the accounts of `InitializeConfig`. -/
def initializeConfig (admin : Pubkey) (s : State) : Except Error State := do
  require (s.config = none) .system
  require (admin ≠ Pubkey.default) (.error .zeroAddress)
  pure { s with
    config := some
      { admin, partialPauser := Pubkey.default, partiallyPaused := false, fullyPaused := false }
    log := s.log ++ [.controllerInitialized admin] }

/-- `initialize_counter`. -/
def initializeCounter (owner : Pubkey) (s : State) : Except Error State := do
  require (s.vaultCounters.lookup owner = none) .system
  require (¬s.VaultAt owner) .system
  pure { s with vaultCounters := s.vaultCounters.insert owner { owner, nextId := 0 } }

/-- `open_vault`. The vault is created at the address of the counter's next id. -/
def openVault (owner collateralMint beneficiary : Pubkey) (s : State) : Except Error State := do
  let config ← loadConfig s
  let counter ← fromOption (s.vaultCounters.lookup owner) (.anchor .accountNotInitialized)
  require (s.vaults.lookup ⟨owner, counter.nextId⟩ = none) .system
  require (¬s.CounterAt ⟨owner, counter.nextId⟩) .system
  require (counter.owner = owner) (.anchor .constraintHasOne)
  require (beneficiary ≠ Pubkey.default) (.error .zeroAddress)
  require (config.fullyPaused = false) (.error .systemFullyPaused)
  require (config.partiallyPaused = false) (.error .systemPartiallyPaused)
  let vault : Vault :=
    { owner, vaultId := counter.nextId, collateralMint, collateralAmount := 0
      otokenMint := Pubkey.default, shortAmount := 0, settled := false, beneficiary }
  let nextId ← fromOption (Checked.add 64 counter.nextId 1) (.error .mathOverflow)
  pure { s with
    vaults := s.vaults.insert ⟨owner, counter.nextId⟩ vault
    vaultCounters := s.vaultCounters.insert owner { counter with nextId }
    log := s.log ++ [.vaultOpened owner counter.nextId] }

/-! ## Funding a vault and minting against it -/

structure DepositCollateral where
  vault : VaultKey
  userTokenAccount : Pubkey
  collateralMintAccount : Pubkey
  poolTokenAccount : Pubkey
  poolVaultAuthority : Pubkey
  owner : Pubkey

/-- `deposit_collateral`. -/
def depositCollateral (ctx : DepositCollateral) (amount : ℕ) (s : State) : Except Error State := do
  let config ← loadConfig s
  let vault ← loadVault s ctx.vault
  let user ← loadTokenAccount s.ledger ctx.userTokenAccount
  let mint ← loadMint s.ledger ctx.collateralMintAccount
  let pool ← loadTokenAccount s.ledger ctx.poolTokenAccount
  require (ctx.vault = ⟨ctx.owner, vault.vaultId⟩) (.anchor .constraintSeeds)
  require (vault.owner = ctx.owner) (.anchor .constraintHasOne)
  require (ctx.collateralMintAccount = vault.collateralMint) (.error .collateralMismatch)
  require (pool.mint = vault.collateralMint) (.error .collateralMismatch)
  require (pool.owner = ctx.poolVaultAuthority) (.error .unauthorized)
  require (ctx.poolVaultAuthority = D.poolVaultAuth vault.collateralMint) (.anchor .constraintSeeds)
  require (config.fullyPaused = false) (.error .systemFullyPaused)
  require (config.partiallyPaused = false) (.error .systemPartiallyPaused)
  require (0 < amount) (.error .zeroAmount)
  require (vault.settled = false) (.error .vaultSettled)
  require (user.mint = vault.collateralMint) (.error .collateralMismatch)
  let ledger ← fromOption (T.transferChecked s.ledger ctx.userTokenAccount ctx.collateralMintAccount
    ctx.poolTokenAccount ctx.owner amount mint.decimals) .token
  -- the credit is measured, so that mints that withhold a fee are rejected
  let reloaded ← loadTokenAccount ledger ctx.poolTokenAccount
  let actualReceived ← fromOption (Checked.sub reloaded.amount pool.amount) (.error .mathOverflow)
  require (actualReceived = amount) (.error .collateralCreditMismatch)
  let collateralAmount ← fromOption (Checked.add 64 vault.collateralAmount amount)
    (.error .mathOverflow)
  pure { s with
    ledger
    vaults := s.vaults.insert ctx.vault { vault with collateralAmount }
    log := s.log ++
      [.collateralDeposited vault.owner vault.vaultId vault.collateralMint amount] }

structure MintOtoken where
  vault : VaultKey
  /-- The seed of the `otoken_info` account. -/
  otokenInfo : Pubkey
  otokenMint : Pubkey
  destination : Pubkey
  owner : Pubkey

/-- `mint_otoken`. A vault is bound to the first series it mints. -/
def mintOtoken (ctx : MintOtoken) (amount : ℕ) (s : State) : Except Error State := do
  let config ← loadConfig s
  let vault ← loadVault s ctx.vault
  let info ← loadOtokenInfo s ctx.otokenInfo
  let _ ← loadMint s.ledger ctx.otokenMint
  let destination ← loadTokenAccount s.ledger ctx.destination
  require (vault.owner = ctx.owner) (.anchor .constraintHasOne)
  require (ctx.otokenInfo = ctx.otokenMint) (.anchor .constraintSeeds)
  require (info.collateralMint = vault.collateralMint) (.error .collateralMismatch)
  require (ctx.otokenMint = info.otokenMint) (.anchor .constraintRaw)
  require (destination.mint = ctx.otokenMint) (.error .otokenMismatch)
  require (config.fullyPaused = false) (.error .systemFullyPaused)
  require (config.partiallyPaused = false) (.error .systemPartiallyPaused)
  require (0 < amount) (.error .zeroAmount)
  require (s.clock < info.expiry) (.error .optionExpired)
  require (vault.settled = false) (.error .vaultSettled)
  require (vault.otokenMint = Pubkey.default ∨ vault.otokenMint = ctx.otokenMint)
    (.error .otokenMismatch)
  let newShort ← fromOption (Checked.add 64 vault.shortAmount amount) (.error .mathOverflow)
  let required ← getRequiredCollateral info.strikePrice info.isPut info.collateralDecimals newShort
  require (required ≤ vault.collateralAmount) (.error .insufficientCollateral)
  let ledger ← fromOption
    (T.mintTo s.ledger ctx.otokenMint ctx.destination D.controllerConfig amount) .token
  pure { s with
    ledger
    vaults := s.vaults.insert ctx.vault
      { vault with otokenMint := ctx.otokenMint, shortAmount := newShort }
    log := s.log ++ [.otokenMinted vault.owner vault.vaultId ctx.otokenMint amount] }

/-! ## Leaving the pool -/

structure SettleVault where
  vault : VaultKey
  /-- The seed of the `otoken_info` account. -/
  otokenInfo : Pubkey
  poolTokenAccount : Pubkey
  collateralMintAccount : Pubkey
  beneficiaryTokenAccount : Pubkey
  poolVaultAuthority : Pubkey
  admin : Pubkey

/-- `settle_vault`. -/
def settleVault (ctx : SettleVault) (s : State) : Except Error State := do
  let config ← loadConfig s
  let vault ← loadVault s ctx.vault
  let info ← loadOtokenInfo s ctx.otokenInfo
  let pool ← loadTokenAccount s.ledger ctx.poolTokenAccount
  let mint ← loadMint s.ledger ctx.collateralMintAccount
  let beneficiary ← loadTokenAccount s.ledger ctx.beneficiaryTokenAccount
  require (config.admin = ctx.admin) (.anchor .constraintHasOne)
  require (ctx.vault = ⟨vault.owner, vault.vaultId⟩) (.anchor .constraintSeeds)
  require (ctx.otokenInfo = vault.otokenMint) (.anchor .constraintSeeds)
  require (info.otokenMint = vault.otokenMint) (.error .otokenMismatch)
  require (pool.mint = vault.collateralMint) (.error .collateralMismatch)
  require (pool.owner = ctx.poolVaultAuthority) (.error .unauthorized)
  require (ctx.collateralMintAccount = vault.collateralMint) (.error .collateralMismatch)
  require (beneficiary.owner = vault.beneficiary) (.error .unauthorized)
  require (beneficiary.mint = vault.collateralMint) (.error .collateralMismatch)
  require (ctx.poolVaultAuthority = D.poolVaultAuth vault.collateralMint) (.anchor .constraintSeeds)
  require (config.fullyPaused = false) (.error .systemFullyPaused)
  require (vault.settled = false) (.error .vaultSettled)
  require (0 < vault.shortAmount) (.error .emptyVault)
  require (info.expiry ≤ s.clock) (.error .notExpired)
  require (0 < info.expiryPrice) (.error .expiryPriceNotSet)
  let payout ← getPayout info.strikePrice info.expiryPrice info.isPut info.collateralDecimals
    vault.shortAmount
  let collateralReturned ← fromOption (Checked.sub vault.collateralAmount payout)
    (.error .mathOverflow)
  let ledger ← transferIfPositive T s.ledger ctx.poolTokenAccount ctx.collateralMintAccount
    ctx.beneficiaryTokenAccount ctx.poolVaultAuthority collateralReturned mint.decimals
  pure { s with
    ledger
    vaults := s.vaults.insert ctx.vault { vault with settled := true }
    log := s.log ++ [.vaultSettled vault.owner vault.vaultId collateralReturned payout] }

structure Redeem where
  /-- The seed of the `otoken_info` account. -/
  otokenInfo : Pubkey
  otokenMint : Pubkey
  redeemerOtokenAccount : Pubkey
  redeemerCollateralAccount : Pubkey
  poolTokenAccount : Pubkey
  collateralMintAccount : Pubkey
  poolVaultAuthority : Pubkey
  redeemer : Pubkey

/-- `redeem`. It neither knows nor waits for the vaults that backed the oTokens. -/
def redeem (ctx : Redeem) (amount : ℕ) (s : State) : Except Error State := do
  let config ← loadConfig s
  let info ← loadOtokenInfo s ctx.otokenInfo
  let otoken ← loadMint s.ledger ctx.otokenMint
  let redeemerOtoken ← loadTokenAccount s.ledger ctx.redeemerOtokenAccount
  let redeemerCollateral ← loadTokenAccount s.ledger ctx.redeemerCollateralAccount
  let pool ← loadTokenAccount s.ledger ctx.poolTokenAccount
  let mint ← loadMint s.ledger ctx.collateralMintAccount
  require (ctx.otokenInfo = ctx.otokenMint) (.anchor .constraintSeeds)
  require (ctx.otokenMint = info.otokenMint) (.anchor .constraintRaw)
  require (redeemerOtoken.mint = ctx.otokenMint) (.anchor .constraintRaw)
  require (redeemerOtoken.owner = ctx.redeemer) (.error .unauthorized)
  require (redeemerCollateral.mint = info.collateralMint) (.error .collateralMismatch)
  require (redeemerCollateral.owner = ctx.redeemer) (.error .unauthorized)
  require (pool.mint = info.collateralMint) (.error .collateralMismatch)
  require (pool.owner = ctx.poolVaultAuthority) (.error .unauthorized)
  require (ctx.collateralMintAccount = info.collateralMint) (.error .collateralMismatch)
  require (ctx.poolVaultAuthority = D.poolVaultAuth info.collateralMint) (.anchor .constraintSeeds)
  require (config.fullyPaused = false) (.error .systemFullyPaused)
  require (0 < amount) (.error .zeroAmount)
  require (info.expiry ≤ s.clock) (.error .notExpired)
  require (0 < info.expiryPrice) (.error .expiryPriceNotSet)
  let payout ← getPayout info.strikePrice info.expiryPrice info.isPut info.collateralDecimals amount
  let burned ← fromOption (T.burnChecked s.ledger ctx.otokenMint ctx.redeemerOtokenAccount
    ctx.redeemer amount otoken.decimals) .token
  let ledger ← transferIfPositive T burned ctx.poolTokenAccount ctx.collateralMintAccount
    ctx.redeemerCollateralAccount ctx.poolVaultAuthority payout mint.decimals
  pure { s with
    ledger
    log := s.log ++ [.redeemed ctx.otokenMint ctx.redeemer amount payout] }

structure EmergencyWithdrawVault where
  vault : VaultKey
  poolTokenAccount : Pubkey
  collateralMintAccount : Pubkey
  beneficiaryTokenAccount : Pubkey
  poolVaultAuthority : Pubkey
  owner : Pubkey

/-- `emergency_withdraw_vault`. The oTokens minted against the vault are left alone. -/
def emergencyWithdrawVault (ctx : EmergencyWithdrawVault) (s : State) : Except Error State := do
  let config ← loadConfig s
  let vault ← loadVault s ctx.vault
  let pool ← loadTokenAccount s.ledger ctx.poolTokenAccount
  let mint ← loadMint s.ledger ctx.collateralMintAccount
  let beneficiary ← loadTokenAccount s.ledger ctx.beneficiaryTokenAccount
  require (ctx.vault = ⟨vault.owner, vault.vaultId⟩) (.anchor .constraintSeeds)
  require (vault.owner = ctx.owner) (.anchor .constraintHasOne)
  require (pool.mint = vault.collateralMint) (.error .collateralMismatch)
  require (pool.owner = ctx.poolVaultAuthority) (.error .unauthorized)
  require (ctx.collateralMintAccount = vault.collateralMint) (.error .collateralMismatch)
  require (beneficiary.owner = vault.beneficiary) (.error .unauthorized)
  require (beneficiary.mint = vault.collateralMint) (.error .collateralMismatch)
  require (ctx.poolVaultAuthority = D.poolVaultAuth vault.collateralMint) (.anchor .constraintSeeds)
  require (config.fullyPaused = true) (.error .notFullyPaused)
  require (vault.settled = false) (.error .vaultSettled)
  let ledger ← transferIfPositive T s.ledger ctx.poolTokenAccount ctx.collateralMintAccount
    ctx.beneficiaryTokenAccount ctx.poolVaultAuthority vault.collateralAmount mint.decimals
  pure { s with
    ledger
    vaults := s.vaults.insert ctx.vault { vault with settled := true }
    log := s.log ++ [.emergencyWithdraw vault.beneficiary vault.vaultId vault.collateralAmount] }

/-! ## Administration -/

/-- The accounts of `AdminAction` admit the caller. -/
def adminConfig (admin : Pubkey) (s : State) : Except Error ControllerConfig := do
  let config ← loadConfig s
  require (config.admin = admin) (.anchor .constraintHasOne)
  pure config

/-- `set_partial_pauser`. -/
def setPartialPauser (admin pauser : Pubkey) (s : State) : Except Error State := do
  let config ← adminConfig admin s
  require (pauser ≠ Pubkey.default) (.error .zeroAddress)
  pure { s with config := some { config with partialPauser := pauser } }

/-- `set_partially_paused`. -/
def setPartiallyPaused (caller : Pubkey) (paused : Bool) (s : State) : Except Error State := do
  let config ← loadConfig s
  require (caller = config.admin ∨ caller = config.partialPauser) (.error .unauthorized)
  pure { s with
    config := some { config with partiallyPaused := paused }
    log := if paused then s.log ++ [.systemPartiallyPaused caller] else s.log }

/-- `set_fully_paused`. -/
def setFullyPaused (admin : Pubkey) (paused : Bool) (s : State) : Except Error State := do
  let config ← adminConfig admin s
  pure { s with
    config := some { config with fullyPaused := paused }
    log := if paused then s.log ++ [.systemFullyPaused admin] else s.log }

structure CreateOTokenInfo where
  otokenMint : Pubkey
  /-- The contents of the factory's account; its seeds are these terms. -/
  factoryOtoken : OtokenFactory.OToken
  collateralMintAccount : Pubkey
  whitelistedOtoken : Whitelist.WhitelistedOToken
  /-- The operator recorded in `factory_operator_config`, if that account is initialised. -/
  factoryOperator : Option Pubkey
  admin : Pubkey

/-- `create_otoken_info`. -/
def createOtokenInfo (ctx : CreateOTokenInfo) (s : State) : Except Error State := do
  let config ← loadConfig s
  let mint ← loadMint s.ledger ctx.collateralMintAccount
  require (s.otokenInfos.lookup ctx.otokenMint = none) .system
  require (ctx.factoryOtoken.mint = ctx.otokenMint) (.error .otokenMismatch)
  require (ctx.collateralMintAccount = ctx.factoryOtoken.collateral) (.error .collateralMismatch)
  require (ctx.whitelistedOtoken.otokenMint = ctx.otokenMint) (.anchor .constraintSeeds)
  require (ctx.whitelistedOtoken.active = true) (.error .oTokenNotWhitelisted)
  require (ctx.admin = config.admin ∨ ctx.factoryOperator = some ctx.admin) (.error .unauthorized)
  require (ctx.collateralMintAccount = ctx.factoryOtoken.collateral) (.error .collateralMismatch)
  require (0 < ctx.factoryOtoken.strikePrice) (.error .zeroAmount)
  require (mint.decimals ≤ 18) (.error .invalidDecimals)
  let info : OTokenInfo :=
    { otokenMint := ctx.factoryOtoken.mint
      underlying := ctx.factoryOtoken.underlying
      strikeAsset := ctx.factoryOtoken.strikeAsset
      collateralMint := ctx.factoryOtoken.collateral
      strikePrice := ctx.factoryOtoken.strikePrice
      expiry := ctx.factoryOtoken.expiry
      isPut := ctx.factoryOtoken.isPut
      collateralDecimals := mint.decimals
      expiryPrice := 0 }
  pure { s with otokenInfos := s.otokenInfos.insert ctx.otokenMint info }

structure SetExpiryPrice where
  /-- The seed of the `otoken_info` account. -/
  otokenInfo : Pubkey
  oracleExpiryPrice : Oracle.ExpiryPrice
  admin : Pubkey

/-- `set_expiry_price`. -/
def setExpiryPrice (ctx : SetExpiryPrice) (s : State) : Except Error State := do
  let config ← loadConfig s
  let info ← loadOtokenInfo s ctx.otokenInfo
  require (config.admin = ctx.admin) (.anchor .constraintHasOne)
  require (ctx.otokenInfo = info.otokenMint) (.anchor .constraintSeeds)
  require (ctx.oracleExpiryPrice.underlying = info.underlying ∧
    ctx.oracleExpiryPrice.expiry = info.expiry) (.anchor .constraintSeeds)
  require (ctx.oracleExpiryPrice.isFinalized = true) (.error .expiryPriceNotSet)
  require (0 < ctx.oracleExpiryPrice.price) (.error .zeroAmount)
  require (info.expiry ≤ s.clock) (.error .notExpired)
  require (0 < ctx.oracleExpiryPrice.price) (.error .zeroAmount)
  require (info.expiryPrice = 0) (.error .expiryPriceAlreadySet)
  require (ctx.oracleExpiryPrice.isFinalized = true) (.error .expiryPriceNotSet)
  pure { s with
    otokenInfos := s.otokenInfos.insert ctx.otokenInfo
      { info with expiryPrice := ctx.oracleExpiryPrice.price } }

/-! ## Dispatch -/

inductive Instruction where
  | initializeConfig (payer admin : Pubkey)
  | initializeCounter (owner : Pubkey)
  | openVault (owner collateralMint beneficiary : Pubkey)
  | depositCollateral (ctx : DepositCollateral) (amount : ℕ)
  | mintOtoken (ctx : MintOtoken) (amount : ℕ)
  | settleVault (ctx : SettleVault)
  | redeem (ctx : Redeem) (amount : ℕ)
  | setPartialPauser (admin pauser : Pubkey)
  | setPartiallyPaused (caller : Pubkey) (paused : Bool)
  | setFullyPaused (admin : Pubkey) (paused : Bool)
  | emergencyWithdrawVault (ctx : EmergencyWithdrawVault)
  | createOtokenInfo (ctx : CreateOTokenInfo)
  | setExpiryPrice (ctx : SetExpiryPrice)

/-- The account whose signature the instruction requires. -/
def Instruction.signer : Instruction → Pubkey
  | .initializeConfig payer _ => payer
  | .initializeCounter owner => owner
  | .openVault owner _ _ => owner
  | .depositCollateral ctx _ => ctx.owner
  | .mintOtoken ctx _ => ctx.owner
  | .settleVault ctx => ctx.admin
  | .redeem ctx _ => ctx.redeemer
  | .setPartialPauser admin _ => admin
  | .setPartiallyPaused caller _ => caller
  | .setFullyPaused admin _ => admin
  | .emergencyWithdrawVault ctx => ctx.owner
  | .createOtokenInfo ctx => ctx.admin
  | .setExpiryPrice ctx => ctx.admin

/-- Run an instruction. -/
def exec : Instruction → State → Except Error State
  | .initializeConfig _ admin, s => initializeConfig admin s
  | .initializeCounter owner, s => initializeCounter owner s
  | .openVault owner collateralMint beneficiary, s => openVault owner collateralMint beneficiary s
  | .depositCollateral ctx amount, s => depositCollateral D T ctx amount s
  | .mintOtoken ctx amount, s => mintOtoken D T ctx amount s
  | .settleVault ctx, s => settleVault D T ctx s
  | .redeem ctx amount, s => redeem D T ctx amount s
  | .setPartialPauser admin pauser, s => setPartialPauser admin pauser s
  | .setPartiallyPaused caller paused, s => setPartiallyPaused caller paused s
  | .setFullyPaused admin paused, s => setFullyPaused admin paused s
  | .emergencyWithdrawVault ctx, s => emergencyWithdrawVault D T ctx s
  | .createOtokenInfo ctx, s => createOtokenInfo ctx s
  | .setExpiryPrice ctx, s => setExpiryPrice ctx s

end Controller

end OptionsProtocol
