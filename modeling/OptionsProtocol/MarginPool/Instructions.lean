import OptionsProtocol.Runtime.Program

/-!
# The margin pool's instructions

The margin pool is a program of its own: direct deposits of collateral, one vault for each mint, which only
the admin pays out. A vault records the sum of what was deposited and not paid out; the tokens are in an
account of the vault authority, an address the program signs for.

The pool is not the controller's, and neither knows of the other.
-/

namespace OptionsProtocol

namespace MarginPool

open Except

inductive MarginPoolError where
  | zeroAddress
  | zeroAmount
  | insufficientBalance
  | mathOverflow
  | unauthorized
  | collateralMismatch
  deriving DecidableEq, Repr

abbrev Error := Failure MarginPoolError

/-! ## Accounts -/

structure MarginPoolConfig where
  admin : Pubkey
  controller : Pubkey
  operator : Pubkey
  yieldRecipient : Pubkey
  deriving DecidableEq

structure PoolVault where
  collateralMint : Pubkey
  tokenAccount : Pubkey
  totalDeposited : ℕ
  deriving DecidableEq

structure State where
  ledger : Ledger
  config : Option MarginPoolConfig
  /-- Keyed by the collateral mint. -/
  poolVaults : Store Pubkey PoolVault

def loadConfig (s : State) : Except Error MarginPoolConfig :=
  fromOption s.config (.anchor .accountNotInitialized)

def loadPoolVault (s : State) (k : Pubkey) : Except Error PoolVault :=
  fromOption (s.poolVaults.lookup k) (.anchor .accountNotInitialized)

def loadTokenAccount (s : State) (k : Pubkey) : Except Error TokenAccount :=
  fromOption (s.ledger.accounts.lookup k) (.anchor .accountNotInitialized)

def loadMint (s : State) (m : Pubkey) : Except Error Mint :=
  fromOption (s.ledger.mints.lookup m) (.anchor .accountNotInitialized)

/-- The accounts of `AdminOnly` admit the caller. -/
def adminConfig (admin : Pubkey) (s : State) : Except Error MarginPoolConfig := do
  let config ← loadConfig s
  require (config.admin = admin) (.anchor .constraintHasOne)
  pure config

/-! ## Setting up -/

/-- `initialize`. -/
def initializeConfig (admin controller operator yieldRecipient : Pubkey) (s : State) :
    Except Error State := do
  require (s.config = none) .system
  require (controller ≠ Pubkey.default) (.error .zeroAddress)
  pure { s with config := some { admin, controller, operator, yieldRecipient } }

/-- `set_controller`. -/
def setController (admin newController : Pubkey) (s : State) : Except Error State := do
  let config ← adminConfig admin s
  require (newController ≠ Pubkey.default) (.error .zeroAddress)
  pure { s with config := some { config with controller := newController } }

/-- `set_operator`. -/
def setOperator (admin operator : Pubkey) (s : State) : Except Error State := do
  let config ← adminConfig admin s
  require (operator ≠ Pubkey.default) (.error .zeroAddress)
  pure { s with config := some { config with operator } }

/-- `set_yield_recipient`. -/
def setYieldRecipient (admin recipient : Pubkey) (s : State) : Except Error State := do
  let config ← adminConfig admin s
  require (recipient ≠ Pubkey.default) (.error .zeroAddress)
  pure { s with config := some { config with yieldRecipient := recipient } }

section Vaults

variable (T : TokenProgram) (lendingVaultAuth : Pubkey → Pubkey)

structure CreatePoolVault where
  vaultTokenAccount : Pubkey
  collateralMint : Pubkey
  admin : Pubkey

/-- `create_pool_vault`. The vault authority is `[b"lending_vault_auth", collateral_mint]`. -/
def createPoolVault (ctx : CreatePoolVault) (s : State) : Except Error State := do
  let config ← loadConfig s
  let vaultTokenAccount ← loadTokenAccount s ctx.vaultTokenAccount
  let _ ← loadMint s ctx.collateralMint
  require (s.poolVaults.lookup ctx.collateralMint = none) .system
  require (config.admin = ctx.admin) (.anchor .constraintHasOne)
  require (vaultTokenAccount.mint = ctx.collateralMint) (.anchor .constraintRaw)
  require (vaultTokenAccount.owner = lendingVaultAuth ctx.collateralMint) (.anchor .constraintRaw)
  pure { s with
    poolVaults := s.poolVaults.insert ctx.collateralMint
      { collateralMint := ctx.collateralMint, tokenAccount := ctx.vaultTokenAccount
        totalDeposited := 0 } }

/-! ## Paying in and out

`vault_token_account` is held to the address the vault records, so that it is not among what the caller
chooses; nor is the vault authority. -/

structure TransferToPool where
  /-- The seed of the `pool_vault` account. -/
  poolVault : Pubkey
  userTokenAccount : Pubkey
  collateralMint : Pubkey
  userAuthority : Pubkey

/-- `transfer_to_pool`. What is recorded is the amount asked for. -/
def transferToPool (ctx : TransferToPool) (amount : ℕ) (s : State) : Except Error State := do
  let _ ← loadConfig s
  let poolVault ← loadPoolVault s ctx.poolVault
  let userTokenAccount ← loadTokenAccount s ctx.userTokenAccount
  let collateralMint ← loadMint s ctx.collateralMint
  let _ ← loadTokenAccount s poolVault.tokenAccount
  require (ctx.poolVault = poolVault.collateralMint) (.anchor .constraintSeeds)
  require (userTokenAccount.mint = poolVault.collateralMint) (.anchor .constraintRaw)
  require (ctx.collateralMint = poolVault.collateralMint) (.error .collateralMismatch)
  require (0 < amount) (.error .zeroAmount)
  let ledger ← fromOption (T.transferChecked s.ledger ctx.userTokenAccount ctx.collateralMint
    poolVault.tokenAccount ctx.userAuthority amount collateralMint.decimals) .token
  let totalDeposited ← fromOption (Checked.add 64 poolVault.totalDeposited amount)
    (.error .mathOverflow)
  pure { s with
    ledger
    poolVaults := s.poolVaults.insert ctx.poolVault { poolVault with totalDeposited } }

structure TransferToUser where
  admin : Pubkey
  /-- The seed of the `pool_vault` account. -/
  poolVault : Pubkey
  userTokenAccount : Pubkey
  collateralMint : Pubkey

/-- `transfer_to_user`. -/
def transferToUser (ctx : TransferToUser) (amount : ℕ) (s : State) : Except Error State := do
  let config ← loadConfig s
  let poolVault ← loadPoolVault s ctx.poolVault
  let _ ← loadTokenAccount s poolVault.tokenAccount
  let userTokenAccount ← loadTokenAccount s ctx.userTokenAccount
  let collateralMint ← loadMint s ctx.collateralMint
  require (config.admin = ctx.admin) (.anchor .constraintHasOne)
  require (ctx.poolVault = poolVault.collateralMint) (.anchor .constraintSeeds)
  require (userTokenAccount.mint = poolVault.collateralMint) (.anchor .constraintRaw)
  require (ctx.collateralMint = poolVault.collateralMint) (.error .collateralMismatch)
  require (0 < amount) (.error .zeroAmount)
  require (amount ≤ poolVault.totalDeposited) (.error .insufficientBalance)
  let ledger ← fromOption (T.transferChecked s.ledger poolVault.tokenAccount ctx.collateralMint
    ctx.userTokenAccount (lendingVaultAuth poolVault.collateralMint) amount
    collateralMint.decimals) .token
  let totalDeposited ← fromOption (Checked.sub poolVault.totalDeposited amount)
    (.error .mathOverflow)
  pure { s with
    ledger
    poolVaults := s.poolVaults.insert ctx.poolVault { poolVault with totalDeposited } }

/-! ## Dispatch -/

inductive Instruction where
  | initializeConfig (admin controller operator yieldRecipient : Pubkey)
  | createPoolVault (ctx : CreatePoolVault)
  | transferToPool (ctx : TransferToPool) (amount : ℕ)
  | transferToUser (ctx : TransferToUser) (amount : ℕ)
  | setController (admin newController : Pubkey)
  | setOperator (admin operator : Pubkey)
  | setYieldRecipient (admin recipient : Pubkey)

/-- The account whose signature the instruction requires. -/
def Instruction.signer : Instruction → Pubkey
  | .initializeConfig admin .. => admin
  | .createPoolVault ctx => ctx.admin
  | .transferToPool ctx _ => ctx.userAuthority
  | .transferToUser ctx _ => ctx.admin
  | .setController admin _ => admin
  | .setOperator admin _ => admin
  | .setYieldRecipient admin _ => admin

/-- Run an instruction. -/
def exec : Instruction → State → Except Error State
  | .initializeConfig admin controller operator yieldRecipient, s =>
    initializeConfig admin controller operator yieldRecipient s
  | .createPoolVault ctx, s => createPoolVault lendingVaultAuth ctx s
  | .transferToPool ctx amount, s => transferToPool T ctx amount s
  | .transferToUser ctx amount, s => transferToUser T lendingVaultAuth ctx amount s
  | .setController admin newController, s => setController admin newController s
  | .setOperator admin operator, s => setOperator admin operator s
  | .setYieldRecipient admin recipient, s => setYieldRecipient admin recipient s

end Vaults

end MarginPool

end OptionsProtocol
