import OptionsProtocol.Controller.State
import OptionsProtocol.Runtime.System
import OptionsProtocol.Settler.Quote

/-!
# The settler's accounts

The settler sits on top of the controller: it owns vaults there, keeps the oTokens minted against them
in custody for the makers, and records who is owed what. Its accounts are kept in stores keyed by
the seeds of their addresses, next to the state of the controller and the lamports of the addresses
the settler creates. An account of the settler carries data exactly if it is an entry of its store.

Account bumps and the emitted events are left out; nothing reads them.
-/

namespace OptionsProtocol

namespace Settler

open Controller (VaultKey)

/-! ## Constants -/

def MAX_FEE_BPS : ℕ := 2000
def PRICE_SCALE : ℕ := 100000000
/-- Three days. -/
def MIN_ESCAPE_DELAY : ℤ := 259200
def MIN_EXECUTE_AMOUNT : ℕ := 1000000

def SETTLER_CONFIG_SPACE : ℕ := 8 + 32 + 32 + 32 + 2 + 1 + 8 + 32 + 1
def MAKER_STATE_SPACE : ℕ := 8 + 32 + 8 + 1 + 1
def QUOTE_FILL_SPACE : ℕ := 8 + 8 + 1 + 1
def MAKER_OTOKEN_BALANCE_SPACE : ℕ := 8 + 32 + 32 + 8 + 1
def VAULT_MM_SPACE : ℕ := 8 + 32 + 32 + 32 + 8 + 1
/-- The space of the controller's vaults and vault counters, whose rent the settler pays. -/
def VAULT_SPACE : ℕ := 8 + 32 + 8 + 32 + 8 + 32 + 8 + 1 + 32 + 1
def VAULT_COUNTER_SPACE : ℕ := 8 + 32 + 8 + 1

/-! ## Accounts -/

structure SettlerConfig where
  owner : Pubkey
  operator : Pubkey
  treasury : Pubkey
  protocolFeeBps : ℕ
  paused : Bool
  escapeDelay : ℤ
  jupiterProgram : Pubkey
  deriving DecidableEq

/-- Which maker a vault's oTokens are kept for. -/
structure VaultMM where
  maker : Pubkey
  vault : VaultKey
  otokenMint : Pubkey
  remainingAmount : ℕ
  deriving DecidableEq

structure MakerState where
  maker : Pubkey
  nonce : ℕ
  whitelisted : Bool
  deriving DecidableEq

structure QuoteFill where
  filledAmount : ℕ
  cancelled : Bool
  deriving DecidableEq

structure MakerOTokenBalance where
  maker : Pubkey
  otokenMint : Pubkey
  balance : ℕ
  deriving DecidableEq

/-- The seeds of a fill counter. -/
structure QuoteKey where
  maker : Pubkey
  nonce : ℕ
  quoteId : ℕ
  deriving DecidableEq

/-- The seeds of a custody balance. -/
structure BalanceKey where
  maker : Pubkey
  otokenMint : Pubkey
  deriving DecidableEq

/-- The addresses whose lamports the settler moves. -/
inductive Address where
  | rentReserve
  | settlerConfig
  | makerState (maker : Pubkey)
  | quoteFill (k : QuoteKey)
  | makerOtokenBalance (k : BalanceKey)
  | vaultMM (vault : VaultKey)
  | vault (k : VaultKey)
  | vaultCounter (owner : Pubkey)
  /-- Any other account. -/
  | wallet (k : Pubkey)
  deriving DecidableEq

structure State where
  /-- The controller, with the clock and the token ledger. -/
  ctrl : Controller.State
  system : SystemAccounts Address
  config : Option SettlerConfig
  makerStates : Store Pubkey MakerState
  quoteFills : Store QuoteKey QuoteFill
  makerOtokenBalances : Store BalanceKey MakerOTokenBalance
  vaultMMs : Store VaultKey VaultMM

/-- The contents of an account that Anchor has just created. -/
def MakerState.zeroed : MakerState := ⟨Pubkey.default, 0, false⟩

@[inherit_doc MakerState.zeroed]
def QuoteFill.zeroed : QuoteFill := ⟨0, false⟩

/-! ## What the accounts say, created or not -/

namespace State

variable (s : State)

/-- The nonce a maker's quotes must carry. -/
def nonceOf (maker : Pubkey) : ℕ := (s.makerStates.lookup maker).elim 0 MakerState.nonce

/-- What was executed under a fill counter. -/
def filledAmount (k : QuoteKey) : ℕ := (s.quoteFills.lookup k).elim 0 QuoteFill.filledAmount

/-- The quotes of a fill counter were cancelled. -/
def isCancelled (k : QuoteKey) : Bool := (s.quoteFills.lookup k).elim false QuoteFill.cancelled

/-- The oTokens a maker has in custody. -/
def custody (k : BalanceKey) : ℕ := (s.makerOtokenBalances.lookup k).elim 0 MakerOTokenBalance.balance

/-- The oTokens still recorded for a vault. -/
def remaining (k : VaultKey) : ℕ := (s.vaultMMs.lookup k).elim 0 VaultMM.remainingAmount

end State

end Settler

end OptionsProtocol
