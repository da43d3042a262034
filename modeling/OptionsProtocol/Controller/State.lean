import OptionsProtocol.Controller.Collateral
import OptionsProtocol.Runtime.Seeds

/-!
# The controller's accounts

Every account the controller owns, in stores keyed by the seeds of its address, next to the token
ledger and the clock it reads. The events it emits are kept in order: they are the only record of
what has been redeemed, and of how a settled vault was closed.

Account bumps are left out; they are functions of the seeds.
-/

namespace OptionsProtocol

/-! ## Accounts of the other programs that the controller reads -/

/-- `otoken_factory::OToken`. -/
structure OtokenFactory.OToken where
  underlying : Pubkey
  strikeAsset : Pubkey
  collateral : Pubkey
  strikePrice : ℕ
  expiry : ℤ
  isPut : Bool
  mint : Pubkey
  deriving DecidableEq

/-- `whitelist::WhitelistedOToken`. -/
structure Whitelist.WhitelistedOToken where
  otokenMint : Pubkey
  active : Bool
  deriving DecidableEq

/-- `oracle::ExpiryPrice`. -/
structure Oracle.ExpiryPrice where
  underlying : Pubkey
  expiry : ℤ
  price : ℕ
  isFinalized : Bool
  deriving DecidableEq

namespace Controller

/-! ## The controller's own accounts -/

structure OTokenInfo where
  otokenMint : Pubkey
  underlying : Pubkey
  strikeAsset : Pubkey
  collateralMint : Pubkey
  strikePrice : ℕ
  expiry : ℤ
  isPut : Bool
  collateralDecimals : ℕ
  expiryPrice : ℕ
  deriving DecidableEq

structure ControllerConfig where
  admin : Pubkey
  partialPauser : Pubkey
  partiallyPaused : Bool
  fullyPaused : Bool
  deriving DecidableEq

structure VaultCounter where
  owner : Pubkey
  nextId : ℕ
  deriving DecidableEq

/-- The seeds of a vault's address. -/
structure VaultKey where
  owner : Pubkey
  vaultId : ℕ
  deriving DecidableEq

structure Vault where
  owner : Pubkey
  vaultId : ℕ
  collateralMint : Pubkey
  collateralAmount : ℕ
  otokenMint : Pubkey
  shortAmount : ℕ
  settled : Bool
  beneficiary : Pubkey
  deriving DecidableEq

inductive Event where
  | controllerInitialized (admin : Pubkey)
  | vaultOpened (owner : Pubkey) (vaultId : ℕ)
  | collateralDeposited (owner : Pubkey) (vaultId : ℕ) (asset : Pubkey) (amount : ℕ)
  | otokenMinted (owner : Pubkey) (vaultId : ℕ) (otoken : Pubkey) (amount : ℕ)
  | vaultSettled (owner : Pubkey) (vaultId collateralReturned payoutReserved : ℕ)
  | redeemed (otoken redeemer : Pubkey) (otokenAmount payout : ℕ)
  | systemPartiallyPaused (caller : Pubkey)
  | systemFullyPaused (caller : Pubkey)
  | emergencyWithdraw (beneficiary : Pubkey) (vaultId collateralAmount : ℕ)
  deriving DecidableEq

structure State where
  /-- `Clock::get()?.unix_timestamp`. -/
  clock : ℤ
  ledger : Ledger
  config : Option ControllerConfig
  vaultCounters : Store Pubkey VaultCounter
  vaults : Store VaultKey Vault
  /-- Keyed by the oToken mint. -/
  otokenInfos : Store Pubkey OTokenInfo
  /-- The events emitted so far, oldest first. -/
  log : List Event

/-! ## Addresses

Stores are keyed by seeds. The seeds of a vault and of a counter can be the same bytes; then the two have one
address, and only one of them can be there. -/

/-- Somebody's counter is at the address of the vault. -/
def State.CounterAt (s : State) (k : VaultKey) : Prop :=
  ∃ o ∈ s.vaultCounters.keys, VaultClash k.owner (.ofNat k.vaultId) o

/-- A vault is at the address of the counter. -/
def State.VaultAt (s : State) (owner : Pubkey) : Prop :=
  ∃ k ∈ s.vaults.keys, VaultClash k.owner (.ofNat k.vaultId) owner

instance (s : State) (k : VaultKey) : Decidable (s.CounterAt k) :=
  decidable_of_iff' _ Store.exists_mem_keys_iff

instance (s : State) (owner : Pubkey) : Decidable (s.VaultAt owner) :=
  decidable_of_iff' _ Store.exists_mem_keys_iff

/-! ## Derived quantities -/

/-- The collateral `amount` oTokens of the series require. -/
def OTokenInfo.required (info : OTokenInfo) (amount : ℕ) : ℕ :=
  Controller.required info.strikePrice info.isPut info.collateralDecimals amount

/-- The payout of `amount` oTokens of the series, at its recorded price. -/
def OTokenInfo.payout (info : OTokenInfo) (amount : ℕ) : ℕ :=
  payoutOf info.strikePrice info.expiryPrice info.isPut info.collateralDecimals amount

/-- The requirement of `amount` oTokens of the series can be computed. -/
def OTokenInfo.Computable (info : OTokenInfo) (amount : ℕ) : Prop :=
  Controller.Computable info.strikePrice info.isPut info.collateralDecimals amount

theorem OTokenInfo.payout_le_required (info : OTokenInfo) (amount : ℕ) :
    info.payout amount ≤ info.required amount := payoutOf_le_required

theorem OTokenInfo.required_mono (info : OTokenInfo) {m n : ℕ} (h : m ≤ n) :
    info.required m ≤ info.required n := Controller.required_mono h

@[simp] theorem OTokenInfo.payout_zero (info : OTokenInfo) : info.payout 0 = 0 := payoutOf_zero

/-- The event records that `settle_vault` closed this vault. -/
def Event.settles (k : VaultKey) : Event → Bool
  | .vaultSettled owner vaultId _ _ => decide (owner = k.owner ∧ vaultId = k.vaultId)
  | _ => false

/-- The oTokens of `o` a `redeem` destroyed. -/
def Event.redeemedOf (o : Pubkey) : Event → ℕ
  | .redeemed otoken _ amount _ => if otoken = o then amount else 0
  | _ => 0

/-- What a `redeem` of `o` paid. -/
def Event.paidOf (o : Pubkey) : Event → ℕ
  | .redeemed otoken _ _ payout => if otoken = o then payout else 0
  | _ => 0

/-- `settle_vault` has closed the vault. -/
def ClosedBySettle (s : State) (k : VaultKey) : Prop := s.log.any (Event.settles k) = true

instance (s : State) (k : VaultKey) : Decidable (ClosedBySettle s k) :=
  inferInstanceAs (Decidable (_ = _))

/-- All oTokens of `o` redeemed so far. -/
def redeemedTotal (s : State) (o : Pubkey) : ℕ := (s.log.map (Event.redeemedOf o)).sum

end Controller

end OptionsProtocol
