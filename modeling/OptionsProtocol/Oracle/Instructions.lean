import OptionsProtocol.Controller.State
import OptionsProtocol.Oracle.Pyth

/-!
# The oracle's instructions

The oracle keeps a price feed for each underlying and, for each underlying and expiry, at most one price:
the first that is submitted after the expiry and agrees with the feed. The account of a price is created
by the instruction that sets it, which is why there is never a second.
-/

namespace OptionsProtocol

namespace Oracle

open Except

/-! ## Accounts -/

structure OracleConfig where
  admin : Pubkey
  pendingAdmin : Pubkey
  operator : Pubkey
  pythReceiverProgram : Pubkey
  /-- Zero for no limit. -/
  maxStalenessSecs : ℕ
  /-- Zero for no limit. -/
  maxConfidenceBps : ℕ
  priceDeviationThresholdBps : ℕ
  deriving DecidableEq

structure PriceFeed where
  underlying : Pubkey
  pythFeedId : Vector UInt8 32
  active : Bool
  deriving DecidableEq

/-- The seeds of an expiry price. -/
structure PriceKey where
  underlying : Pubkey
  expiry : ℤ
  deriving DecidableEq

structure State where
  config : Option OracleConfig
  /-- Keyed by the underlying. -/
  feeds : Store Pubkey PriceFeed
  expiryPrices : Store PriceKey ExpiryPrice

def loadConfig (s : State) : Except Error OracleConfig :=
  fromOption s.config (.anchor .accountNotInitialized)

def loadFeed (s : State) (underlying : Pubkey) : Except Error PriceFeed :=
  fromOption (s.feeds.lookup underlying) (.anchor .accountNotInitialized)

/-- The accounts of `AdminAction` admit the caller. -/
def adminConfig (admin : Pubkey) (s : State) : Except Error OracleConfig := do
  let config ← loadConfig s
  require (config.admin = admin) (.anchor .constraintHasOne)
  pure config

/-! ## Setting up -/

/-- `initialize`. -/
def initializeConfig (admin operator pythReceiverProgram : Pubkey) (maxStalenessSecs : UInt64)
    (maxConfidenceBps priceDeviationThresholdBps : UInt16) (s : State) : Except Error State := do
  require (s.config = none) .system
  require (admin ≠ Pubkey.default) (.error .zeroAddress)
  require (0 < priceDeviationThresholdBps.toNat) (.error .invalidDeviationThreshold)
  pure { s with
    config := some
      { admin, pendingAdmin := Pubkey.default, operator, pythReceiverProgram
        maxStalenessSecs := maxStalenessSecs.toNat
        maxConfidenceBps := maxConfidenceBps.toNat
        priceDeviationThresholdBps := priceDeviationThresholdBps.toNat } }

/-- `register_feed`. -/
def registerFeed (admin underlying : Pubkey) (pythFeedId : Vector UInt8 32) (s : State) :
    Except Error State := do
  require (s.feeds.lookup underlying = none) .system
  let _ ← adminConfig admin s
  pure { s with feeds := s.feeds.insert underlying { underlying, pythFeedId, active := true } }

/-- The accounts of `DeregisterFeed`. -/
def adminFeed (admin underlying : Pubkey) (s : State) : Except Error PriceFeed := do
  let feed ← loadFeed s underlying
  require (underlying = feed.underlying) (.anchor .constraintSeeds)
  let _ ← adminConfig admin s
  pure feed

/-- `deregister_feed`. -/
def deregisterFeed (admin underlying : Pubkey) (s : State) : Except Error State := do
  let feed ← adminFeed admin underlying s
  require (feed.active = true) (.error .feedNotActive)
  pure { s with feeds := s.feeds.insert underlying { feed with active := false } }

/-- `set_feed_active`. -/
def setFeedActive (admin underlying : Pubkey) (active : Bool) (s : State) : Except Error State := do
  let feed ← adminFeed admin underlying s
  pure { s with feeds := s.feeds.insert underlying { feed with active } }

/-! ## Prices -/

/-- `get_price`. -/
def getPrice (underlying : Pubkey) (pythPriceUpdate : AccountInfo) (clock : ℤ) (s : State) :
    Except Error ℕ := do
  let config ← loadConfig s
  let feed ← loadFeed s underlying
  require (underlying = feed.underlying) (.anchor .constraintSeeds)
  require (feed.active = true) (.error .feedNotActive)
  let pyth ← parsePythPriceUpdate pythPriceUpdate config.pythReceiverProgram feed.pythFeedId
  validateStaleness clock pyth.publishTime config.maxStalenessSecs
  validateConfidence pyth.price pyth.conf config.maxConfidenceBps
  normalizeTo8Decimals pyth.price pyth.exponent

structure SetExpiryPrice where
  underlying : Pubkey
  expiry : Int64
  price : UInt64
  pythPriceUpdate : AccountInfo
  caller : Pubkey

/-- The seeds of the account it creates. -/
def SetExpiryPrice.key (ctx : SetExpiryPrice) : PriceKey := ⟨ctx.underlying, ctx.expiry.toInt⟩

/-- `set_expiry_price`. -/
def setExpiryPrice (ctx : SetExpiryPrice) (clock : ℤ) (s : State) : Except Error State := do
  require (s.expiryPrices.lookup ctx.key = none) .system
  let config ← loadConfig s
  require (ctx.caller = config.admin ∨ ctx.caller = config.operator) (.error .unauthorized)
  let feed ← loadFeed s ctx.underlying
  require (0 < ctx.price.toNat) (.error .invalidPrice)
  require (ctx.expiry.toInt ≤ clock) (.error .expiryNotReached)
  require (feed.active = true) (.error .feedNotActive)
  require (0 < config.priceDeviationThresholdBps) (.error .invalidDeviationThreshold)
  let pyth ← parsePythPriceUpdate ctx.pythPriceUpdate config.pythReceiverProgram feed.pythFeedId
  validateStaleness clock pyth.publishTime config.maxStalenessSecs
  validateConfidence pyth.price pyth.conf config.maxConfidenceBps
  let pythNormalized ← normalizeTo8Decimals pyth.price pyth.exponent
  validatePriceDeviation ctx.price.toNat pythNormalized config.priceDeviationThresholdBps
  pure { s with
    expiryPrices := s.expiryPrices.insert ctx.key
      { underlying := ctx.underlying, expiry := ctx.expiry.toInt, price := ctx.price.toNat
        isFinalized := true } }

/-- `get_expiry_price`. -/
def getExpiryPrice (k : PriceKey) (s : State) : Except Error ℕ := do
  let ep ← fromOption (s.expiryPrices.lookup k) (.anchor .accountNotInitialized)
  require (ep.isFinalized = true) (.error .expiryPriceNotSet)
  pure ep.price

/-! ## Administration -/

/-- `set_operator`. -/
def setOperator (admin operator : Pubkey) (s : State) : Except Error State := do
  let config ← adminConfig admin s
  require (operator ≠ Pubkey.default) (.error .zeroAddress)
  pure { s with config := some { config with operator } }

/-- `set_price_deviation_threshold`. -/
def setPriceDeviationThreshold (admin : Pubkey) (thresholdBps : UInt16) (s : State) :
    Except Error State := do
  let config ← adminConfig admin s
  require (0 < thresholdBps.toNat) (.error .invalidDeviationThreshold)
  pure { s with config := some { config with priceDeviationThresholdBps := thresholdBps.toNat } }

/-- `set_max_staleness`. -/
def setMaxStaleness (admin : Pubkey) (maxStalenessSecs : UInt64) (s : State) :
    Except Error State := do
  let config ← adminConfig admin s
  pure { s with config := some { config with maxStalenessSecs := maxStalenessSecs.toNat } }

/-- `set_max_confidence`. -/
def setMaxConfidence (admin : Pubkey) (maxConfidenceBps : UInt16) (s : State) :
    Except Error State := do
  let config ← adminConfig admin s
  pure { s with config := some { config with maxConfidenceBps := maxConfidenceBps.toNat } }

/-- `transfer_ownership`. -/
def transferOwnership (admin newAdmin : Pubkey) (s : State) : Except Error State := do
  let config ← adminConfig admin s
  require (newAdmin ≠ Pubkey.default) (.error .zeroAddress)
  pure { s with config := some { config with pendingAdmin := newAdmin } }

/-- `accept_ownership`. -/
def acceptOwnership (newAdmin : Pubkey) (s : State) : Except Error State := do
  let config ← loadConfig s
  require (newAdmin = config.pendingAdmin) (.error .notPendingAdmin)
  pure { s with
    config := some { config with admin := config.pendingAdmin, pendingAdmin := Pubkey.default } }

/-! ## Dispatch -/

inductive Instruction where
  | initializeConfig (admin operator pythReceiverProgram : Pubkey) (maxStalenessSecs : UInt64)
      (maxConfidenceBps priceDeviationThresholdBps : UInt16)
  | registerFeed (admin underlying : Pubkey) (pythFeedId : Vector UInt8 32)
  | deregisterFeed (admin underlying : Pubkey)
  | setFeedActive (admin underlying : Pubkey) (active : Bool)
  | setExpiryPrice (ctx : SetExpiryPrice)
  | setOperator (admin operator : Pubkey)
  | setPriceDeviationThreshold (admin : Pubkey) (thresholdBps : UInt16)
  | setMaxStaleness (admin : Pubkey) (maxStalenessSecs : UInt64)
  | setMaxConfidence (admin : Pubkey) (maxConfidenceBps : UInt16)
  | transferOwnership (admin newAdmin : Pubkey)
  | acceptOwnership (newAdmin : Pubkey)

/-- Run an instruction at the given time. -/
def exec (clock : ℤ) : Instruction → State → Except Error State
  | .initializeConfig admin operator pyth staleness confidence deviation, s =>
    initializeConfig admin operator pyth staleness confidence deviation s
  | .registerFeed admin underlying pythFeedId, s => registerFeed admin underlying pythFeedId s
  | .deregisterFeed admin underlying, s => deregisterFeed admin underlying s
  | .setFeedActive admin underlying active, s => setFeedActive admin underlying active s
  | .setExpiryPrice ctx, s => setExpiryPrice ctx clock s
  | .setOperator admin operator, s => setOperator admin operator s
  | .setPriceDeviationThreshold admin thresholdBps, s =>
    setPriceDeviationThreshold admin thresholdBps s
  | .setMaxStaleness admin maxStalenessSecs, s => setMaxStaleness admin maxStalenessSecs s
  | .setMaxConfidence admin maxConfidenceBps, s => setMaxConfidence admin maxConfidenceBps s
  | .transferOwnership admin newAdmin, s => transferOwnership admin newAdmin s
  | .acceptOwnership newAdmin, s => acceptOwnership newAdmin s

end Oracle

end OptionsProtocol
