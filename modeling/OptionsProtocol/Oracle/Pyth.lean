import OptionsProtocol.Library.Bytes
import OptionsProtocol.Runtime.Program

/-!
# Pyth prices

The oracle reads Pyth's price accounts by hand: a discriminator, the write authority, a verification
level of one or two bytes, and a message with the price, its confidence interval, its exponent and the
time it was published. It normalises the price to eight decimals and checks it against its limits; a
limit of zero disables the check.
-/

namespace OptionsProtocol

namespace Oracle

open Except Bytes

inductive OracleError where
  | zeroAddress
  | invalidPythAccount
  | feedIdMismatch
  | feedNotActive
  | invalidPrice
  | stalePrice
  | confidenceTooWide
  | priceDeviationTooHigh
  | invalidDeviationThreshold
  | expiryNotReached
  | expiryPriceNotSet
  | unauthorized
  | notPendingAdmin
  | mathOverflow
  deriving DecidableEq, Repr

abbrev Error := Failure OracleError

def BPS_DENOMINATOR : ℕ := 10000

/-! ## Price accounts -/

def DISCRIMINATOR_LEN : ℕ := 8
def PRICE_UPDATE_V2_DISCRIMINATOR : List UInt8 := [0x34, 0x2a, 0x89, 0x6f, 0xc1, 0xd0, 0x82, 0x04]
def PUBKEY_LEN : ℕ := 32
def FEED_ID_LEN : ℕ := 32
def MIN_PRICE_MSG_BYTES : ℕ := FEED_ID_LEN + 8 + 8 + 4 + 8

/-- An account of another program. -/
structure AccountInfo where
  owner : Pubkey
  data : List UInt8
  deriving DecidableEq

/-- The fields the oracle needs. -/
structure PythPriceData where
  price : ℤ
  conf : ℕ
  exponent : ℤ
  publishTime : ℤ
  deriving DecidableEq

/-- `parse_pyth_price_update`. Every verification level but `0` is taken to be one byte long. -/
def parsePythPriceUpdate (account : AccountInfo) (expectedOwner : Pubkey)
    (expectedFeedId : Vector UInt8 32) : Except Error PythPriceData := do
  require (account.owner = expectedOwner) (.error .invalidPythAccount)
  let data := account.data
  require (101 ≤ data.length) (.error .invalidPythAccount)
  require (data.take DISCRIMINATOR_LEN = PRICE_UPDATE_V2_DISCRIMINATOR) (.error .invalidPythAccount)
  let base := DISCRIMINATOR_LEN + PUBKEY_LEN
  let variant ← fromOption data[base]? .panic
  let msgStart := if variant = 0 then base + 2 else base + 1
  require (msgStart + MIN_PRICE_MSG_BYTES ≤ data.length) (.error .invalidPythAccount)
  let feedEnd := msgStart + FEED_ID_LEN
  let feedId ← fromOption (slice data msgStart feedEnd) .panic
  require (feedId = expectedFeedId.toList) (.error .feedIdMismatch)
  let price ← fromOption (readI64 data feedEnd) .panic
  let conf ← fromOption (readU64 data (feedEnd + 8)) .panic
  let exponent ← fromOption (readI32 data (feedEnd + 16)) .panic
  let publishTime ← fromOption (readI64 data (feedEnd + 20)) .panic
  require (0 < price) (.error .invalidPrice)
  pure { price, conf, exponent, publishTime }

/-! ## Limits -/

/-- `validate_staleness`. -/
def validateStaleness (clock publishTime : ℤ) (maxStalenessSecs : ℕ) : Except Error Unit :=
  if maxStalenessSecs = 0 then .ok ()
  else do
    let age := clock - publishTime
    require (-2 ^ 63 ≤ age ∧ age < 2 ^ 63) (.error .mathOverflow)
    require (0 ≤ age ∧ age.toNat ≤ maxStalenessSecs) (.error .stalePrice)

/-- `validate_confidence`. -/
def validateConfidence (price : ℤ) (conf maxConfidenceBps : ℕ) : Except Error Unit :=
  if maxConfidenceBps = 0 then .ok ()
  else do
    let priceAbs := price.natAbs
    require (0 < priceAbs) (.error .invalidPrice)
    let scaled ← fromOption (Checked.mul 64 conf BPS_DENOMINATOR) (.error .mathOverflow)
    let confBps ← fromOption (Checked.div scaled priceAbs) (.error .mathOverflow)
    require (confBps ≤ maxConfidenceBps) (.error .confidenceTooWide)

/-- `normalize_to_8_decimals`. -/
def normalizeTo8Decimals (price exponent : ℤ) : Except Error ℕ := do
  require (0 < price) (.error .invalidPrice)
  let targetExp : ℤ := -8
  let diff := exponent - targetExp
  require (-2 ^ 31 ≤ diff ∧ diff < 2 ^ 31) .panic
  let p := price.toNat
  if 0 < diff then
    let factor ← fromOption (Checked.pow 64 10 diff.toNat) (.error .mathOverflow)
    fromOption (Checked.mul 64 p factor) (.error .mathOverflow)
  else if diff < 0 then
    let factor ← fromOption (Checked.pow 64 10 (-diff).toNat) (.error .mathOverflow)
    let normalized := p / factor
    require (0 < normalized) (.error .invalidPrice)
    pure normalized
  else pure p

/-- `u64::abs_diff`. -/
def absDiff (m n : ℕ) : ℕ := if m < n then n - m else m - n

/-- `validate_price_deviation`. -/
def validatePriceDeviation (submitted reference thresholdBps : ℕ) : Except Error Unit := do
  require (0 < reference) (.error .invalidPrice)
  if thresholdBps = 0 then pure ()
  else
    let diff := absDiff submitted reference
    let scaled ← fromOption (Checked.mul 64 diff BPS_DENOMINATOR) (.error .mathOverflow)
    let deviationBps ← fromOption (Checked.div scaled reference) (.error .mathOverflow)
    require (deviationBps ≤ thresholdBps) (.error .priceDeviationTooHigh)

/-! ## What the checks establish -/

/-- With a staleness limit, a price is accepted if it was published no later than now and no earlier
than the limit allows. -/
theorem validateStaleness_eq_ok {clock publishTime : ℤ} {max : ℕ} (hmax : 0 < max) {u : Unit} :
    validateStaleness clock publishTime max = .ok u ↔
      clock - publishTime < 2 ^ 63 ∧ publishTime ≤ clock ∧ clock - publishTime ≤ max := by
  rw [validateStaleness, if_neg hmax.ne', require_bind_eq_ok, require_eq_ok]
  constructor
  · rintro ⟨⟨-, hfit⟩, hage, hle⟩
    exact ⟨hfit, by omega, by omega⟩
  · rintro ⟨hfit, hage, hle⟩
    exact ⟨⟨by omega, hfit⟩, by omega, by omega⟩

end Oracle

end OptionsProtocol
