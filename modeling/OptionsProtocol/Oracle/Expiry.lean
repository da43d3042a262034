import OptionsProtocol.Oracle.Instructions

/-!
# When an expiry price was observed

An expiry price is compared with an observation that is fresh when the price is submitted. Submissions are
possible at any time after the expiry, so the observation is fresh with respect to the expiry only if the
submission is prompt.
-/

namespace OptionsProtocol

namespace Oracle

open Except

variable {clock : ℤ} {s s' : State}

/-! ## What a submission establishes -/

structure SetExpiryPrice.Effect (clock : ℤ) (s : State) (ctx : SetExpiryPrice) (config : OracleConfig)
    (feed : PriceFeed) (pyth : PythPriceData) (s' : State) : Prop where
  fresh : s.expiryPrices.lookup ctx.key = none
  config_eq : s.config = some config
  caller : ctx.caller = config.admin ∨ ctx.caller = config.operator
  feed_eq : s.feeds.lookup ctx.underlying = some feed
  active : feed.active = true
  price_pos : 0 < ctx.price.toNat
  expired : ctx.expiry.toInt ≤ clock
  pyth_eq : parsePythPriceUpdate ctx.pythPriceUpdate config.pythReceiverProgram feed.pythFeedId
    = .ok pyth
  staleness : validateStaleness clock pyth.publishTime config.maxStalenessSecs = .ok ()
  confidence : validateConfidence pyth.price pyth.conf config.maxConfidenceBps = .ok ()
  deviation : ∃ reference, normalizeTo8Decimals pyth.price pyth.exponent = .ok reference ∧
    validatePriceDeviation ctx.price.toNat reference config.priceDeviationThresholdBps = .ok ()
  state_eq : s' = { s with
    expiryPrices := s.expiryPrices.insert ctx.key
      ⟨ctx.underlying, ctx.expiry.toInt, ctx.price.toNat, true⟩ }

theorem setExpiryPrice_effect {ctx : SetExpiryPrice} (h : setExpiryPrice ctx clock s = .ok s') :
    ∃ config feed pyth, SetExpiryPrice.Effect clock s ctx config feed pyth s' := by
  simp only [setExpiryPrice, loadConfig, loadFeed, fromOption_bind_eq_ok, require_bind_eq_ok] at h
  obtain ⟨hfresh, config, hconfig, hcaller, feed, hfeed, hprice, hexpired, hactive, -, h⟩ := h
  obtain ⟨pyth, hpyth, h⟩ := bind_eq_ok.mp h
  obtain ⟨_, hstale, h⟩ := bind_eq_ok.mp h
  obtain ⟨_, hconf, h⟩ := bind_eq_ok.mp h
  obtain ⟨reference, href, h⟩ := bind_eq_ok.mp h
  obtain ⟨_, hdev, h⟩ := bind_eq_ok.mp h
  rw [pure_eq_ok] at h
  exact ⟨config, feed, pyth, hfresh, hconfig, hcaller, hfeed, hactive, hprice, hexpired, hpyth, hstale,
    hconf, ⟨reference, href, hdev⟩, h.symm⟩

/-- **The expiry prices after an instruction**: as they were, or one was submitted. -/
theorem expiryPrices_of_exec {ix : Instruction} (h : exec clock ix s = .ok s') :
    s'.expiryPrices = s.expiryPrices ∨
      ∃ ctx config feed pyth, ix = .setExpiryPrice ctx ∧
        SetExpiryPrice.Effect clock s ctx config feed pyth s' := by
  cases ix with
  | setExpiryPrice ctx =>
    obtain ⟨config, feed, pyth, he⟩ := setExpiryPrice_effect h
    exact .inr ⟨ctx, config, feed, pyth, rfl, he⟩
  | initializeConfig _ _ _ _ _ _ =>
    simp only [exec, initializeConfig, require_bind_eq_ok, pure_eq_ok] at h
    obtain ⟨-, -, -, rfl⟩ := h
    exact .inl rfl
  | registerFeed _ _ _ =>
    obtain ⟨-, h⟩ := require_bind_eq_ok.mp h
    obtain ⟨_, -, h⟩ := bind_eq_ok.mp h
    rw [pure_eq_ok] at h
    subst h
    exact .inl rfl
  | acceptOwnership _ =>
    obtain ⟨_, -, h⟩ := bind_eq_ok.mp h
    obtain ⟨-, h⟩ := require_bind_eq_ok.mp h
    rw [pure_eq_ok] at h
    subst h
    exact .inl rfl
  | setFeedActive _ _ _ | setMaxStaleness _ _ | setMaxConfidence _ _ =>
    obtain ⟨_, -, h⟩ := bind_eq_ok.mp h
    rw [pure_eq_ok] at h
    subst h
    exact .inl rfl
  | deregisterFeed _ _ | setOperator _ _ | setPriceDeviationThreshold _ _ | transferOwnership _ _ =>
    obtain ⟨_, -, h⟩ := bind_eq_ok.mp h
    obtain ⟨-, h⟩ := require_bind_eq_ok.mp h
    rw [pure_eq_ok] at h
    subst h
    exact .inl rfl

theorem expiryPrice_of_exec {ix : Instruction} (h : exec clock ix s = .ok s') {k : PriceKey}
    {ep : ExpiryPrice} (hep : s.expiryPrices.lookup k = some ep) :
    s'.expiryPrices.lookup k = some ep := by
  rcases expiryPrices_of_exec h with heq | ⟨ctx, config, feed, pyth, -, he⟩
  · rw [heq, hep]
  · have hne : k ≠ ctx.key := by
      rintro rfl
      rw [he.fresh] at hep
      exact absurd hep (by simp)
    rw [he.state_eq, Finmap.lookup_insert_of_ne _ hne, hep]

/-! ## Timing -/

/-- **What the staleness limit says about the expiry.** The observation was published within the limit
before the submission, hence not earlier than that before the expiry. It was published within the limit
of the expiry whenever the submission was made within the limit after it; in any case it was if and only
if it was not published later than that. -/
theorem observation_timely {ctx : SetExpiryPrice} (h : setExpiryPrice ctx clock s = .ok s')
    {config : OracleConfig} (hconfig : s.config = some config) (hlimit : 0 < config.maxStalenessSecs) :
    ∃ feed pyth, s.feeds.lookup ctx.underlying = some feed ∧
      parsePythPriceUpdate ctx.pythPriceUpdate config.pythReceiverProgram feed.pythFeedId = .ok pyth ∧
      0 ≤ clock - pyth.publishTime ∧ clock - pyth.publishTime ≤ config.maxStalenessSecs ∧
      ctx.expiry.toInt - config.maxStalenessSecs ≤ pyth.publishTime ∧
      (clock ≤ ctx.expiry.toInt + config.maxStalenessSecs →
        |pyth.publishTime - ctx.expiry.toInt| ≤ config.maxStalenessSecs) ∧
      (|pyth.publishTime - ctx.expiry.toInt| ≤ config.maxStalenessSecs ↔
        pyth.publishTime ≤ ctx.expiry.toInt + config.maxStalenessSecs) := by
  obtain ⟨config', feed, pyth, he⟩ := setExpiryPrice_effect h
  obtain rfl := Option.some.inj (hconfig.symm.trans he.config_eq)
  obtain ⟨-, hpast, hage⟩ := (validateStaleness_eq_ok hlimit).mp he.staleness
  have hexpired := he.expired
  have hearly : ctx.expiry.toInt - config.maxStalenessSecs ≤ pyth.publishTime := by omega
  have hiff : |pyth.publishTime - ctx.expiry.toInt| ≤ config.maxStalenessSecs ↔
      pyth.publishTime ≤ ctx.expiry.toInt + config.maxStalenessSecs := by
    rw [abs_le]
    constructor
    · rintro ⟨-, hle⟩
      omega
    · intro hle
      exact ⟨by omega, by omega⟩
  refine ⟨feed, pyth, he.feed_eq, he.pyth_eq, by omega, hage, hearly, ?_, hiff⟩
  intro hprompt
  apply hiff.mpr
  omega

section Sample

open Bytes

/-- A fully verified price of `7.00000000`, published at `time`. -/
def samplePriceUpdate (time : ℕ) : AccountInfo where
  owner := 6
  data := PRICE_UPDATE_V2_DISCRIMINATOR ++ List.replicate PUBKEY_LEN 0 ++ [1] ++
    List.replicate FEED_ID_LEN 9 ++ leBytes 8 700000000 ++ leBytes 8 1000 ++
    leBytes 4 (2 ^ 32 - 8) ++ leBytes 8 time

/-- User `1` is administrator and operator; a price may be a minute old. -/
def sampleInstructions : List Instruction :=
  [.initializeConfig 1 1 6 60 100 1000, .registerFeed 1 10 (Vector.replicate 32 9)]

/-- The state after these. -/
def sampleState : State where
  config := some ⟨1, 0, 1, 6, 60, 100, 1000⟩
  feeds := Finmap.insert 10 ⟨10, Vector.replicate 32 9, true⟩ ∅
  expiryPrices := ∅

theorem sampleState_eq :
    sampleInstructions.foldlM (fun s ix ↦ exec 0 ix s) ⟨none, ∅, ∅⟩ = .ok sampleState := by
  rfl

/-- The price for the expiry `100`, with an observation published at `time`. -/
def sampleSetExpiryPrice (time : ℕ) : SetExpiryPrice where
  underlying := 10
  expiry := 100
  price := 700000000
  pythPriceUpdate := samplePriceUpdate time
  caller := 1

/-- **A late submission picks a late price**: ten thousand seconds after the expiry one is accepted that was
published then. -/
theorem observation_not_timely :
    sampleInstructions.foldlM (fun s ix ↦ exec 0 ix s) ⟨none, ∅, ∅⟩ = .ok sampleState ∧
    sampleState.config = some ⟨1, 0, 1, 6, 60, 100, 1000⟩ ∧
    parsePythPriceUpdate (samplePriceUpdate 10100) 6 (Vector.replicate 32 9) =
      .ok ⟨700000000, 1000, -8, 10100⟩ ∧
    (∃ s', setExpiryPrice (sampleSetExpiryPrice 10100) 10100 sampleState = .ok s') ∧
    ¬|(10100 : ℤ) - (sampleSetExpiryPrice 10100).expiry.toInt| ≤ 60 :=
  ⟨sampleState_eq, rfl, by rfl, exists_of_isSome (by decide +kernel), by decide⟩

theorem observation_timely_sample :
    ∃ feed pyth, sampleState.feeds.lookup 10 = some feed ∧
      parsePythPriceUpdate (samplePriceUpdate 130) 6 feed.pythFeedId = .ok pyth ∧
      |pyth.publishTime - 100| ≤ 60 := by
  obtain ⟨s', hs'⟩ : ∃ s', setExpiryPrice (sampleSetExpiryPrice 130) 130 sampleState = .ok s' :=
    exists_of_isSome (by decide +kernel)
  obtain ⟨feed, pyth, hfeed, hpyth, -, -, -, hprompt, -⟩ :=
    observation_timely hs' rfl (by decide : 0 < 60)
  exact ⟨feed, pyth, hfeed, hpyth, hprompt (by decide)⟩

end Sample

end Oracle

end OptionsProtocol
