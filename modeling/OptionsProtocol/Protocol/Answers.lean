import OptionsProtocol.Protocol.Provenance

/-!
# What the oracle answers

The oracle is asked for two prices: the one of the moment, read from an account of Pyth, and the one at an
expiry, read from its own. The second is accepted only against the first: whoever submits it passes the
account that the first would be read from, and what is accepted is what lies within the limit of the
answer.

Two things the instructions never change make the answers of a whole run comparable. The program that
Pyth's accounts belong to is named once, and so is the feed of an underlying, which can be switched off
and on but not replaced. All prices of an underlying were therefore observed on one feed.
-/

namespace OptionsProtocol

/-! ## The oracle -/

namespace Oracle

open Except

variable {clock : ℤ} {s s' s'' : State} {c c' : OracleConfig} {k : PriceKey} {u : Pubkey} {p : ℕ}

/-- Each feed lies under its underlying, what is stored is final, and the deviation is limited. -/
structure WellFormed (s : State) : Prop where
  limited : ∀ {c}, s.config = some c → 0 < c.priceDeviationThresholdBps
  feed : ∀ {u feed}, s.feeds.lookup u = some feed → feed.underlying = u
  final : ∀ {k ep}, s.expiryPrices.lookup k = some ep → ep.isFinalized = true

theorem wellFormed_empty : WellFormed ⟨none, ∅, ∅⟩ where
  limited hc := nomatch hc
  feed hf := by simp at hf
  final hep := by simp at hep

/-- What the prices are observed on is still the same. -/
structure State.Anchored (s s' : State) : Prop where
  receiver : ∀ {c}, s.config = some c →
    ∃ c', s'.config = some c' ∧ c'.pythReceiverProgram = c.pythReceiverProgram
  feed : ∀ {u feed}, s.feeds.lookup u = some feed →
    ∃ feed', s'.feeds.lookup u = some feed' ∧ feed'.pythFeedId = feed.pythFeedId

theorem State.Anchored.refl (s : State) : s.Anchored s where
  receiver hc := ⟨_, hc, rfl⟩
  feed hf := ⟨_, hf, rfl⟩

theorem State.Anchored.trans (h : s.Anchored s') (h' : s'.Anchored s'') : s.Anchored s'' where
  receiver hc := by
    obtain ⟨c', hc', heq⟩ := h.receiver hc
    obtain ⟨c'', hc'', heq'⟩ := h'.receiver hc'
    exact ⟨c'', hc'', heq'.trans heq⟩
  feed hf := by
    obtain ⟨feed', hf', heq⟩ := h.feed hf
    obtain ⟨feed'', hf'', heq'⟩ := h'.feed hf'
    exact ⟨feed'', hf'', heq'.trans heq⟩

theorem WellFormed.configured (hw : WellFormed s) (hlimit : 0 < c'.priceDeviationThresholdBps)
    (hsame : ∀ c, s.config = some c → c'.pythReceiverProgram = c.pythReceiverProgram) :
    WellFormed { s with config := some c' } ∧ s.Anchored { s with config := some c' } := by
  refine ⟨⟨?_, hw.feed, hw.final⟩, ⟨?_, fun hf ↦ ⟨_, hf, rfl⟩⟩⟩
  · rintro _ ⟨rfl⟩
    exact hlimit
  · intro c hc
    exact ⟨c', rfl, hsame c hc⟩

theorem WellFormed.registered (hw : WellFormed s) {feed : PriceFeed} (hfeed : feed.underlying = u)
    (hsame : ∀ old, s.feeds.lookup u = some old → feed.pythFeedId = old.pythFeedId) :
    WellFormed { s with feeds := s.feeds.insert u feed } ∧
      s.Anchored { s with feeds := s.feeds.insert u feed } := by
  refine ⟨⟨hw.limited, ?_, hw.final⟩, ⟨fun hc ↦ ⟨_, hc, rfl⟩, ?_⟩⟩
  · intro v f hf
    rcases Store.lookup_insert_eq_some.mp hf with ⟨rfl, rfl⟩ | ⟨-, hold⟩
    · exact hfeed
    · exact hw.feed hold
  · intro v old hold
    by_cases hv : v = u
    · subst hv
      exact ⟨feed, Finmap.lookup_insert _, hsame old hold⟩
    · exact ⟨old, by rw [Finmap.lookup_insert_of_ne _ hv, hold], rfl⟩

theorem adminFeed_eq_ok {admin : Pubkey} {feed : PriceFeed} (h : adminFeed admin u s = .ok feed) :
    s.feeds.lookup u = some feed ∧ u = feed.underlying := by
  simp only [adminFeed, loadFeed, fromOption_bind_eq_ok, require_bind_eq_ok] at h
  obtain ⟨feed', hlookup, hseeds, h⟩ := h
  obtain ⟨_, -, h⟩ := bind_eq_ok.mp h
  obtain rfl := pure_eq_ok.mp h
  exact ⟨hlookup, hseeds⟩

theorem config_of_adminConfig {admin : Pubkey} (h : adminConfig admin s = .ok c) :
    s.config = some c := by
  simp only [adminConfig, loadConfig, fromOption_bind_eq_ok, require_bind_eq_ok, pure_eq_ok] at h
  obtain ⟨_, hc, -, rfl⟩ := h
  exact hc

/-- **What every instruction keeps.** -/
theorem WellFormed.exec (hw : WellFormed s) {ix : Instruction} (h : exec clock ix s = .ok s') :
    WellFormed s' ∧ s.Anchored s' := by
  -- most of what the administrator changes leaves the program and the limit alone
  have hkept : ∀ {c c'}, s.config = some c → c'.pythReceiverProgram = c.pythReceiverProgram →
      0 < c'.priceDeviationThresholdBps →
        WellFormed { s with config := some c' } ∧ s.Anchored { s with config := some c' } := by
    intro c c' hc heq hlimit
    refine hw.configured hlimit fun c₀ hc₀ ↦ ?_
    rw [heq, Option.some.inj (hc.symm.trans hc₀)]
  cases ix with
  | initializeConfig admin operator pyth staleness confidence deviation =>
    simp only [Oracle.exec, initializeConfig, require_bind_eq_ok, pure_eq_ok] at h
    obtain ⟨hnone, -, hlimit, rfl⟩ := h
    exact hw.configured hlimit fun c hc ↦ absurd (hnone.symm.trans hc) (by simp)
  | registerFeed admin underlying feedId =>
    obtain ⟨hnew, h⟩ := require_bind_eq_ok.mp h
    obtain ⟨_, -, h⟩ := bind_eq_ok.mp h
    obtain rfl := pure_eq_ok.mp h
    exact hw.registered rfl fun old hold ↦ absurd (hnew.symm.trans hold) (by simp)
  | deregisterFeed admin underlying =>
    obtain ⟨feed, hfeed, h⟩ := bind_eq_ok.mp h
    obtain ⟨hlookup, hseeds⟩ := adminFeed_eq_ok hfeed
    obtain ⟨-, h⟩ := require_bind_eq_ok.mp h
    obtain rfl := pure_eq_ok.mp h
    refine hw.registered hseeds.symm fun old hold ↦ ?_
    rw [Option.some.inj (hold.symm.trans hlookup)]
  | setFeedActive admin underlying active =>
    obtain ⟨feed, hfeed, h⟩ := bind_eq_ok.mp h
    obtain ⟨hlookup, hseeds⟩ := adminFeed_eq_ok hfeed
    obtain rfl := pure_eq_ok.mp h
    refine hw.registered hseeds.symm fun old hold ↦ ?_
    rw [Option.some.inj (hold.symm.trans hlookup)]
  | setExpiryPrice ctx =>
    obtain ⟨config, feed, pyth, he⟩ := setExpiryPrice_effect h
    rw [he.state_eq]
    refine ⟨⟨hw.limited, hw.feed, ?_⟩, ⟨fun hc ↦ ⟨_, hc, rfl⟩, fun hf ↦ ⟨_, hf, rfl⟩⟩⟩
    intro k ep hep
    rcases Store.lookup_insert_eq_some.mp hep with ⟨-, rfl⟩ | ⟨-, hold⟩
    · rfl
    · exact hw.final hold
  | setOperator admin operator =>
    obtain ⟨c, hadmin, h⟩ := bind_eq_ok.mp h
    have hc := config_of_adminConfig hadmin
    have hlimit := hw.limited hc
    obtain ⟨-, h⟩ := require_bind_eq_ok.mp h
    obtain rfl := pure_eq_ok.mp h
    exact hkept hc rfl hlimit
  | setPriceDeviationThreshold admin threshold =>
    obtain ⟨c, hadmin, h⟩ := bind_eq_ok.mp h
    have hc := config_of_adminConfig hadmin
    obtain ⟨hlimit, h⟩ := require_bind_eq_ok.mp h
    obtain rfl := pure_eq_ok.mp h
    exact hkept hc rfl hlimit
  | setMaxStaleness admin staleness | setMaxConfidence admin confidence =>
    obtain ⟨c, hadmin, h⟩ := bind_eq_ok.mp h
    have hc := config_of_adminConfig hadmin
    have hlimit := hw.limited hc
    obtain rfl := pure_eq_ok.mp h
    exact hkept hc rfl hlimit
  | transferOwnership admin newAdmin =>
    obtain ⟨c, hadmin, h⟩ := bind_eq_ok.mp h
    have hc := config_of_adminConfig hadmin
    have hlimit := hw.limited hc
    obtain ⟨-, h⟩ := require_bind_eq_ok.mp h
    obtain rfl := pure_eq_ok.mp h
    exact hkept hc rfl hlimit
  | acceptOwnership newAdmin =>
    simp only [Oracle.exec, acceptOwnership, loadConfig, fromOption_bind_eq_ok, require_bind_eq_ok,
      pure_eq_ok] at h
    obtain ⟨c, hc, -, rfl⟩ := h
    have hlimit := hw.limited hc
    exact hkept hc rfl hlimit

/-! ### The two prices -/

theorem WellFormed.getExpiryPrice_eq_ok (hw : WellFormed s) :
    getExpiryPrice k s = .ok p ↔ ∃ ep, s.expiryPrices.lookup k = some ep ∧ ep.price = p := by
  simp only [getExpiryPrice, fromOption_bind_eq_ok, require_bind_eq_ok, pure_eq_ok]
  constructor
  · rintro ⟨ep, hep, -, hp⟩
    exact ⟨ep, hep, hp⟩
  · rintro ⟨ep, hep, hp⟩
    exact ⟨ep, hep, hw.final hep, hp⟩

theorem WellFormed.unanswered_iff (hw : WellFormed s) :
    s.expiryPrices.lookup k = none ↔ ∀ p, getExpiryPrice k s ≠ .ok p := by
  constructor
  · intro hnone p hp
    obtain ⟨ep, hep, -⟩ := hw.getExpiryPrice_eq_ok.mp hp
    exact nomatch hnone.symm.trans hep
  · intro h
    by_contra hsome
    obtain ⟨ep, hep⟩ := Option.ne_none_iff_exists'.mp hsome
    exact h ep.price (hw.getExpiryPrice_eq_ok.mpr ⟨ep, hep, rfl⟩)

theorem WellFormed.getPrice_eq_ok (hw : WellFormed s) {account : AccountInfo} :
    getPrice u account clock s = .ok p ↔
      ∃ c feed pyth, s.config = some c ∧ s.feeds.lookup u = some feed ∧ feed.active = true ∧
        parsePythPriceUpdate account c.pythReceiverProgram feed.pythFeedId = .ok pyth ∧
        validateStaleness clock pyth.publishTime c.maxStalenessSecs = .ok () ∧
        validateConfidence pyth.price pyth.conf c.maxConfidenceBps = .ok () ∧
        normalizeTo8Decimals pyth.price pyth.exponent = .ok p := by
  simp only [getPrice, loadConfig, loadFeed, fromOption_bind_eq_ok, require_bind_eq_ok]
  constructor
  · rintro ⟨c, hc, feed, hfeed, -, hactive, h⟩
    obtain ⟨pyth, hpyth, h⟩ := bind_eq_ok.mp h
    obtain ⟨_, hstale, h⟩ := bind_eq_ok.mp h
    obtain ⟨_, hconf, h⟩ := bind_eq_ok.mp h
    exact ⟨c, feed, pyth, hc, hfeed, hactive, hpyth, hstale, hconf, h⟩
  · rintro ⟨c, feed, pyth, hc, hfeed, hactive, hpyth, hstale, hconf, h⟩
    refine ⟨c, hc, feed, hfeed, (hw.feed hfeed).symm, hactive, ?_⟩
    exact bind_eq_ok.mpr ⟨pyth, hpyth, bind_eq_ok.mpr ⟨(), hstale, bind_eq_ok.mpr ⟨(), hconf, h⟩⟩⟩

/-- A submission the oracle has to accept: nobody was quicker, one of the two keys made it after the expiry,
and the price of the moment is close to what it says. -/
structure Admissible (clock : ℤ) (s : State) (ctx : SetExpiryPrice) (c : OracleConfig) (reference : ℕ) :
    Prop where
  unanswered : ∀ p, getExpiryPrice ctx.key s ≠ .ok p
  config_eq : s.config = some c
  caller : ctx.caller = c.admin ∨ ctx.caller = c.operator
  price_pos : 0 < ctx.price.toNat
  expired : ctx.expiry.toInt ≤ clock
  reference_eq : getPrice ctx.underlying ctx.pythPriceUpdate clock s = .ok reference
  fits : absDiff ctx.price.toNat reference * 10000 < 2 ^ 64
  close : absDiff ctx.price.toNat reference * 10000 < (c.priceDeviationThresholdBps + 1) * reference

/-- **A submission is accepted exactly where it is close to the price of the moment.** -/
theorem WellFormed.setExpiryPrice_succeeds_iff (hw : WellFormed s) {ctx : SetExpiryPrice} :
    (∃ s', setExpiryPrice ctx clock s = .ok s') ↔ ∃ c reference, Admissible clock s ctx c reference := by
  constructor
  · rintro ⟨s', h⟩
    obtain ⟨c, feed, pyth, he⟩ := setExpiryPrice_effect h
    obtain ⟨reference, hnorm, hdev⟩ := he.deviation
    have hbound := (validatePriceDeviation_eq_ok (reference_pos hdev) (hw.limited he.config_eq)).mp hdev
    refine ⟨c, reference, hw.unanswered_iff.mp he.fresh, he.config_eq, he.caller, he.price_pos, he.expired,
      ?_, hbound.1, hbound.2⟩
    exact hw.getPrice_eq_ok.mpr ⟨c, feed, pyth, he.config_eq, he.feed_eq, he.active, he.pyth_eq,
      he.staleness, he.confidence, hnorm⟩
  · rintro ⟨c, reference, ha⟩
    obtain ⟨c', feed, pyth, hc', hfeed, hactive, hpyth, hstale, hconf, hnorm⟩ :=
      hw.getPrice_eq_ok.mp ha.reference_eq
    obtain rfl := Option.some.inj (ha.config_eq.symm.trans hc')
    -- a reference of zero leaves no room below the limit
    have hreference : 0 < reference := by
      refine Nat.pos_of_ne_zero fun hzero ↦ ?_
      have hclose := ha.close
      rw [hzero, Nat.mul_zero] at hclose
      exact absurd hclose (Nat.not_lt_zero _)
    have hlimit := hw.limited ha.config_eq
    have hdev : validatePriceDeviation ctx.price.toNat reference c.priceDeviationThresholdBps = .ok () :=
      (validatePriceDeviation_eq_ok hreference hlimit).mpr ⟨ha.fits, ha.close⟩
    refine ⟨{ s with
      expiryPrices := s.expiryPrices.insert ctx.key
        ⟨ctx.underlying, ctx.expiry.toInt, ctx.price.toNat, true⟩ }, ?_⟩
    simp only [setExpiryPrice, loadConfig, loadFeed, fromOption_bind_eq_ok, require_bind_eq_ok]
    refine ⟨hw.unanswered_iff.mpr ha.unanswered, c, hc', ha.caller, feed, hfeed, ha.price_pos, ha.expired,
      hactive, hlimit, ?_⟩
    exact bind_eq_ok.mpr ⟨pyth, hpyth, bind_eq_ok.mpr ⟨(), hstale, bind_eq_ok.mpr ⟨(), hconf,
      bind_eq_ok.mpr ⟨reference, hnorm, bind_eq_ok.mpr ⟨(), hdev, rfl⟩⟩⟩⟩⟩

end Oracle

/-! ## Runs -/

namespace Protocol

open OtokenFactory (SeriesAddresses)

variable {D : Deployment} {T : TokenProgram} {A : SeriesAddresses D} {s s' s₀ : State} {l : Label}
  {tr : List (Transition State Label)} {k : Oracle.PriceKey} {p : ℕ}

theorem Step.oracle_kept (hw : Oracle.WellFormed s.oracle) (h : Step D T A s l s') :
    Oracle.WellFormed s'.oracle ∧ s.oracle.Anchored s'.oracle := by
  cases h with
  | oracle h => exact hw.exec h
  | _ => exact ⟨hw, .refl _⟩

theorem oracle_wellFormed (hrun : Run (Step D T A) s₀ tr s) (h₀ : Initial D s₀) :
    Oracle.WellFormed s.oracle := by
  refine Run.invariant (I := fun s ↦ Oracle.WellFormed s.oracle) ?_
    (fun _ _ _ hw hs ↦ (hs.oracle_kept hw).1) hrun
  show Oracle.WellFormed s₀.oracle
  rw [h₀.oracle]
  exact Oracle.wellFormed_empty

theorem anchored_of_run (hrun : Run (Step D T A) s tr s') (hw : Oracle.WellFormed s.oracle) :
    s.oracle.Anchored s'.oracle := by
  have hboth : Oracle.WellFormed s'.oracle ∧ s.oracle.Anchored s'.oracle := by
    refine Run.invariant (I := fun u ↦ Oracle.WellFormed u.oracle ∧ s.oracle.Anchored u.oracle)
      ⟨hw, .refl _⟩ ?_ hrun
    intro u m u' hu hs
    obtain ⟨hw', ha⟩ := hs.oracle_kept hu.1
    exact ⟨hw', hu.2.trans ha⟩
  exact hboth.2

theorem Step.submission {ctx : Oracle.SetExpiryPrice}
    (h : Step D T A s (.oracle (.setExpiryPrice ctx)) s') :
    ∃ c feed pyth, Oracle.SetExpiryPrice.Effect s.controller.clock s.oracle ctx c feed pyth s'.oracle := by
  cases h with
  | oracle h => exact Oracle.setExpiryPrice_effect h

/-- The price is submitted for the seeds. -/
def Label.SubmitsPrice (k : Oracle.PriceKey) (p : ℕ) (l : Label) : Prop :=
  ∃ ctx, l = .oracle (.setExpiryPrice ctx) ∧ ctx.key = k ∧ ctx.price.toNat = p

theorem Step.answers (hw : Oracle.WellFormed s.oracle) (h : Step D T A s l s')
    (hl : l.SubmitsPrice k p) : Oracle.getExpiryPrice k s'.oracle = .ok p := by
  have hw' := (h.oracle_kept hw).1
  obtain ⟨ctx, rfl, rfl, rfl⟩ := hl
  obtain ⟨config, feed, pyth, he⟩ := h.submission
  refine hw'.getExpiryPrice_eq_ok.mpr
    ⟨⟨ctx.underlying, ctx.expiry.toInt, ctx.price.toNat, true⟩, ?_, rfl⟩
  rw [he.state_eq, Finmap.lookup_insert]

theorem Step.submitted (hw : Oracle.WellFormed s.oracle) (h : Step D T A s l s')
    (hnot : Oracle.getExpiryPrice k s.oracle ≠ .ok p) (hp : Oracle.getExpiryPrice k s'.oracle = .ok p) :
    l.SubmitsPrice k p := by
  have hw' := (h.oracle_kept hw).1
  cases h with
  | @oracle ix o h =>
    obtain ⟨ep, hep, rfl⟩ := hw'.getExpiryPrice_eq_ok.mp hp
    have hold : s.oracle.expiryPrices.lookup k ≠ some ep := by
      intro hep
      exact hnot (hw.getExpiryPrice_eq_ok.mpr ⟨ep, hep, rfl⟩)
    rcases Oracle.expiryPrices_of_exec h with heq | ⟨ctx, config, feed, pyth, rfl, he⟩
    · exact absurd (heq ▸ hep) hold
    · have hep' : o.expiryPrices.lookup k = some ep := hep
      rw [he.state_eq] at hep'
      rcases Store.lookup_insert_eq_some.mp hep' with ⟨rfl, rfl⟩ | ⟨-, hep⟩
      · exact ⟨ctx, rfl, rfl, rfl⟩
      · exact absurd hep hold
  | _ => exact absurd hp hnot

theorem answer_of_run (hrun : Run (Step D T A) s tr s') (hw : Oracle.WellFormed s.oracle)
    (hf : OtokenFactory.WellFormed A s.factory) (hp : Oracle.getExpiryPrice k s.oracle = .ok p) :
    Oracle.getExpiryPrice k s'.oracle = .ok p := by
  obtain ⟨ep, hep, rfl⟩ := hw.getExpiryPrice_eq_ok.mp hp
  have hw' : Oracle.WellFormed s'.oracle :=
    Run.invariant (I := fun s ↦ Oracle.WellFormed s.oracle) hw
      (fun _ _ _ hw hs ↦ (hs.oracle_kept hw).1) hrun
  exact hw'.getExpiryPrice_eq_ok.mpr ⟨ep, (later_of_run hrun hf).price hep, rfl⟩

/-- **What the oracle answers.** In every reachable state it answers for an underlying and an expiry what was
submitted for them in the run, and keeps to it for good; it accepts exactly the submissions that are
admissible, close to its own price of the moment; and every account a price was ever accepted against
would still be read, as one of the program and the feed it knows today. -/
theorem oracle_answers (hrun : Run (Step D T A) s₀ tr s) (h₀ : Initial D s₀) :
    (∀ k p, Oracle.getExpiryPrice k s.oracle = .ok p ↔ ∃ t ∈ tr, t.label.SubmitsPrice k p) ∧
    (∀ k p tr' s', Oracle.getExpiryPrice k s.oracle = .ok p → Run (Step D T A) s tr' s' →
      Oracle.getExpiryPrice k s'.oracle = .ok p) ∧
    (∀ ctx, (∃ o, Oracle.setExpiryPrice ctx s.controller.clock s.oracle = .ok o) ↔
      ∃ c reference, Oracle.Admissible s.controller.clock s.oracle ctx c reference) ∧
    ∀ t ∈ tr, ∀ ctx, t.label = .oracle (.setExpiryPrice ctx) →
      ∃ c feed pyth, s.oracle.config = some c ∧ s.oracle.feeds.lookup ctx.underlying = some feed ∧
        Oracle.parsePythPriceUpdate ctx.pythPriceUpdate c.pythReceiverProgram feed.pythFeedId
          = .ok pyth := by
  have hw := oracle_wellFormed hrun h₀
  refine ⟨fun k p ↦ ⟨fun hp ↦ ?_, ?_⟩, ?_, fun ctx ↦ hw.setExpiryPrice_succeeds_iff, ?_⟩
  · -- an answer has an origin, since there was none at first
    have hnone : Oracle.getExpiryPrice k s₀.oracle ≠ .ok p := by
      rw [h₀.oracle]
      exact Oracle.wellFormed_empty.unanswered_iff.mp rfl p
    obtain ⟨as, t, bs, rfl, hpre, hpost⟩ := hrun.exists_origin
      (P := fun s ↦ Oracle.getExpiryPrice k s.oracle = .ok p) hnone hp
    obtain ⟨hbefore, hstep, -⟩ := hrun.split
    exact ⟨t, by simp, hstep.submitted (oracle_wellFormed hbefore h₀) hpre hpost⟩
  · rintro ⟨t, ht, hl⟩
    obtain ⟨as, bs, rfl⟩ := List.append_of_mem ht
    obtain ⟨hbefore, hstep, hafter⟩ := hrun.split
    have hupto : Run (Step D T A) s₀ (as ++ [t]) t.post := hbefore.snoc hstep
    have hp := hstep.answers (oracle_wellFormed hbefore h₀) hl
    exact answer_of_run hafter (oracle_wellFormed hupto h₀) (factory_wellFormed hupto h₀) hp
  · intro k p tr' s' hp hrun'
    exact answer_of_run hrun' hw (factory_wellFormed hrun h₀) hp
  · intro t ht ctx hl
    obtain ⟨as, bs, rfl⟩ := List.append_of_mem ht
    obtain ⟨hbefore, hstep, hafter⟩ := hrun.split
    have hwpre := oracle_wellFormed hbefore h₀
    have hanchored : t.pre.oracle.Anchored s.oracle := by
      have hkept := hstep.oracle_kept hwpre
      exact hkept.2.trans (anchored_of_run hafter hkept.1)
    rw [hl] at hstep
    obtain ⟨c, feed, pyth, he⟩ := hstep.submission
    obtain ⟨c', hc', hreceiver⟩ := hanchored.receiver he.config_eq
    obtain ⟨feed', hfeed', hid⟩ := hanchored.feed he.feed_eq
    exact ⟨c', feed', pyth, hc', hfeed', by rw [hreceiver, hid, he.pyth_eq]⟩

/-- The price of the sample series is answered, and nobody can submit another. -/
theorem oracle_answers_sample :
    Oracle.getExpiryPrice ⟨10, 100⟩ (sampleRun (sampleSetup ++ samplePricing)).oracle = .ok 700000000 ∧
      ¬∃ o, Oracle.setExpiryPrice (Oracle.sampleSetExpiryPrice 130)
        (sampleRun (sampleSetup ++ samplePricing)).controller.clock
        (sampleRun (sampleSetup ++ samplePricing)).oracle = .ok o := by
  have hrun : Run (Step sampleDeployment splToken sampleAddresses) sampleState
      (sampleTrace (sampleSetup ++ samplePricing)) (sampleRun (sampleSetup ++ samplePricing)) :=
    sampleRun_run (by decide +kernel) (by decide +kernel)
  obtain ⟨-, -, haccepts, -⟩ := oracle_answers hrun sampleState_initial
  have hanswer : Oracle.getExpiryPrice ⟨10, 100⟩
      (sampleRun (sampleSetup ++ samplePricing)).oracle = .ok 700000000 := by
    decide +kernel
  refine ⟨hanswer, ?_⟩
  rw [haccepts]
  rintro ⟨c, reference, ha⟩
  exact ha.unanswered _ hanswer

end Protocol

end OptionsProtocol
