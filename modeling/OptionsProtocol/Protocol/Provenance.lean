import OptionsProtocol.Controller.Payouts
import OptionsProtocol.Oracle.Limits
import OptionsProtocol.Protocol.Mirror
import OptionsProtocol.Protocol.Phases

/-!
# Where prices and payouts come from

Everything the protocol pays is computed from a price somebody submitted. Followed backwards through a
run, the price of a series was copied from the oracle by the controller's administrator, and put there
in exactly one earlier transition, by the administrator or the operator the oracle had at the time,
against an observation of the feed registered for the underlying. Followed forwards, it is the price of
every payout the controller ever reports, on the terms the factory recorded.
-/

namespace OptionsProtocol

/-! ## Who signed -/

theorem Oracle.setExpiryPrice_threshold {ctx : Oracle.SetExpiryPrice} {clock : ℤ} {s s' : Oracle.State}
    {config : Oracle.OracleConfig} (h : Oracle.setExpiryPrice ctx clock s = .ok s')
    (hconfig : s.config = some config) : 0 < config.priceDeviationThresholdBps := by
  simp only [Oracle.setExpiryPrice, Oracle.loadConfig, Oracle.loadFeed, Except.fromOption_bind_eq_ok,
    Except.require_bind_eq_ok] at h
  obtain ⟨-, config', hconfig', -, _, -, -, -, -, hpos, -⟩ := h
  obtain rfl := Option.some.inj (hconfig.symm.trans hconfig')
  exact hpos

theorem Controller.setExpiryPrice_admin {ctx : Controller.SetExpiryPrice} {s s' : Controller.State}
    (h : Controller.setExpiryPrice ctx s = .ok s') :
    ∃ config, s.config = some config ∧ config.admin = ctx.admin := by
  simp only [Controller.setExpiryPrice, Controller.loadConfig, Controller.loadOtokenInfo,
    Except.fromOption_bind_eq_ok, Except.require_bind_eq_ok] at h
  obtain ⟨config, hconfig, _, -, hadmin, -⟩ := h
  exact ⟨config, hconfig, hadmin⟩

theorem Oracle.parse_owner {account : Oracle.AccountInfo} {owner : Pubkey} {feedId : Vector UInt8 32}
    {pyth : Oracle.PythPriceData} (h : Oracle.parsePythPriceUpdate account owner feedId = .ok pyth) :
    account.owner = owner := by
  rw [Oracle.parsePythPriceUpdate, Except.require_bind_eq_ok] at h
  exact h.1

theorem Oracle.reference_pos {submitted reference t : ℕ} {u : Unit}
    (h : Oracle.validatePriceDeviation submitted reference t = .ok u) : 0 < reference := by
  rw [Oracle.validatePriceDeviation, Except.require_bind_eq_ok] at h
  exact h.1

namespace Protocol

open OtokenFactory (SeriesAddresses)

variable {D : Deployment} {T : TokenProgram} {A : SeriesAddresses D} {s s' s₀ : State} {l : Label}
  {tr : List (Transition State Label)} {o : Pubkey} {k : Oracle.PriceKey}
  {info : Controller.OTokenInfo}

/-! ## Submitting and copying -/

/-- A price with these seeds is submitted to the oracle. -/
def Label.Submits (k : Oracle.PriceKey) : Label → Prop
  | .oracle (.setExpiryPrice ctx) => ctx.key = k
  | _ => False

/-- The controller copies the price of the series. -/
def Label.Copies (o : Pubkey) : Label → Prop
  | .controller (.setExpiryPrice ctx) => ctx.otokenInfo = o
  | _ => False

/-- The series has a price. -/
def State.HasPrice (o : Pubkey) (s : State) : Prop :=
  ∃ info, s.controller.otokenInfos.lookup o = some info ∧ 0 < info.expiryPrice

/-- A submission the oracle accepted for the series: who made it, against which observation of which
feed, and how far from the observed price it was at most. -/
structure Accepted (t : Transition State Label) (info : Controller.OTokenInfo)
    (ctx : Oracle.SetExpiryPrice) (config : Oracle.OracleConfig) (feed : Oracle.PriceFeed)
    (pyth : Oracle.PythPriceData) (reference : ℕ) : Prop where
  label_eq : t.label = .oracle (.setExpiryPrice ctx)
  key_eq : ctx.key = info.priceKey
  price_eq : ctx.price.toNat = info.expiryPrice
  expired : info.expiry ≤ t.pre.controller.clock
  config_eq : t.pre.oracle.config = some config
  caller : ctx.caller = config.admin ∨ ctx.caller = config.operator
  feed_eq : t.pre.oracle.feeds.lookup info.underlying = some feed
  active : feed.active = true
  owner_eq : ctx.pythPriceUpdate.owner = config.pythReceiverProgram
  parse_eq : Oracle.parsePythPriceUpdate ctx.pythPriceUpdate config.pythReceiverProgram feed.pythFeedId
    = .ok pyth
  staleness : Oracle.validateStaleness t.pre.controller.clock pyth.publishTime config.maxStalenessSecs
    = .ok ()
  confidence : Oracle.validateConfidence pyth.price pyth.conf config.maxConfidenceBps = .ok ()
  normalize_eq : Oracle.normalizeTo8Decimals pyth.price pyth.exponent = .ok reference
  deviation : Oracle.absDiff info.expiryPrice reference * 10000
    < (config.priceDeviationThresholdBps + 1) * reference

/-- The controller's administrator copied the price the oracle held for the series. -/
structure Copied (t : Transition State Label) (o : Pubkey) (info : Controller.OTokenInfo)
    (ctx : Controller.SetExpiryPrice) (config : Controller.ControllerConfig) : Prop where
  label_eq : t.label = .controller (.setExpiryPrice ctx)
  series_eq : ctx.otokenInfo = o
  config_eq : t.pre.controller.config = some config
  admin_eq : config.admin = ctx.admin
  read_eq : t.pre.oracle.expiryPrices.lookup info.priceKey =
    some ⟨info.underlying, info.expiry, info.expiryPrice, true⟩
  unpriced : t.pre.controller.otokenInfos.lookup o = some { info with expiryPrice := 0 }
  priced : t.post.controller.otokenInfos.lookup o = some info

theorem Step.submits (h : Step D T A s l s') (hl : l.Submits k) :
    ¬(∃ ep, s.oracle.expiryPrices.lookup k = some ep) ∧
      ∃ ep, s'.oracle.expiryPrices.lookup k = some ep := by
  cases h with
  | @oracle ix _ h =>
    cases ix with
    | setExpiryPrice ctx =>
      obtain ⟨config, feed, pyth, he⟩ := Oracle.setExpiryPrice_effect h
      have hkey : ctx.key = k := hl
      refine ⟨?_, _, by rw [he.state_eq, hkey, Finmap.lookup_insert]⟩
      rintro ⟨ep, hep⟩
      rw [← hkey, he.fresh] at hep
      cases hep
    | _ => exact absurd hl id
  | _ => exact absurd hl id

theorem Step.copies (h : Step D T A s l s') (hl : l.Copies o) :
    ¬s.HasPrice o ∧ s'.HasPrice o := by
  cases h with
  | @controller ix _ _ _ h =>
    cases ix with
    | setExpiryPrice ctx =>
      obtain ⟨i, he⟩ := Controller.setExpiryPrice_effect h
      have hseries : ctx.otokenInfo = o := hl
      constructor
      · rintro ⟨i', hi', hpos⟩
        rw [← hseries, he.info_eq, Option.some.injEq] at hi'
        rw [← hi', he.unpriced] at hpos
        exact lt_irrefl _ hpos
      · refine ⟨{ i with expiryPrice := ctx.oracleExpiryPrice.price }, ?_, he.price_pos⟩
        show Finmap.lookup o _ = _
        rw [he.state_eq, hseries, Finmap.lookup_insert]
    | _ => exact absurd hl id
  | _ => exact absurd hl id

/-- **Where a price of the oracle comes from.** -/
theorem Step.accepted (h : Step D T A s l s')
    (hnot : s.oracle.expiryPrices.lookup info.priceKey ≠
      some ⟨info.underlying, info.expiry, info.expiryPrice, true⟩)
    (hep : s'.oracle.expiryPrices.lookup info.priceKey =
      some ⟨info.underlying, info.expiry, info.expiryPrice, true⟩) :
    ∃ ctx config feed pyth reference, Accepted ⟨s, l, s'⟩ info ctx config feed pyth reference := by
  cases h with
  | @oracle ix _ h =>
    rcases Oracle.expiryPrices_of_exec h with heq | ⟨ctx, config, feed, pyth, rfl, he⟩
    · exact absurd (heq ▸ hep) hnot
    · rw [he.state_eq] at hep
      rcases Store.lookup_insert_eq_some.mp hep with ⟨hkey, hrecord⟩ | ⟨-, hold⟩
      · obtain ⟨reference, hnorm, hdev⟩ := he.deviation
        obtain ⟨hunderlying, -, hprice, -⟩ := Oracle.ExpiryPrice.mk.inj hrecord
        have hexpiry : ctx.expiry.toInt = info.expiry := congrArg Oracle.PriceKey.expiry hkey.symm
        have hthreshold := Oracle.setExpiryPrice_threshold h he.config_eq
        have hbound := (Oracle.validatePriceDeviation_eq_ok (Oracle.reference_pos hdev) hthreshold).mp
          hdev
        exact ⟨ctx, config, feed, pyth, reference, rfl, hkey.symm, hprice.symm, hexpiry ▸ he.expired,
          he.config_eq, he.caller, hunderlying ▸ he.feed_eq, he.active, Oracle.parse_owner he.pyth_eq,
          he.pyth_eq, he.staleness, he.confidence, hnorm, hprice ▸ hbound.2⟩
      · exact absurd hold hnot
  | _ => exact absurd hep hnot

/-- **Where the price of a series comes from.** -/
theorem Step.copied (hf : OtokenFactory.WellFormed A s.factory) (hp : Priced s)
    (h : Step D T A s l s') (hnot : s.controller.otokenInfos.lookup o ≠ some info)
    (hi : s'.controller.otokenInfos.lookup o = some info) (hset : info.expiryPrice ≠ 0) :
    ∃ ctx config, Copied ⟨s, l, s'⟩ o info ctx config := by
  have hseen := h.seen hf
  cases hl : l.seen A with
  | none =>
    rw [hl, Option.elim_none] at hseen
    exact absurd (hseen ▸ hi) hnot
  | some m =>
    rw [hl, Option.elim_some] at hseen
    rcases hseen.move.info_cases hi with hi | ⟨ctx, -, -, he⟩ | ⟨ctx, info₀, rfl, rfl, he, rfl⟩
    · exact absurd hi hnot
    · exact absurd he.unpriced hset
    · obtain rfl : l = .controller (.setExpiryPrice ctx) := Label.eq_of_seen hl
      have hread := h.read_price he.info_eq
      obtain ⟨heq, -, -⟩ := hp.oracle hread
      rw [heq] at hread
      have hunpriced : ({ info₀ with expiryPrice := 0 } : Controller.OTokenInfo) = info₀ := by
        rw [← he.unpriced]
      cases h with
      | controller _ _ h =>
        obtain ⟨config, hconfig, hadmin⟩ := Controller.setExpiryPrice_admin h
        refine ⟨ctx, config, rfl, rfl, hconfig, hadmin, hread, ?_, hi⟩
        simp only [hunpriced, he.info_eq]

/-- What can only be done as long as something does not persist, is done once in a run. -/
theorem once_of_run {P : State → Prop} {Q : Label → Prop} (hkeep : ∀ s s', s.Later s' → P s → P s')
    (hfirst : ∀ s l s', Step D T A s l s' → Q l → ¬P s ∧ P s') {as bs : List (Transition State Label)}
    {t : Transition State Label} (hrun : Run (Step D T A) s₀ (as ++ t :: bs) s) (h₀ : Initial D s₀)
    (ht : Q t.label) : ∀ u ∈ as ++ bs, ¬Q u.label :=
  Run.once (I := fun s ↦ OtokenFactory.WellFormed A s.factory) h₀.factory.wellFormed
    (fun _ _ _ hf hs ↦ hs.factory_wellFormed hf) (fun _ _ _ hf hs ↦ hkeep _ _ (hs.later hf))
    (fun _ _ _ _ hs ↦ hfirst _ _ _ hs) hrun ht

theorem accepted_of_run (hrun : Run (Step D T A) s₀ tr s) (h₀ : Initial D s₀)
    (hep : s.oracle.expiryPrices.lookup info.priceKey =
      some ⟨info.underlying, info.expiry, info.expiryPrice, true⟩) :
    ∃ as t bs, tr = as ++ t :: bs ∧
      ∃ ctx config feed pyth reference, Accepted t info ctx config feed pyth reference := by
  have hempty : ¬s₀.oracle.expiryPrices.lookup info.priceKey =
      some ⟨info.underlying, info.expiry, info.expiryPrice, true⟩ := by
    rw [h₀.oracle, Finmap.lookup_empty]
    simp
  obtain ⟨as, t, bs, rfl, hpre, hpost⟩ := hrun.exists_origin
    (P := fun s ↦ s.oracle.expiryPrices.lookup info.priceKey =
      some ⟨info.underlying, info.expiry, info.expiryPrice, true⟩) hempty hep
  exact ⟨as, t, bs, rfl, hrun.split.2.1.accepted hpre hpost⟩

/-- **Every settlement price is a submitted one.** In a run that ends with a price for a series, that price
was submitted to the oracle after the expiry, by its administrator or operator, within the deviation
allowed from an observation of the active feed of the underlying; and copied later on by the
controller's administrator. Nobody else submitted a price for this underlying and expiry, and nobody
else gave the series one. -/
theorem price_provenance (hrun : Run (Step D T A) s₀ tr s) (h₀ : Initial D s₀)
    (hi : s.controller.otokenInfos.lookup o = some info) (hset : info.expiryPrice ≠ 0) :
    ∃ as t bs u cs, tr = as ++ t :: (bs ++ u :: cs) ∧
      (∃ ctx config feed pyth reference, Accepted t info ctx config feed pyth reference) ∧
      (∃ ctx config, Copied u o info ctx config) ∧
      (∀ v ∈ as ++ (bs ++ u :: cs), ¬v.label.Submits info.priceKey) ∧
      ∀ v ∈ as ++ t :: bs ++ cs, ¬v.label.Copies o := by
  have hnone : ¬s₀.controller.otokenInfos.lookup o = some info := by
    rw [h₀.controller.otokenInfos, Finmap.lookup_empty]
    simp
  obtain ⟨es, u, cs, rfl, hpre, hpost⟩ := hrun.exists_origin
    (P := fun s ↦ s.controller.otokenInfos.lookup o = some info) hnone hi
  obtain ⟨hbefore, hstep, -⟩ := hrun.split
  obtain ⟨ctx, config, hcopied⟩ :=
    hstep.copied (factory_wellFormed hbefore h₀) (priced_of_run hbefore h₀) hpre hpost hset
  obtain ⟨as, t, bs, rfl, haccepted⟩ := accepted_of_run hbefore h₀ hcopied.read_eq
  refine ⟨as, t, bs, u, cs, by simp, haccepted, ⟨ctx, config, hcopied⟩, ?_, ?_⟩
  · rw [List.append_assoc, List.cons_append] at hrun
    refine once_of_run (P := fun s ↦ ∃ ep, s.oracle.expiryPrices.lookup info.priceKey = some ep)
      (Q := Label.Submits info.priceKey) (fun _ _ hlater ⟨ep, hep⟩ ↦ ⟨ep, hlater.price hep⟩)
      (fun _ _ _ hs hl ↦ hs.submits hl) hrun h₀ ?_
    obtain ⟨ctx', _, _, _, _, ha⟩ := haccepted
    have hlabel : t.label = .oracle (.setExpiryPrice ctx') := ha.label_eq
    rw [hlabel]
    exact ha.key_eq
  · refine once_of_run (P := State.HasPrice o) (Q := Label.Copies o) (fun _ _ hlater hp ↦ ?_)
      (fun _ _ _ hs hl ↦ hs.copies hl) hrun h₀ ?_
    · obtain ⟨i, hi, hpos⟩ := hp
      obtain ⟨i', hi', hl⟩ := hlater.info hi
      rw [hl.eq_of_priced hpos] at hi'
      exact ⟨i, hi', hpos⟩
    · have hlabel : u.label = .controller (.setExpiryPrice ctx) := hcopied.label_eq
      rw [hlabel]
      exact hcopied.series_eq

theorem price_provenance_sample : ∃ as t bs u cs,
    sampleTrace (sampleSetup ++ samplePricing) = as ++ t :: (bs ++ u :: cs) ∧
      t.label.Submits ⟨10, 100⟩ ∧ u.label.Copies 20 ∧
      ∀ v ∈ as ++ (bs ++ u :: cs), ¬v.label.Submits ⟨10, 100⟩ := by
  have hrun : Run (Step sampleDeployment splToken sampleAddresses) sampleState
      (sampleTrace (sampleSetup ++ samplePricing)) (sampleRun (sampleSetup ++ samplePricing)) :=
    sampleRun_run (by decide +kernel) (by decide +kernel)
  have hi : (sampleRun (sampleSetup ++ samplePricing)).controller.otokenInfos.lookup 20 =
      some ⟨20, 10, 15, 10, 5, 100, false, 6, 700000000⟩ := by decide +kernel
  obtain ⟨as, t, bs, u, cs, htr, ⟨ctx, _, _, _, _, ha⟩, ⟨ctx', _, hc⟩, honly, -⟩ :=
    price_provenance hrun sampleState_initial hi (by decide)
  have ht : t.label = .oracle (.setExpiryPrice ctx) := ha.label_eq
  have hu : u.label = .controller (.setExpiryPrice ctx') := hc.label_eq
  refine ⟨as, t, bs, u, cs, htr, ?_, ?_, honly⟩
  · rw [ht]
    exact ha.key_eq
  · rw [hu]
    exact hc.series_eq

/-! ## Payouts -/

/-- What a payout for the series rests on: the terms the factory recorded, which the whitelist approved,
and a price the oracle accepted in the run. -/
structure Traced (tr : List (Transition State Label)) (s : State) (o : Pubkey)
    (info : Controller.OTokenInfo) : Prop where
  mirrors : Mirrors s o info
  price_eq : s.oracle.expiryPrices.lookup info.priceKey =
    some ⟨info.underlying, info.expiry, info.expiryPrice, true⟩
  accepted : ∃ t ∈ tr, ∃ ctx config feed pyth reference,
    Accepted t info ctx config feed pyth reference
  expired : info.expiry ≤ s.controller.clock

theorem traced_of_pays (hrun : Run (Step D T A) s₀ tr s) (h₀ : Initial D s₀)
    (hp : s.controller.Pays o info) : Traced tr s o info := by
  have hep := (priced_of_run hrun h₀).copied hp.info_eq hp.priced.ne'
  obtain ⟨as, t, bs, htr, haccepted⟩ := accepted_of_run hrun h₀ hep
  exact ⟨mirrored_of_run hrun h₀ o info hp.info_eq, hep, ⟨t, by simp [htr], haccepted⟩, hp.expired⟩

/-- **Every payout is traceable.** Whatever the events of a run say was paid for oTokens or kept back from a
vault, is the payout of that many oTokens on the terms the factory recorded for the series, which is
whitelisted, at the price the oracle accepted for its underlying and expiry; and what an
event says was returned of a vault's collateral is all the rest of it. -/
theorem payouts_traceable (hrun : Run (Step D T A) s₀ tr s) (h₀ : Initial D s₀) :
    (∀ o redeemer n p, .redeemed o redeemer n p ∈ s.controller.log →
      ∃ info, Traced tr s o info ∧ p = Controller.payoutOf info.strikePrice info.expiryPrice info.isPut
        info.collateralDecimals n) ∧
    ∀ owner id r p, .vaultSettled owner id r p ∈ s.controller.log →
      ∃ v info, s.controller.vaults.lookup ⟨owner, id⟩ = some v ∧ v.settled = true ∧
        Traced tr s v.otokenMint info ∧ p = Controller.payoutOf info.strikePrice info.expiryPrice
          info.isPut info.collateralDecimals v.shortAmount ∧ r + p = v.collateralAmount := by
  have hjustified : ∀ e ∈ s.controller.log, s.controller.Justifies e :=
    controller_invariant (I := fun c ↦ ∀ e ∈ c.log, c.Justifies e) h₀
      (by simp [h₀.controller.log]) (fun _ _ _ hI hm ↦ hm.log_justified hI) hrun
  constructor
  · intro o redeemer n p he
    obtain ⟨info, hp, heq⟩ := hjustified _ he
    exact ⟨info, traced_of_pays hrun h₀ hp, heq⟩
  · intro owner id r p he
    obtain ⟨v, info, hv, hset, -, hp, heq, hsum⟩ := hjustified _ he
    exact ⟨v, info, hv, hset, traced_of_pays hrun h₀ hp, heq, hsum⟩

/-- The life of the sample series to its end: the vault is settled, and half of the oTokens are redeemed. -/
def samplePaid : List Action :=
  sampleLife ++
    [.controller (.settleVault ⟨⟨1, 0⟩, 20, 12, 10, 11, sampleDeployment.poolVaultAuth 10, 1⟩),
     .controller (.redeem ⟨20, 20, 31, 11, 12, 10, sampleDeployment.poolVaultAuth 10, 1⟩ 100)]

theorem payouts_traceable_sample : ∃ info,
    Traced (sampleTrace samplePaid) (sampleRun samplePaid) 20 info ∧
      1 = Controller.payoutOf info.strikePrice info.expiryPrice info.isPut info.collateralDecimals
        100 := by
  have hrun : Run (Step sampleDeployment splToken sampleAddresses) sampleState
      (sampleTrace samplePaid) (sampleRun samplePaid) :=
    sampleRun_run (by decide +kernel) (by decide +kernel)
  exact (payouts_traceable hrun sampleState_initial).1 20 1 100 1 (by decide +kernel)

end Protocol

end OptionsProtocol
