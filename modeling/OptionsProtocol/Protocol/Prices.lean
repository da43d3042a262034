import OptionsProtocol.Protocol.Machine

/-!
# One price for each underlying and expiry

The controller copies the price of a series from the oracle's account for its underlying and expiry, and
does so once. That account, too, is written once. Series that share an underlying and an expiry are
therefore settled at one price, whenever each of them learns it.
-/

namespace OptionsProtocol

namespace Protocol

open OtokenFactory (SeriesAddresses)

variable {D : Deployment} {T : TokenProgram} {A : SeriesAddresses D} {s s' s₀ : State} {l : Label}
  {tr : List (Transition State Label)}

/-- Prices of the oracle are finalised, positive and past their expiry, and the controller's are copies of
them. -/
structure Priced (s : State) : Prop where
  oracle : ∀ {k ep}, s.oracle.expiryPrices.lookup k = some ep →
    ep = ⟨k.underlying, k.expiry, ep.price, true⟩ ∧ 0 < ep.price ∧ k.expiry ≤ s.controller.clock
  copied : ∀ {o info}, s.controller.otokenInfos.lookup o = some info → info.expiryPrice ≠ 0 →
    s.oracle.expiryPrices.lookup info.priceKey =
      some ⟨info.underlying, info.expiry, info.expiryPrice, true⟩

theorem Initial.priced (h : Initial D s) : Priced s where
  oracle hep := by
    rw [h.oracle, Finmap.lookup_empty] at hep
    exact absurd hep (by simp)
  copied hi := by
    rw [h.controller.otokenInfos, Finmap.lookup_empty] at hi
    exact absurd hi (by simp)

theorem Step.read_price {ctx : Controller.SetExpiryPrice} {info : Controller.OTokenInfo}
    (h : Step D T A s (.controller (.setExpiryPrice ctx)) s')
    (hi : s.controller.otokenInfos.lookup ctx.otokenInfo = some info) :
    s.oracle.expiryPrices.lookup info.priceKey = some ctx.oracleExpiryPrice := by
  cases h with
  | controller _ hreads _ => exact hreads info hi

theorem Step.priced (hf : OtokenFactory.WellFormed A s.factory) (hp : Priced s)
    (h : Step D T A s l s') : Priced s' := by
  have hlater := h.later hf
  constructor
  · intro k ep hep
    -- only the oracle writes prices
    have hold : s.oracle.expiryPrices.lookup k = some ep →
        ep = ⟨k.underlying, k.expiry, ep.price, true⟩ ∧ 0 < ep.price ∧
          k.expiry ≤ s'.controller.clock := by
      intro hep
      obtain ⟨heq, hpos, hexpired⟩ := hp.oracle hep
      exact ⟨heq, hpos, hexpired.trans hlater.clock⟩
    cases h with
    | oracle h =>
      rcases Oracle.expiryPrices_of_exec h with heq | ⟨ctx, config, feed, pyth, -, he⟩
      · exact hold (heq ▸ hep)
      · rw [he.state_eq] at hep
        rcases Store.lookup_insert_eq_some.mp hep with ⟨rfl, rfl⟩ | ⟨-, hep⟩
        · exact ⟨rfl, he.price_pos, he.expired⟩
        · exact hold hep
    | _ => exact hold hep
  · intro o info hi hset
    -- a price that was there is still backed; one that is new was just read
    have hold : s.controller.otokenInfos.lookup o = some info →
        s'.oracle.expiryPrices.lookup info.priceKey =
          some ⟨info.underlying, info.expiry, info.expiryPrice, true⟩ := by
      intro hi
      exact hlater.price (hp.copied hi hset)
    have hseen := h.seen hf
    cases hl : l.seen A with
    | none =>
      rw [hl, Option.elim_none] at hseen
      exact hold (hseen ▸ hi)
    | some m =>
      rw [hl, Option.elim_some] at hseen
      rcases hseen.move.info_cases hi with hi | ⟨ctx, -, -, he⟩ | ⟨ctx, info₀, rfl, -, he, rfl⟩
      · exact hold hi
      · exact absurd he.unpriced hset
      · have hread : s.oracle.expiryPrices.lookup info₀.priceKey = some ctx.oracleExpiryPrice := by
          obtain rfl : l = .controller (.setExpiryPrice ctx) := Label.eq_of_seen hl
          exact h.read_price he.info_eq
        obtain ⟨heq, -, -⟩ := hp.oracle hread
        rw [heq] at hread
        exact hlater.price hread

theorem priced_of_run (hrun : Run (Step D T A) s₀ tr s) (h₀ : Initial D s₀) : Priced s := by
  have hboth : OtokenFactory.WellFormed A s.factory ∧ Priced s := by
    refine Run.invariant (I := fun s ↦ OtokenFactory.WellFormed A s.factory ∧ Priced s)
      ⟨h₀.factory.wellFormed, h₀.priced⟩ ?_ hrun
    intro u m u' hu hs
    exact ⟨hs.factory_wellFormed hu.1, hs.priced hu.1 hu.2⟩
  exact hboth.2

/-- **One settlement price for each underlying and expiry.** The price of a series is the oracle's
finalised price for its underlying and expiry; series that share both and have a price have the same;
and neither the price of a series nor that of the oracle ever changes. -/
theorem settlement_price_unique (hrun : Run (Step D T A) s₀ tr s) (h₀ : Initial D s₀) :
    (∀ o info, s.controller.otokenInfos.lookup o = some info → info.expiryPrice ≠ 0 →
      s.oracle.expiryPrices.lookup ⟨info.underlying, info.expiry⟩ =
        some ⟨info.underlying, info.expiry, info.expiryPrice, true⟩) ∧
    (∀ o o' info info', s.controller.otokenInfos.lookup o = some info →
      s.controller.otokenInfos.lookup o' = some info' → info.underlying = info'.underlying →
      info.expiry = info'.expiry → info.expiryPrice ≠ 0 → info'.expiryPrice ≠ 0 →
      info.expiryPrice = info'.expiryPrice) ∧
    ∀ tr' s', Run (Step D T A) s tr' s' →
      (∀ o info, s.controller.otokenInfos.lookup o = some info → info.expiryPrice ≠ 0 →
        s'.controller.otokenInfos.lookup o = some info) ∧
      ∀ k ep, s.oracle.expiryPrices.lookup k = some ep →
        s'.oracle.expiryPrices.lookup k = some ep := by
  have hpriced := priced_of_run hrun h₀
  refine ⟨fun o info hi hset ↦ hpriced.copied hi hset, ?_, ?_⟩
  · intro o o' info info' hi hi' hunderlying hexpiry hset hset'
    have hkey : info.priceKey = info'.priceKey := congrArg₂ Oracle.PriceKey.mk hunderlying hexpiry
    have hprice := hpriced.copied hi hset
    rw [hkey, hpriced.copied hi' hset'] at hprice
    exact (congrArg Oracle.ExpiryPrice.price (Option.some.inj hprice)).symm
  · intro tr' s' hrun'
    have hlater := later_of_run hrun' (factory_wellFormed hrun h₀)
    constructor
    · intro o info hi hset
      obtain ⟨info', hi', hl⟩ := hlater.info hi
      rw [hi', hl.eq_of_priced (Nat.pos_of_ne_zero hset)]
    · intro k ep hep
      exact hlater.price hep

theorem settlement_price_unique_sample :
    ∃ info, (sampleRun (sampleSetup ++ samplePricing)).controller.otokenInfos.lookup 20 = some info ∧
      info.expiryPrice = 700000000 ∧
      (sampleRun (sampleSetup ++ samplePricing)).oracle.expiryPrices.lookup ⟨10, 100⟩ =
        some ⟨10, 100, 700000000, true⟩ := by
  have hrun : Run (Step sampleDeployment splToken sampleAddresses) sampleState
      (sampleTrace (sampleSetup ++ samplePricing)) (sampleRun (sampleSetup ++ samplePricing)) :=
    sampleRun_run (by decide +kernel) (by decide +kernel)
  have hi : (sampleRun (sampleSetup ++ samplePricing)).controller.otokenInfos.lookup 20 =
      some ⟨20, 10, 15, 10, 5, 100, false, 6, 700000000⟩ := by decide +kernel
  exact ⟨_, hi, rfl, (settlement_price_unique hrun sampleState_initial).1 20 _ hi (by decide)⟩

end Protocol

end OptionsProtocol
