import OptionsProtocol.Controller.Series
import OptionsProtocol.Protocol.Machine

/-!
# The controller's series are the factory's

The controller computes with its own record of a series, which it copied when the series was registered.
In every reachable state the record still says what the factory's says, at the address of the same terms,
and the mint is whitelisted: the three programs describe one set of series. No two series have the same
terms, since the factory keeps one record for each.
-/

namespace OptionsProtocol

/-- Mints keep their decimals. The token program has no instruction that changes them. -/
def Ledger.DecimalsKept (L L' : Ledger) : Prop :=
  ∀ {m x}, L.mints.lookup m = some x → ∃ x', L'.mints.lookup m = some x' ∧ x'.decimals = x.decimals

namespace Protocol

open OtokenFactory (SeriesAddresses)
open Controller (OTokenInfo)

variable {D : Deployment} {T : TokenProgram} {A : SeriesAddresses D} {s s' s₀ : State} {l : Label}
  {tr : List (Transition State Label)} {o : Pubkey} {info : OTokenInfo}

/-- The record the factory keeps of the series. -/
def factoryRecord (info : OTokenInfo) : OtokenFactory.OToken :=
  ⟨info.underlying, info.strikeAsset, info.collateralMint, info.strikePrice, info.expiry, info.isPut,
    info.otokenMint⟩

/-- The series is what the factory and the whitelist say it is. -/
structure Mirrors (s : State) (o : Pubkey) (info : OTokenInfo) : Prop where
  mint_eq : info.otokenMint = o
  record : s.factory.otokens.lookup info.terms = some (factoryRecord info)
  entry : s.whitelist.entries.lookup o = some ⟨o, true⟩
  strike_pos : 0 < info.strikePrice

theorem Mirrors.later (h : Mirrors s o info) (hs : s.Later s') {info' : OTokenInfo}
    (hi : info.Later info') : Mirrors s' o info' := by
  rcases hi with rfl | ⟨-, p, -, rfl⟩
  · exact ⟨h.mint_eq, hs.otoken h.record, hs.entry h.entry, h.strike_pos⟩
  · exact ⟨h.mint_eq, hs.otoken h.record, hs.entry h.entry, h.strike_pos⟩

theorem Step.mirrors {ctx : Controller.CreateOTokenInfo}
    (h : Step D T A s (.controller (.createOtokenInfo ctx)) s')
    (he : Controller.CreateOTokenInfo.Effect s.controller ctx info s'.controller) :
    Mirrors s' ctx.otokenMint info ∧ ∃ mint,
      s'.controller.ledger.mints.lookup info.collateralMint = some mint ∧
        mint.decimals = info.collateralDecimals := by
  cases h with
  | controller _ hreads h =>
    obtain ⟨hm, hentry, hactive, mint, hmint, hinfos⟩ := Controller.createOtokenInfo_copies h
    obtain ⟨hrecord, hwhitelisted, -⟩ := hreads
    obtain rfl : info = .ofFactory ctx.factoryOtoken mint.decimals := by
      have hinsert := congrArg (Finmap.lookup ctx.otokenMint)
        ((congrArg Controller.State.otokenInfos he.state_eq).symm.trans hinfos)
      rw [Finmap.lookup_insert, Finmap.lookup_insert, Option.some.injEq] at hinsert
      exact hinsert
    have heq : ctx.whitelistedOtoken = ⟨ctx.otokenMint, true⟩ := by
      rw [← hentry, ← hactive]
    refine ⟨⟨hm, hrecord, ?_, he.strike_pos⟩, mint, ?_, rfl⟩
    · rw [← heq]
      exact hwhitelisted
    · have hledger := congrArg (fun c ↦ c.ledger.mints) he.state_eq
      simp only at hledger ⊢
      rw [hledger]
      exact hmint

/-- Every series mirrors the factory and the whitelist. -/
def Mirrored (s : State) : Prop :=
  ∀ o info, s.controller.otokenInfos.lookup o = some info → Mirrors s o info

theorem Initial.mirrored (h : Initial D s) : Mirrored s := by
  intro o info hi
  rw [h.controller.otokenInfos, Finmap.lookup_empty] at hi
  exact absurd hi (by simp)

/-- The series a step leaves were there before, or were just registered. -/
theorem Step.info_cases (hf : OtokenFactory.WellFormed A s.factory) (h : Step D T A s l s')
    (hi : s'.controller.otokenInfos.lookup o = some info) :
    (∃ info₀, s.controller.otokenInfos.lookup o = some info₀ ∧ info₀.Later info) ∨
      ∃ ctx, l = .controller (.createOtokenInfo ctx) ∧ o = ctx.otokenMint ∧
        Controller.CreateOTokenInfo.Effect s.controller ctx info s'.controller := by
  have hseen := h.seen hf
  cases hl : l.seen A with
  | none =>
    rw [hl, Option.elim_none] at hseen
    exact .inl ⟨info, hseen ▸ hi, .refl info⟩
  | some m =>
    rw [hl, Option.elim_some] at hseen
    rcases hseen.move.info_cases hi with hi | ⟨ctx, rfl, ho, he⟩ | ⟨ctx, info₀, rfl, rfl, he, rfl⟩
    · exact .inl ⟨info, hi, .refl info⟩
    · exact .inr ⟨ctx, Label.eq_of_seen hl, ho, he⟩
    · exact .inl ⟨info₀, he.info_eq, .inr ⟨he.unpriced, _, he.price_pos, rfl⟩⟩

theorem Step.mirrored (hf : OtokenFactory.WellFormed A s.factory) (hm : Mirrored s)
    (h : Step D T A s l s') : Mirrored s' := by
  intro o info hi
  rcases h.info_cases hf hi with ⟨info₀, hi₀, hlater⟩ | ⟨ctx, rfl, rfl, he⟩
  · exact (hm _ _ hi₀).later (h.later hf) hlater
  · exact (h.mirrors he).1

theorem mirrored_of_run (hrun : Run (Step D T A) s₀ tr s) (h₀ : Initial D s₀) : Mirrored s := by
  have hboth : OtokenFactory.WellFormed A s.factory ∧ Mirrored s := by
    refine Run.invariant (I := fun s ↦ OtokenFactory.WellFormed A s.factory ∧ Mirrored s)
      ⟨h₀.factory.wellFormed, h₀.mirrored⟩ ?_ hrun
    intro u m u' hu hs
    exact ⟨hs.factory_wellFormed hu.1, hs.mirrored hu.1 hu.2⟩
  exact hboth.2

/-! ## Decimals -/

/-- The decimals recorded for a series are those of its collateral. -/
def DecimalsAgree (s : State) : Prop :=
  ∀ o info, s.controller.otokenInfos.lookup o = some info → ∃ mint,
    s.controller.ledger.mints.lookup info.collateralMint = some mint ∧
      mint.decimals = info.collateralDecimals

theorem Step.decimalsKept (hf : OtokenFactory.WellFormed A s.factory) (h : Step D T A s l s')
    (hl : l ≠ .token) : s.controller.ledger.DecimalsKept s'.controller.ledger := by
  intro m x hx
  have hseen := h.seen hf
  cases hm : l.seen A with
  | none =>
    rw [hm, Option.elim_none] at hseen
    exact ⟨x, hseen ▸ hx, rfl⟩
  | some m' =>
    rw [hm, Option.elim_some] at hseen
    have hne : m' ≠ .token := by
      rintro rfl
      exact hl (Label.eq_token_of_seen hm)
    obtain ⟨supply, hx'⟩ := hseen.move.mint_kept hne hx
    exact ⟨_, hx', rfl⟩

theorem Step.decimalsAgree (hf : OtokenFactory.WellFormed A s.factory) (ha : DecimalsAgree s)
    (h : Step D T A s l s')
    (hl : l = .token → s.controller.ledger.DecimalsKept s'.controller.ledger) :
    DecimalsAgree s' := by
  have hkept : s.controller.ledger.DecimalsKept s'.controller.ledger := by
    by_cases htoken : l = .token
    · exact hl htoken
    · exact h.decimalsKept hf htoken
  intro o info hi
  rcases h.info_cases hf hi with ⟨info₀, hi₀, hlater⟩ | ⟨ctx, rfl, rfl, he⟩
  · obtain ⟨mint, hmint, hdecimals⟩ := ha _ _ hi₀
    obtain ⟨mint', hmint', heq⟩ := hkept hmint
    have hsame : info.collateralMint = info₀.collateralMint ∧
        info.collateralDecimals = info₀.collateralDecimals := by
      rcases hlater with rfl | ⟨-, p, -, rfl⟩
      · exact ⟨rfl, rfl⟩
      · exact ⟨rfl, rfl⟩
    exact ⟨mint', hsame.1 ▸ hmint', by rw [heq, hdecimals, hsame.2]⟩
  · exact (h.mirrors he).2

theorem decimalsAgree_of_run (hrun : Run (Step D T A) s₀ tr s) (h₀ : Initial D s₀)
    (htoken : ∀ t ∈ tr, t.label = .token →
      t.pre.controller.ledger.DecimalsKept t.post.controller.ledger) : DecimalsAgree s := by
  have hinit : DecimalsAgree s₀ := by
    intro o info hi
    rw [h₀.controller.otokenInfos, Finmap.lookup_empty] at hi
    exact absurd hi (by simp)
  have hboth : OtokenFactory.WellFormed A s.factory ∧ DecimalsAgree s := by
    refine Run.invariant_of (I := fun s ↦ OtokenFactory.WellFormed A s.factory ∧ DecimalsAgree s)
      (Q := fun t ↦ t.label = .token →
        t.pre.controller.ledger.DecimalsKept t.post.controller.ledger)
      ⟨h₀.factory.wellFormed, hinit⟩ ?_ hrun htoken
    intro u m u' hu hs hq
    exact ⟨hs.factory_wellFormed hu.1, hs.decimalsAgree hu.1 hu.2 hq⟩
  exact hboth.2

/-! ## The correspondence -/

/-- **Registered series mirror the factory's one to one.** Each has its record at the factory, an active
entry of the whitelist and a positive strike, and the decimals of its collateral as long as the token
program keeps them; two series never share their terms; nothing but its price ever changes; and the factory
counts its records. -/
theorem series_mirrored (hrun : Run (Step D T A) s₀ tr s) (h₀ : Initial D s₀) :
    (∀ o info, s.controller.otokenInfos.lookup o = some info →
      info.otokenMint = o ∧
      s.factory.otokens.lookup info.terms = some ⟨info.underlying, info.strikeAsset,
        info.collateralMint, info.strikePrice, info.expiry, info.isPut, o⟩ ∧
      s.whitelist.entries.lookup o = some ⟨o, true⟩ ∧ 0 < info.strikePrice) ∧
    ((∀ t ∈ tr, t.label = .token →
        t.pre.controller.ledger.DecimalsKept t.post.controller.ledger) →
      ∀ o info, s.controller.otokenInfos.lookup o = some info → ∃ mint,
        s.controller.ledger.mints.lookup info.collateralMint = some mint ∧
          info.collateralDecimals = mint.decimals) ∧
    (∀ o o' info info', s.controller.otokenInfos.lookup o = some info →
      s.controller.otokenInfos.lookup o' = some info' → info.terms = info'.terms → o = o') ∧
    (∀ tr' s', Run (Step D T A) s tr' s' → ∀ o info, s.controller.otokenInfos.lookup o = some info →
      ∃ price, s'.controller.otokenInfos.lookup o = some { info with expiryPrice := price }) ∧
    ∀ config, s.factory.config = some config →
      config.otokenCount = s.factory.otokens.entries.card := by
  have hmirrored : Mirrored s := mirrored_of_run hrun h₀
  have hf := factory_wellFormed hrun h₀
  refine ⟨?_, ?_, ?_, ?_, ?_⟩
  · intro o info hi
    have h := hmirrored o info hi
    refine ⟨h.mint_eq, ?_, h.entry, h.strike_pos⟩
    rw [h.record, factoryRecord, h.mint_eq]
  · intro htoken o info hi
    obtain ⟨mint, hmint, hdecimals⟩ := decimalsAgree_of_run hrun h₀ htoken o info hi
    exact ⟨mint, hmint, hdecimals.symm⟩
  · intro o o' info info' hi hi' hterms
    have hrecord := (hmirrored _ _ hi).record
    rw [hterms, (hmirrored _ _ hi').record, Option.some.injEq] at hrecord
    calc o = info.otokenMint := (hmirrored _ _ hi).mint_eq.symm
      _ = info'.otokenMint := (congrArg OtokenFactory.OToken.mint hrecord).symm
      _ = o' := (hmirrored _ _ hi').mint_eq
  · intro tr' s' hrun' o info hi
    obtain ⟨info', hi', hlater⟩ := (later_of_run hrun' hf).info hi
    rcases hlater with rfl | ⟨-, p, -, rfl⟩
    · exact ⟨info'.expiryPrice, hi'⟩
    · exact ⟨p, hi'⟩
  · intro config hconfig
    have hcount := hf.count
    rwa [hconfig, Option.elim_some] at hcount

theorem series_mirrored_sample :
    (sampleRun sampleSetup).factory.otokens.lookup ⟨10, 15, 10, 5, 100, false⟩ =
        some ⟨10, 15, 10, 5, 100, false, 20⟩ ∧
      (sampleRun sampleSetup).whitelist.entries.lookup 20 = some ⟨20, true⟩ := by
  have hrun : Run (Step sampleDeployment splToken sampleAddresses) sampleState
      (sampleTrace sampleSetup) (sampleRun sampleSetup) :=
    sampleRun_run (by decide +kernel) (by decide +kernel)
  have hi : (sampleRun sampleSetup).controller.otokenInfos.lookup 20 =
      some ⟨20, 10, 15, 10, 5, 100, false, 6, 0⟩ := by decide +kernel
  obtain ⟨-, hrecord, hentry, -⟩ := (series_mirrored hrun sampleState_initial).1 20 _ hi
  exact ⟨hrecord, hentry⟩

end Protocol

end OptionsProtocol
