import OptionsProtocol.Controller.PoolAccounting
import OptionsProtocol.Protocol.Prices

/-!
# Minting comes before settlement

A series is minted strictly before its expiry, and its price is fixed, its vaults are settled and its
oTokens are redeemed from the expiry on. The expiry is checked against the clock by two programs, on three
copies of one number, and the clock does not run backwards: in every run the two phases of a series follow
one another, although other series may be in another phase.
-/

namespace OptionsProtocol

namespace Protocol

open OtokenFactory (SeriesAddresses)

variable {D : Deployment} {T : TokenProgram} {A : SeriesAddresses D} {s s' s₀ : State} {l : Label}
  {tr : List (Transition State Label)} {o : Pubkey} {k : Oracle.PriceKey}

/-! ## The two phases of a series -/

/-- oTokens of `o` are minted. -/
def Label.Mints (o : Pubkey) : Label → Prop
  | .controller (.mintOtoken ctx _) => ctx.otokenMint = o
  | _ => False

/-- A vault of the series `o` is settled, or its oTokens are redeemed. -/
def Label.PaysFor (o : Pubkey) : Label → Prop
  | .controller (.settleVault ctx) => ctx.otokenInfo = o
  | .controller (.redeem ctx _) => ctx.otokenMint = o
  | _ => False

/-- The series `o`, whose price has the seeds `k`, has entered settlement: its price is finalised or
copied, or something is paid. -/
def Label.Settles (o : Pubkey) (k : Oracle.PriceKey) : Label → Prop
  | .oracle (.setExpiryPrice ctx) => ctx.key = k
  | .controller (.setExpiryPrice ctx) => ctx.otokenInfo = o
  | l => l.PaysFor o

/-- A vault is withdrawn from in an emergency. -/
def Label.IsEmergency : Label → Prop
  | .controller (.emergencyWithdrawVault _) => True
  | _ => False

/-- Minting is open strictly before the expiry. -/
theorem Step.unexpired (h : Step D T A s l s') (hl : l.Mints o) :
    ∃ info, s.controller.otokenInfos.lookup o = some info ∧ s.controller.clock < info.expiry := by
  cases h with
  | @controller ix c _ _ h =>
    cases ix with
    | mintOtoken ctx n =>
      obtain ⟨v, info, dest, L, he⟩ := Controller.mintOtoken_effect h
      have hmint : ctx.otokenMint = o := hl
      exact ⟨info, hmint ▸ he.info_eq, he.unexpired⟩
    | _ => exact absurd hl id
  | _ => exact absurd hl id

/-- Payments are made from the expiry on. -/
theorem Step.expired_of_paysFor (h : Step D T A s l s') (hl : l.PaysFor o) :
    ∃ info, s.controller.otokenInfos.lookup o = some info ∧ info.expiry ≤ s.controller.clock := by
  cases h with
  | @controller ix c _ _ h =>
    cases ix with
    | settleVault ctx =>
      obtain ⟨v, info, pool, ben, L, he⟩ := Controller.settleVault_effect h
      have hseed : v.otokenMint = o := (Controller.settleVault_seed h he.vault_eq).symm.trans hl
      exact ⟨info, hseed ▸ he.info_eq, he.expired⟩
    | redeem ctx n =>
      obtain ⟨info, otoken, coll, pool, B, L, he⟩ := Controller.redeem_effect h
      have hmint : ctx.otokenMint = o := hl
      exact ⟨info, hmint ▸ he.info_eq, he.expired⟩
    | _ => exact absurd hl id
  | _ => exact absurd hl id

theorem Step.expired (hk : ∀ info, s.controller.otokenInfos.lookup o = some info → info.priceKey = k)
    (h : Step D T A s l s') (hl : l.Settles o k) : k.expiry ≤ s.controller.clock := by
  have hpays : l.PaysFor o → k.expiry ≤ s.controller.clock := by
    intro hl
    obtain ⟨info, hi, hexpired⟩ := h.expired_of_paysFor hl
    rw [← hk info hi]
    exact hexpired
  cases h with
  | @controller ix c _ _ h =>
    cases ix with
    | setExpiryPrice ctx =>
      obtain ⟨info, he⟩ := Controller.setExpiryPrice_effect h
      have hseed : ctx.otokenInfo = o := hl
      rw [← hk info (hseed ▸ he.info_eq)]
      exact he.expired
    | _ => exact hpays hl
  | @oracle ix p h =>
    cases ix with
    | setExpiryPrice ctx =>
      obtain ⟨config, feed, pyth, he⟩ := Oracle.setExpiryPrice_effect h
      have hkey : ctx.key = k := hl
      rw [← hkey]
      exact he.expired
    | _ => exact hpays hl
  | _ => exact hpays hl

/-! ## Runs -/

theorem later_of_mem (hrun : Run (Step D T A) s₀ tr s) (h₀ : Initial D s₀)
    {t : Transition State Label} (ht : t ∈ tr) : t.pre.Later s := by
  obtain ⟨as, bs, rfl⟩ := List.append_of_mem ht
  obtain ⟨hpre, hstep, hpost⟩ := hrun.split
  have hf := factory_wellFormed hpre h₀
  exact (hstep.later hf).trans (later_of_run hpost (hstep.factory_wellFormed hf))

theorem priceKey_of_later (h : s'.Later s) {info : Controller.OTokenInfo}
    (hi : s.controller.otokenInfos.lookup o = some info) :
    ∀ i, s'.controller.otokenInfos.lookup o = some i → i.priceKey = info.priceKey := by
  intro i hi'
  obtain ⟨i', hi'', hlater⟩ := h.info hi'
  obtain rfl := Option.some.inj (hi.symm.trans hi'')
  exact hlater.priceKey_eq.symm

theorem not_mints_of_expired (hrun : Run (Step D T A) s₀ tr s) (h₀ : Initial D s₀)
    {info : Controller.OTokenInfo} (hi : s.controller.otokenInfos.lookup o = some info)
    {t : Transition State Label} (ht : t ∈ tr) (hexpired : info.expiry ≤ t.pre.controller.clock) :
    ¬t.label.Mints o := by
  intro hmints
  obtain ⟨i, hi', hlt⟩ := (hrun.step_of_mem ht).unexpired hmints
  have hkey := priceKey_of_later (later_of_mem hrun h₀ ht) hi i hi'
  have hexpiry : i.expiry = info.expiry := congrArg Oracle.PriceKey.expiry hkey
  omega

theorem not_mints_after {as bs : List (Transition State Label)} {t : Transition State Label}
    (hrun : Run (Step D T A) s₀ (as ++ t :: bs) s) (h₀ : Initial D s₀)
    {info : Controller.OTokenInfo} (hi : s.controller.otokenInfos.lookup o = some info)
    (hexpired : info.expiry ≤ t.pre.controller.clock) : ∀ u ∈ t :: bs, ¬u.label.Mints o := by
  intro u hu
  have hclock : t.pre.controller.clock ≤ u.pre.controller.clock := by
    obtain ⟨hpre, hstep, hpost⟩ := hrun.split
    have hf := factory_wellFormed hpre h₀
    rcases List.mem_cons.mp hu with rfl | hu
    · exact le_rfl
    · obtain ⟨cs, ds, rfl⟩ := List.append_of_mem hu
      have hbetween := later_of_run hpost.split.1 (hstep.factory_wellFormed hf)
      exact (hstep.later hf).clock.trans hbetween.clock
  exact not_mints_of_expired hrun h₀ hi (List.mem_append_right as hu) (hexpired.trans hclock)

/-- What the balance of a pool falls by is paid for a series, or withdrawn in an emergency. -/
theorem Step.paysFor_of_lt (hf : OtokenFactory.WellFormed A s.factory)
    (hu : s.controller.ledger.Undelegated D.IsControllerPda) (h : Step D T A s l s') {M : Pubkey}
    (hlt : Controller.poolBalance D s'.controller M < Controller.poolBalance D s.controller M) :
    l.IsEmergency ∨ ∃ o, l.PaysFor o := by
  have hseen := h.seen hf
  cases hl : l.seen A with
  | none =>
    rw [hl, Option.elim_none] at hseen
    rw [hseen] at hlt
    exact absurd hlt (lt_irrefl _)
  | some m =>
    rw [hl, Option.elim_some] at hseen
    by_contra hno
    push Not at hno
    refine absurd hlt (not_lt.mpr (hseen.move.poolBalance_le hu ?_ ?_ ?_ M))
    · rintro ctx rfl
      obtain rfl : l = .controller (.settleVault ctx) := Label.eq_of_seen hl
      exact hno.2 ctx.otokenInfo rfl
    · rintro ctx n rfl
      obtain rfl : l = .controller (.redeem ctx n) := Label.eq_of_seen hl
      exact hno.2 ctx.otokenMint rfl
    · rintro ctx rfl
      obtain rfl : l = .controller (.emergencyWithdrawVault ctx) := Label.eq_of_seen hl
      exact hno.1 trivial

/-- **Minting and settlement never overlap.** Once the price of a series is finalised by the oracle or
copied by the controller, one of its vaults is settled or oTokens are redeemed, none are minted any more;
when oTokens are minted, no price is known; and whatever leaves a pool, but for emergency withdrawals, is
paid for a series that has expired and is never minted again. -/
theorem minting_before_settlement (hrun : Run (Step D T A) s₀ tr s) (h₀ : Initial D s₀) :
    (∀ o info, s.controller.otokenInfos.lookup o = some info → ∀ as t bs, tr = as ++ t :: bs →
      (t.label.Settles o ⟨info.underlying, info.expiry⟩ → ∀ u ∈ t :: bs, ¬u.label.Mints o) ∧
      (t.label.Mints o → t.pre.controller.clock < info.expiry ∧
        t.pre.oracle.expiryPrices.lookup ⟨info.underlying, info.expiry⟩ = none ∧
        ∃ i, t.pre.controller.otokenInfos.lookup o = some i ∧ i.expiryPrice = 0)) ∧
    ∀ as t bs M, tr = as ++ t :: bs →
      Controller.poolBalance D t.post.controller M < Controller.poolBalance D t.pre.controller M →
      t.label.IsEmergency ∨ ∃ o info, t.label.PaysFor o ∧
        t.pre.controller.otokenInfos.lookup o = some info ∧
        info.expiry ≤ t.pre.controller.clock ∧ ∀ u ∈ t :: bs, ¬u.label.Mints o := by
  constructor
  · rintro o info hi as t bs rfl
    have hmem : t ∈ as ++ t :: bs := List.mem_append_right _ List.mem_cons_self
    obtain ⟨hpre, hstep, -⟩ := hrun.split
    have hkeys := priceKey_of_later (later_of_mem hrun h₀ hmem) hi
    constructor
    · intro hsettles
      exact not_mints_after hrun h₀ hi (hstep.expired hkeys hsettles)
    · intro hmints
      obtain ⟨i, hi', hlt⟩ := hstep.unexpired hmints
      have hkey : i.priceKey = ⟨info.underlying, info.expiry⟩ := hkeys i hi'
      have hexpiry : i.expiry = info.expiry := congrArg Oracle.PriceKey.expiry hkey
      have hpriced := priced_of_run hpre h₀
      have hnone : t.pre.oracle.expiryPrices.lookup i.priceKey = none := by
        cases hep : t.pre.oracle.expiryPrices.lookup i.priceKey with
        | none => rfl
        | some ep =>
          have hexpired : i.expiry ≤ t.pre.controller.clock := (hpriced.oracle hep).2.2
          omega
      refine ⟨hexpiry ▸ hlt, hkey ▸ hnone, i, hi', ?_⟩
      by_contra hset
      rw [hpriced.copied hi' hset] at hnone
      exact absurd hnone (by simp)
  · rintro as t bs M rfl hlt
    have hmem : t ∈ as ++ t :: bs := List.mem_append_right _ List.mem_cons_self
    obtain ⟨hpre, hstep, -⟩ := hrun.split
    have hundelegated := (controller_wellFormed hpre h₀).undelegated
    rcases hstep.paysFor_of_lt (factory_wellFormed hpre h₀) hundelegated hlt with hem | ⟨o, hpays⟩
    · exact .inl hem
    · obtain ⟨info, hi, hexpired⟩ := hstep.expired_of_paysFor hpays
      obtain ⟨info', hi', hlater⟩ := (later_of_mem hrun h₀ hmem).info hi
      have hexpiry : info'.expiry = info.expiry := congrArg Oracle.PriceKey.expiry hlater.priceKey_eq
      exact .inr ⟨o, info, hpays, hi, hexpired, not_mints_after hrun h₀ hi' (hexpiry ▸ hexpired)⟩

section Sample

/-- User `1` funds a vault. -/
def sampleFunding : List Action :=
  [.openAccount 31 20 1, .controller (.initializeCounter 1), .controller (.openVault 1 10 1),
   .controller (.depositCollateral ⟨⟨1, 0⟩, 11, 10, 12, sampleDeployment.poolVaultAuth 10, 1⟩ 3)]

/-- The user mints against it. -/
def sampleMint : Action := .controller (.mintOtoken ⟨⟨1, 0⟩, 20, 20, 31, 1⟩ 200)

/-- The whole life of a series. -/
def sampleLife : List Action := sampleSetup ++ sampleFunding ++ sampleMint :: samplePricing

/-- When the user minted, no price was known, and after the oracle had it nothing was minted. -/
theorem minting_before_settlement_sample :
    (sampleRun (sampleSetup ++ sampleFunding)).oracle.expiryPrices.lookup ⟨10, 100⟩ = none ∧
      (sampleRun sampleLife).oracle.expiryPrices.lookup ⟨10, 100⟩ = some ⟨10, 100, 700000000, true⟩ := by
  have hrun : Run (Step sampleDeployment splToken sampleAddresses) sampleState
      (sampleTrace sampleLife) (sampleRun sampleLife) :=
    sampleRun_run (by decide +kernel) (by decide +kernel)
  have hi : (sampleRun sampleLife).controller.otokenInfos.lookup 20 =
      some ⟨20, 10, 15, 10, 5, 100, false, 6, 700000000⟩ := by decide +kernel
  have hplay : Run.playable (Action.next sampleDeployment splToken sampleAddresses) sampleState
      (sampleSetup ++ sampleFunding ++ [sampleMint]) = true := by decide +kernel
  have hsplit : sampleTrace sampleLife = sampleTrace (sampleSetup ++ sampleFunding) ++
      ⟨sampleRun (sampleSetup ++ sampleFunding), sampleMint.label,
        sampleRun (sampleSetup ++ sampleFunding ++ [sampleMint])⟩ ::
      Run.playTrace (Action.next sampleDeployment splToken sampleAddresses) Action.label
        (sampleRun (sampleSetup ++ sampleFunding ++ [sampleMint])) samplePricing :=
    Run.playTrace_append_cons _ _ hplay
  exact ⟨(((minting_before_settlement hrun sampleState_initial).1 20 _ hi _ _ _ hsplit).2 rfl).2.1,
    by decide +kernel⟩

end Sample

end Protocol

end OptionsProtocol
