import OptionsProtocol.Controller.Stranding

/-!
# No run on the pool

Vaults and holders share one pool, and whoever comes first is paid first. Nobody has to hurry: once an
account of the pool holds what the pool owes, it does so whatever happens next, short of a new price or of
an emergency withdrawal. Each claim takes out of the account no more than it takes off what is owed, since a
series pays less in pieces than at once. So the last claim that is presented goes through like the first.
-/

namespace OptionsProtocol

namespace Controller

open Except

variable {D : Deployment} {T : TokenProgram} {s s' s₀ : State} {l : Label}
  {tr tr' : List (Transition State Label)} {M p : Pubkey}

/-! ## Prices -/

/-- A series gets its price. -/
def Label.prices : Label → Bool
  | .call (.setExpiryPrice _) => true
  | _ => false

/-- Series have their prices after they expired. -/
def PricedAfterExpiry (s : State) : Prop :=
  ∀ {o info}, s.otokenInfos.lookup o = some info → 0 < info.expiryPrice → info.expiry ≤ s.clock

theorem Move.pricedAfterExpiry (h : Move D T s l s') (hs : PricedAfterExpiry s) :
    PricedAfterExpiry s' := by
  intro o info hi hp
  rcases h.info_cases hi with hold | ⟨ctx, -, -, he⟩ | ⟨ctx, info₀, -, -, he, rfl⟩
  · exact (hs hold hp).trans h.clock_le
  · exact absurd he.unpriced hp.ne'
  · exact he.expired.trans h.clock_le

theorem pricedAfterExpiry_of_run (hrun : Run (Step D T) s₀ tr s) (h₀ : Initial D s₀) :
    PricedAfterExpiry s := by
  refine Run.invariant (I := fun s ↦ PricedAfterExpiry s) ?_
    (fun _ _ _ hI hs ↦ hs.move.pricedAfterExpiry hI) hrun
  intro o info hi
  rw [h₀.otokenInfos] at hi
  exact absurd hi (by simp)

/-- The series after a step that prices none: those that were there, and perhaps a new one that has no
price. -/
theorem Move.otokenInfos_of_unpriced (h : Move D T s l s') (hl : l.prices = false) :
    s'.otokenInfos = s.otokenInfos ∨ ∃ o info, s.otokenInfos.lookup o = none ∧ info.expiryPrice = 0 ∧
      s'.otokenInfos = s.otokenInfos.insert o info := by
  cases h with
  | administered _ h => exact .inl h.otokenInfos_eq
  | registered _ h => exact .inr ⟨_, _, h.fresh, h.unpriced, congrArg State.otokenInfos h.state_eq⟩
  | priced _ => exact absurd hl (by simp [Label.prices])
  | opened h => exact .inl (by rw [h.state_eq])
  | deposited _ h => exact .inl (by rw [h.state_eq])
  | minted h => exact .inl (by rw [h.state_eq])
  | settled h => exact .inl (by rw [h.state_eq])
  | redeemed _ h => exact .inl (by rw [h.state_eq])
  | withdrawn h => exact .inl (by rw [h.state_eq])
  | token _ => exact .inl rfl
  | tick _ => exact .inl rfl
  | created _ _ => exact .inl rfl

theorem OTokenInfo.claim_of_unpriced {info : OTokenInfo} (h : info.expiryPrice = 0) (n : ℕ) :
    info.claim n = 0 := by
  rw [OTokenInfo.claim, if_neg (by omega)]

theorem Move.claim_eq (h : Move D T s l s') (hl : l.prices = false) (o : Pubkey) (n : ℕ) :
    claim s' o n = claim s o n := by
  rcases h.otokenInfos_of_unpriced hl with heq | ⟨o', info, hnone, hzero, heq⟩
  · rw [claim, heq, claim]
  · by_cases ho : o = o'
    · subst ho
      rw [claim, heq, Finmap.lookup_insert, claim, hnone]
      exact OTokenInfo.claim_of_unpriced hzero n
    · rw [claim, heq, Finmap.lookup_insert_of_ne _ ho, claim]

/-! ## What holders are owed -/

theorem Move.mintedOf_eq_zero (h : Move D T s l s') (hpriced : PricedAfterExpiry s) {o : Pubkey}
    {info : OTokenInfo} (hi : s.otokenInfos.lookup o = some info) (hp : 0 < info.expiryPrice) :
    l.mintedOf o = 0 := by
  cases h with
  | @minted ctx n v info' dest L _ h =>
    rw [Label.mintedOf, if_neg]
    rintro rfl
    obtain rfl := Option.some.inj (hi.symm.trans h.info_eq)
    exact absurd (hpriced hi hp) (not_le.mpr h.unexpired)
  | @administered ix _ hix _ => cases ix <;> first | rfl | exact absurd hix id
  | _ => rfl

/-- **The holders of a series** are owed less by at least what they are paid. -/
theorem Move.holderClaim_le (hw : WellFormed D s) (hok : SeriesOk D s) (hpriced : PricedAfterExpiry s)
    (h : Move D T s l s') (hl : l.prices = false) {o : Pubkey} {info : OTokenInfo}
    (hi : s.otokenInfos.lookup o = some info) :
    info.claim (s'.ledger.supply o) + paidOf o ⟨s, l, s'⟩ ≤ info.claim (s.ledger.supply o) := by
  have hpaid : paidOf o ⟨s, l, s'⟩ ≤ info.claim (l.redeemedOf o) := by
    rw [← Controller.claim_eq hi, ← h.claim_eq hl]
    exact h.paidOf_le o
  rcases Nat.eq_zero_or_pos info.expiryPrice with hzero | hpos
  · rw [OTokenInfo.claim_of_unpriced hzero] at hpaid ⊢
    omega
  · have ho := (hw.info hi).2.1
    have hsupply := h.supply_eq ho fun _ _ hx ↦ hok.bound ho hx
    rw [h.mintedOf_eq_zero hpriced hi hpos, Nat.add_zero] at hsupply
    have hredeemed := l.redeemedOf_le_burnedOf s s' o
    calc info.claim (s'.ledger.supply o) + paidOf o ⟨s, l, s'⟩
        ≤ info.claim (s'.ledger.supply o) + info.claim (l.redeemedOf o) := Nat.add_le_add_left hpaid _
      _ ≤ info.claim (s'.ledger.supply o + l.redeemedOf o) := info.claim_add_le _ _
      _ ≤ info.claim (s.ledger.supply o) := info.claim_mono (by omega)

theorem Move.owedToHolders_le (hw : WellFormed D s) (hok : SeriesOk D s)
    (hpriced : PricedAfterExpiry s) (h : Move D T s l s') (hl : l.prices = false) (M : Pubkey) :
    owedToHolders s' M + paidBy M ⟨s, l, s'⟩ ≤ owedToHolders s M := by
  have hstay : owedToHolders s' M = Store.total (fun o info ↦ if info.collateralMint = M then
      info.claim (s'.ledger.supply o) else 0) s.otokenInfos := by
    rw [owedToHolders]
    rcases h.otokenInfos_of_unpriced hl with heq | ⟨o, info, hnone, hzero, heq⟩
    · rw [heq]
    · rw [heq, Store.total_insert_of_lookup_eq_none _ _ hnone, OTokenInfo.claim_of_unpriced hzero,
        ite_self, Nat.zero_add]
  rw [hstay, paidBy_eq, ← Store.total_add, owedToHolders]
  refine Store.total_le_total fun o info hi ↦ ?_
  split
  · exact h.holderClaim_le hw hok hpriced hl hi
  · exact le_rfl

/-! ## What vaults are owed -/

/-- What an unsettled vault of `M` will get back. -/
def dueBack (s : State) (M : Pubkey) (v : Vault) : ℕ :=
  if v.settled = false ∧ v.collateralMint = M then
    v.collateralAmount - claim s v.otokenMint v.shortAmount else 0

theorem Move.owedToVaults_insert (h : Move D T s l s') (hl : l.prices = false) {k : VaultKey}
    {v w : Vault} (hv : s.vaults.lookup k = some v) (ht : s'.vaults = s.vaults.insert k w) :
    owedToVaults s' M + dueBack s M v = owedToVaults s M + dueBack s M w := by
  rw [owedToVaults, owedToVaults, ht]
  simp only [h.claim_eq hl]
  exact Store.total_insert_of_lookup (fun _ v ↦ dueBack s M v) w hv

theorem Move.owedToVaults_le (hw : WellFormed D s) (hpriced : PricedAfterExpiry s)
    (h : Move D T s l s') (hl : l.prices = false) (he : l.isEmergency = false) (M : Pubkey) :
    owedToVaults s' M + releasedFrom M ⟨s, l, s'⟩ ≤ owedToVaults s M + depositedInto M ⟨s, l, s'⟩ := by
  have hsame : s'.vaults = s.vaults → owedToVaults s' M = owedToVaults s M := by
    intro heq
    rw [owedToVaults, owedToVaults, heq]
    simp only [h.claim_eq hl]
  have hwritten := fun {k v w} ↦ h.owedToVaults_insert (M := M) (k := k) (v := v) (w := w) hl
  have hmove := h
  cases h with
  | administered hix h =>
    obtain ⟨hd, hr, -⟩ := flows_of_isAdministrative D M s s' hix
    rw [hd, hr, hsame h.vaults_eq]
  | opened h =>
    have hfresh : owedToVaults s' M = owedToVaults s M := by
      rw [owedToVaults, owedToVaults, h.state_eq,
        Store.total_insert_of_lookup_eq_none _ _ h.fresh]
      simp [claim]
    rw [hfresh]
    exact le_rfl
  | @deposited ctx n v _ _ _ _ _ h =>
    have key := hwritten h.vault_eq (congrArg State.vaults h.state_eq)
    simp only [depositedInto, releasedFrom, h.vault_eq, Option.elim_some]
    simp only [dueBack, h.unsettled, true_and] at key
    by_cases hM : v.collateralMint = M
    · simp only [hM, if_true] at key ⊢
      omega
    · simp only [hM, if_false] at key ⊢
      omega
  | @minted ctx n v info _ _ _ h =>
    have key := hwritten h.vault_eq (congrArg State.vaults h.state_eq)
    -- a series that can be minted has no price, so that none of its oTokens have a claim
    have hunpriced : info.expiryPrice = 0 := by
      by_contra hne
      exact absurd (hpriced h.info_eq (Nat.pos_of_ne_zero hne)) (not_le.mpr h.unexpired)
    have hnew : ∀ m, claim s ctx.otokenMint m = 0 := by
      intro m
      rw [Controller.claim_eq h.info_eq, OTokenInfo.claim_of_unpriced hunpriced]
    have hold : claim s v.otokenMint v.shortAmount = 0 := by
      rcases h.bound with hdef | heq
      · have hzero : v.shortAmount = 0 := by
          have hb := (hw.vault h.vault_eq).bound
          simp only [hdef, ne_eq, not_true_eq_false, false_iff] at hb
          omega
        cases hi : s.otokenInfos.lookup v.otokenMint <;> simp [claim, hi, hzero]
      · rw [heq, hnew]
    simp only [dueBack, hnew, hold] at key
    simp only [depositedInto, releasedFrom]
    omega
  | @settled ctx v info _ _ _ _ h =>
    have key := hwritten h.vault_eq (congrArg State.vaults h.state_eq)
    have hclaim : claim s v.otokenMint v.shortAmount = info.payout v.shortAmount := by
      rw [Controller.claim_eq h.info_eq, OTokenInfo.claim, if_pos h.priced]
    simp only [depositedInto, releasedFrom, h.vault_eq, Option.elim_some, seriesPayout, h.info_eq]
    simp only [dueBack, h.unsettled, true_and, Bool.true_eq_false, false_and, if_false, hclaim] at key
    omega
  | withdrawn _ => exact absurd he (by simp [Label.isEmergency])
  | redeemed _ h => rw [hsame (by rw [h.state_eq])]; exact le_rfl
  | registered _ h => rw [hsame (by rw [h.state_eq])]; exact le_rfl
  | priced _ => exact absurd hl (by simp [Label.prices])
  | token _ => rw [hsame rfl]; exact le_rfl
  | tick _ => rw [hsame rfl]; exact le_rfl
  | created _ _ => rw [hsame rfl]; exact le_rfl

/-- **What is paid is owed no more.** -/
theorem Move.owed_le (hc : Calm D s) (hpriced : PricedAfterExpiry s) (h : Move D T s l s')
    (hl : l.prices = false) (he : l.isEmergency = false) (M : Pubkey) :
    owed s' M + releasedFrom M ⟨s, l, s'⟩ + paidBy M ⟨s, l, s'⟩ ≤
      owed s M + depositedInto M ⟨s, l, s'⟩ := by
  have hvaults := h.owedToVaults_le hc.wellFormed hpriced hl he M
  have hholders := h.owedToHolders_le hc.wellFormed hc.series hpriced hl M
  rw [owed, owed]
  omega

/-! ## Covered accounts -/

/-- The account `p` holds what the pool of `M` owes. -/
def Covers (D : Deployment) (s : State) (M p : Pubkey) : Prop := owed s M ≤ poolAmount D s M p

/-- Steps that leave covered accounts covered. -/
def Label.Orderly (D : Deployment) (M p : Pubkey) (l : Label) : Prop :=
  l.Peaceful D ∧ l.DepositsTo M p ∧ l.prices = false

instance (D : Deployment) (M p : Pubkey) (l : Label) : Decidable (l.Orderly D M p) :=
  inferInstanceAs (Decidable (_ ∧ _ ∧ _))

theorem Move.covers (hT : T.Plain) (hc : Calm D s) (hpriced : PricedAfterExpiry s)
    (h : Move D T s l s') (hl : l.Orderly D M p) (hcover : Covers D s M p) : Covers D s' M p := by
  have howed := h.owed_le hc hpriced hl.2.2 hl.1.2 M
  have hamount := h.poolAmount_le hT hc.wellFormed.undelegated hl.2.1
  rw [Covers] at hcover ⊢
  omega

/-- Everything that is needed to pay claims out of `p`, in the steps to come as well. -/
structure Standing (D : Deployment) (M p : Pubkey) (s : State) : Prop where
  calm : Calm D s
  priced : PricedAfterExpiry s
  covers : Covers D s M p

theorem Standing.of_run (hT : T.Plain) (h : Standing D M p s) (hrun : Run (Step D T) s tr s')
    (hl : ∀ t ∈ tr, t.label.Orderly D M p) : Standing D M p s' :=
  Run.invariant_of (I := Standing D M p) (Q := fun t ↦ t.label.Orderly D M p) h
    (fun _ _ _ hI hs hq ↦ ⟨hs.move.calm hI.calm hq.1, hs.move.pricedAfterExpiry hI.priced,
      hs.move.covers hT hI.calm hI.priced hq hI.covers⟩) hrun hl

/-! ## Claims -/

/-- The accounts passed to `redeem` fit, the redeemer has the oTokens, and the series is due. What the pool
has is not asked. -/
structure Redeem.Presented (D : Deployment) (s : State) (ctx : Redeem) (info : OTokenInfo) (n : ℕ) :
    Prop where
  config : ∃ c, s.config = some c ∧ c.fullyPaused = false
  info_eq : s.otokenInfos.lookup ctx.otokenMint = some info
  info_seed : ctx.otokenInfo = ctx.otokenMint
  otoken : ∃ a, s.ledger.accounts.lookup ctx.redeemerOtokenAccount = some a ∧
    a.mint = ctx.otokenMint ∧ a.owner = ctx.redeemer ∧ n ≤ a.amount ∧ a.Authorizes ctx.redeemer n
  collateral : ∃ b, s.ledger.accounts.lookup ctx.redeemerCollateralAccount = some b ∧
    b.mint = info.collateralMint ∧ b.owner = ctx.redeemer
  pool : isPoolAccount D s info.collateralMint ctx.poolTokenAccount = true
  mint : ∃ x, s.ledger.mints.lookup info.collateralMint = some x
  mint_key : ctx.collateralMintAccount = info.collateralMint
  authority : ctx.poolVaultAuthority = D.poolVaultAuth info.collateralMint
  amount_pos : 0 < n
  expired : info.expiry ≤ s.clock
  priced : 0 < info.expiryPrice

variable {ctx : Redeem} {info : OTokenInfo} {n : ℕ}

theorem Redeem.Presented.le_supply (hw : WellFormed D s) (h : ctx.Presented D s info n) :
    n ≤ s.ledger.supply ctx.otokenMint := by
  obtain ⟨a, ha, ham, -, hn, -⟩ := h.otoken
  have hle := (Ledger.amount_le_circulating ha).trans (hw.conserved a.mint).1
  rw [ham] at hle
  exact hn.trans hle

theorem Redeem.Presented.payout_le (hw : WellFormed D s) (h : ctx.Presented D s info n) :
    info.payout n ≤ owed s info.collateralMint := by
  have hle := Store.le_total (fun o i ↦ if i.collateralMint = info.collateralMint then
    i.claim (s.ledger.supply o) else 0) h.info_eq
  rw [if_pos rfl] at hle
  calc info.payout n = info.claim n := by rw [OTokenInfo.claim, if_pos h.priced]
    _ ≤ info.claim (s.ledger.supply ctx.otokenMint) := info.claim_mono (h.le_supply hw)
    _ ≤ owedToHolders s info.collateralMint := hle
    _ ≤ owed s info.collateralMint := Nat.le_add_left _ _

/-- The amounts of a series in circulation can be computed with, since it was minted once. -/
theorem Redeem.Presented.computable (hw : WellFormed D s) (hok : SeriesOk D s)
    (h : ctx.Presented D s info n) : ∃ m, info.Computable m := by
  have hminted : 0 < mintedTotal s ctx.otokenMint := by
    have hsupply := hok.supply (hw.info h.info_eq).2.1
    have hle := h.le_supply hw
    have hpos := h.amount_pos
    omega
  by_contra hnone
  refine hminted.ne' (Store.total_eq_zero fun k v hv ↦ ?_)
  rw [Vault.shortOf]
  split
  · rename_i ho
    by_contra hne
    obtain ⟨info', hi, -, hcomp, -⟩ := (hw.vault hv).backed (Nat.pos_of_ne_zero hne)
    rw [ho, h.info_eq, Option.some.injEq] at hi
    exact hnone ⟨_, hi ▸ hcomp⟩
  · rfl

theorem Redeem.Presented.ready (hs : Standing D info.collateralMint ctx.poolTokenAccount s)
    (h : ctx.Presented D s info n) : ctx.Ready D s info n := by
  obtain ⟨a, ha, hao, ham⟩ := isPoolAccount_iff.mp h.pool
  have hpay := (h.payout_le hs.calm.wellFormed).trans hs.covers
  rw [poolAmount, if_pos h.pool, Ledger.amount_eq ha] at hpay
  exact {
    config := h.config
    info_eq := h.info_eq
    info_seed := h.info_seed
    otoken := h.otoken
    collateral := h.collateral
    pool := ⟨a, ha, ham, hao, hpay⟩
    mint := h.mint
    mint_key := h.mint_key
    authority := h.authority
    amount_pos := h.amount_pos
    expired := h.expired
    priced := h.priced }

theorem amount_of_redeem (hT : T.Plain) (hw : WellFormed D s) (h : redeem D T ctx n s = .ok s')
    (hi : s.otokenInfos.lookup ctx.otokenMint = some info) :
    s'.ledger.amount ctx.redeemerCollateralAccount +
        (if ctx.redeemerCollateralAccount = ctx.poolTokenAccount then info.payout n else 0) =
      s.ledger.amount ctx.redeemerCollateralAccount + info.payout n := by
  obtain ⟨info', otoken, coll, pool, B, L, he⟩ := redeem_effect h
  obtain rfl := Option.some.inj (hi.symm.trans he.info_eq)
  obtain ⟨d, hburn⟩ := he.burn
  obtain ⟨d', ht⟩ := he.transfer
  have hburned := (T.burnChecked_spec hburn).amount ctx.redeemerCollateralAccount
  have hne : ctx.redeemerCollateralAccount ≠ ctx.redeemerOtokenAccount := by
    intro heq
    have hcoll := he.collateral_eq
    rw [heq, he.otoken_eq, Option.some.injEq] at hcoll
    exact (hw.info hi).2.2 (by rw [← he.collateral_mint, ← hcoll, he.otoken_mint])
  rw [if_neg hne, Nat.add_zero] at hburned
  have hamt := amount_of_transferIfPositive hT ht ctx.redeemerCollateralAccount
  rw [if_pos rfl, hburned] at hamt
  rw [he.state_eq]
  exact hamt

/-- **No run on the pool.** Let the deposits in `M` have gone into the account `p`, without emergency
withdrawals, and let there be no dust, or enough in `p`. Whatever follows, in any order and by anybody,
short of new prices, emergency withdrawals and deposits elsewhere: `p` covers what the pool owes; every
vault of `M` that is due can be settled from `p`, and every holder of a series of `M` that is due can redeem
from `p`; and each of them is paid in full. -/
theorem no_bank_run (hT : T.Plain) (hlive : T.Live) (hburn : T.BurnLive)
    (hrun : Run (Step D T) s₀ tr s) (h₀ : Initial D s₀)
    (hl : ∀ t ∈ tr, t.label.Peaceful D ∧ t.label.DepositsTo M p)
    (hcover : dust s M = 0 ∨ owed s M ≤ poolAmount D s M p)
    (hrun' : Run (Step D T) s tr' s') (hl' : ∀ t ∈ tr', t.label.Orderly D M p) :
    owed s' M ≤ poolAmount D s' M p ∧
      (∀ ctx v info, SettleVault.Ready D s' ctx v info → v.collateralMint = M →
        ctx.poolTokenAccount = p → ∃ u, settleVault D T ctx s' = .ok u ∧
          u.ledger.amount ctx.beneficiaryTokenAccount +
              (if ctx.beneficiaryTokenAccount = p then
                v.collateralAmount - info.payout v.shortAmount else 0) =
            s'.ledger.amount ctx.beneficiaryTokenAccount +
              (v.collateralAmount - info.payout v.shortAmount)) ∧
      ∀ ctx info n, Redeem.Presented D s' ctx info n → info.collateralMint = M →
        ctx.poolTokenAccount = p → ∃ u, redeem D T ctx n s' = .ok u ∧
          u.ledger.amount ctx.redeemerCollateralAccount +
              (if ctx.redeemerCollateralAccount = p then info.payout n else 0) =
            s'.ledger.amount ctx.redeemerCollateralAccount + info.payout n := by
  have hcalm := calm_of_run hrun h₀ fun t ht ↦ (hl t ht).1
  have hone : owed s M ≤ poolAmount D s M p + dust s M := by
    refine owed_le_of_covered hcalm ?_
    rw [← history_paidBy hrun h₀ fun t ht ↦ (hl t ht).1]
    exact obligations_le_poolAmount hT hrun h₀ fun t ht ↦ (hl t ht).2
  have hstart : Standing D M p s :=
    ⟨hcalm, pricedAfterExpiry_of_run hrun h₀, by rw [Covers]; omega⟩
  have hs := hstart.of_run hT hrun' hl'
  refine ⟨hs.covers, ?_, ?_⟩
  · rintro ctx v info hready rfl rfl
    refine settleVault_succeeds hT hlive hs.calm.wellFormed hready ?_
    have hpay := (returned_le_owed hready).trans hs.covers
    rwa [poolAmount, if_pos hready.pool] at hpay
  · rintro ctx info n hpresented rfl rfl
    have hw := hs.calm.wellFormed
    obtain ⟨m, hm⟩ := hpresented.computable hw hs.calm.series
    obtain ⟨u, hu⟩ := redeem_succeeds hlive hburn hw hm (hpresented.ready hs)
    exact ⟨u, hu, amount_of_redeem hT hw hu hpresented.info_eq⟩

/-- User `1` deposits `8`, mints `200`, and the series expires in the money. -/
def sampleDue : List Action :=
  sampleSetup ++ [sampleDeposit 0 12 8, sampleMint 0 200, .tick 100,
    .call (.setExpiryPrice ⟨20, ⟨10, 100, 7, true⟩, 1⟩)]

/-- The vault is settled, and half of the oTokens are redeemed. -/
def sampleClaims : List Action :=
  [.call (.settleVault ⟨⟨1, 0⟩, 20, 12, 10, 11, sampleDeployment.poolVaultAuth 10, 1⟩),
   .call (.redeem ⟨20, 20, 31, 11, 12, 10, sampleDeployment.poolVaultAuth 10, 1⟩ 100)]

/-- Then the other half can be redeemed too. -/
theorem no_bank_run_sample : ∃ u, redeem sampleDeployment splToken
    ⟨20, 20, 31, 11, 12, 10, sampleDeployment.poolVaultAuth 10, 1⟩ 100
    (Run.playState (Action.next sampleDeployment splToken) (sampleRun sampleDue) sampleClaims) =
      .ok u := by
  have hrun : Run (Step sampleDeployment splToken) sampleState (sampleTrace sampleDue)
      (sampleRun sampleDue) := sampleRun_run (by decide +kernel) (by decide +kernel)
  have hall : sampleClaims.all Action.bySampleUser = true := by decide +kernel
  have hrun' := run_of_script (D := sampleDeployment) (T := splToken) (s := sampleRun sampleDue)
    (fun a h ↦ Action.allowed_of_bySampleUser (List.all_eq_true.mp hall a h)) (by decide +kernel)
  have hdue := (no_bank_run (M := 10) (p := 12) splToken_plain splToken_live splToken_burnLive hrun
    sampleState_initial (by decide +kernel) (.inl (by decide +kernel)) hrun'
    (by decide +kernel)).2.2
  obtain ⟨u, hu, -⟩ := hdue ⟨20, 20, 31, 11, 12, 10, sampleDeployment.poolVaultAuth 10, 1⟩
    ⟨20, 10, 15, 10, 5, 100, false, 6, 7⟩ 100
    { config := ⟨⟨1, 0, false, false⟩, by decide +kernel, rfl⟩
      info_eq := by decide +kernel
      info_seed := rfl
      otoken := ⟨⟨20, 1, 100, none, 0⟩, by decide +kernel, rfl, rfl, by decide, by decide⟩
      collateral := ⟨⟨10, 1, 999999, none, 0⟩, by decide +kernel, rfl, rfl⟩
      pool := by decide +kernel
      mint := ⟨⟨none, 1000000, 6⟩, by decide +kernel⟩
      mint_key := rfl
      authority := rfl
      amount_pos := by decide
      expired := by decide +kernel
      priced := by decide } rfl rfl
  exact ⟨u, hu⟩

end Controller

end OptionsProtocol
