import OptionsProtocol.Controller.Series

/-!
# Solvency of a pool

What a pool still owes: to each unsettled vault its collateral, less the payout reserved for what it
minted once the series has a price; and to the holders of each priced series the payout of the
oTokens in circulation.

Vaults are charged one by one and rounded down one by one, while oTokens of different vaults are
interchangeable and may be redeemed together. Rounding the sum once can yield more than rounding
the parts, and the pool is short of exactly that: at most one unit for each rounded vault of a series
after the first. Up to this *dust* a pool that sees no emergency withdrawal can always pay what it
owes, and without rounding it can pay exactly.

The proof compares four sums. The pool holds what unsettled vaults deposited and what settled ones
reserved, less what was redeemed (`pool_accounting`); vault by vault the reservations add up to the
claims of what was minted; and series by series these cover what was redeemed and what is still in
circulation.
-/

namespace OptionsProtocol

namespace Controller

open Except FloorSum

variable {D : Deployment} {T : TokenProgram} {s s' s₀ : State} {l : Label}
  {tr : List (Transition State Label)} {o M : Pubkey}

/-! ## Obligations -/

/-- What unsettled vaults of `M` will get back. -/
def owedToVaults (s : State) (M : Pubkey) : ℕ :=
  Store.total (fun _ v ↦ if v.settled = false ∧ v.collateralMint = M then
    v.collateralAmount - claim s v.otokenMint v.shortAmount else 0) s.vaults

/-- What the oTokens in circulation can redeem in `M`. -/
def owedToHolders (s : State) (M : Pubkey) : ℕ :=
  Store.total (fun o info ↦ if info.collateralMint = M then
    info.claim (s.ledger.supply o) else 0) s.otokenInfos

/-- Everything the pool of `M` still owes. -/
def owed (s : State) (M : Pubkey) : ℕ := owedToVaults s M + owedToHolders s M

/-- `1` if the collateral required for `n` oTokens is rounded. -/
def OTokenInfo.rounded (info : OTokenInfo) (n : ℕ) : ℕ :=
  FloorSum.rounded (scaleNum info.strikePrice info.isPut info.collateralDecimals)
    (scaleDen info.isPut info.collateralDecimals) n

/-- The number of vaults of `o` whose required collateral is rounded. -/
def roundedVaults (s : State) (o : Pubkey) (info : OTokenInfo) : ℕ :=
  Store.total (fun _ v ↦ info.rounded (v.shortOf o)) s.vaults

/-- One unit for each rounded vault after the first, over the series of `M` that expired in the
money. -/
def dust (s : State) (M : Pubkey) : ℕ :=
  Store.total (fun o info ↦ if info.collateralMint = M ∧ 0 < info.expiryPrice ∧
    IsItm info.strikePrice info.expiryPrice info.isPut then roundedVaults s o info - 1 else 0)
    s.otokenInfos

/-! ## Vault by vault, series by series -/

/-- What vaults of `M` have minted, claimed vault by vault. -/
def vaultClaims (s : State) (M : Pubkey) : ℕ :=
  Store.total (fun _ v ↦ if v.collateralMint = M then claim s v.otokenMint v.shortAmount else 0)
    s.vaults

theorem vaultClaims_eq (hw : WellFormed D s) (M : Pubkey) :
    vaultClaims s M = Store.total (fun o info ↦ if info.collateralMint = M then
      Store.total (fun _ v ↦ info.claim (v.shortOf o)) s.vaults else 0) s.otokenInfos := by
  have hin : ∀ (o : Pubkey) (info : OTokenInfo), (if info.collateralMint = M then
      Store.total (fun _ v ↦ info.claim (v.shortOf o)) s.vaults else 0) =
        Store.total (fun _ v ↦ if info.collateralMint = M then info.claim (v.shortOf o) else 0)
          s.vaults := fun o info ↦ by
    by_cases hM : info.collateralMint = M
    · simp only [hM, if_true]
    · simp only [hM, if_false, Store.total_zero]
  simp only [hin]
  rw [Store.total_comm, vaultClaims]
  refine Store.total_congr fun k v hv ↦ ?_
  -- a vault has minted oTokens of one series only
  have hone : ∀ (o : Pubkey) (info : OTokenInfo),
      (if info.collateralMint = M then info.claim (v.shortOf o) else 0) = if o = v.otokenMint then
        (if info.collateralMint = M then info.claim v.shortAmount else 0) else 0 := by
    intro o info
    by_cases ho : o = v.otokenMint
    · rw [if_pos ho, Vault.shortOf, if_pos ho.symm]
    · rw [if_neg ho, Vault.shortOf, if_neg (Ne.symm ho), OTokenInfo.claim_zero, ite_self]
  simp only [hone]
  rw [Store.total_single]
  rcases Nat.eq_zero_or_pos v.shortAmount with h0 | hpos
  · cases hi : s.otokenInfos.lookup v.otokenMint <;> simp [claim, hi, h0]
  · obtain ⟨info, hi, hM, -, -⟩ := (hw.vault hv).backed hpos
    rw [hi, Option.elim_some, claim_eq hi, hM]

theorem claim_mintedTotal_le (s : State) (o : Pubkey) (info : OTokenInfo) :
    info.claim (mintedTotal s o) ≤ Store.total (fun _ v ↦ info.claim (v.shortOf o)) s.vaults +
      if 0 < info.expiryPrice ∧ IsItm info.strikePrice info.expiryPrice info.isPut then
        roundedVaults s o info - 1 else 0 := by
  by_cases hp : 0 < info.expiryPrice
  · by_cases hitm : IsItm info.strikePrice info.expiryPrice info.isPut
    · have key := scale_sum_le
        (c := scaleNum info.strikePrice info.isPut info.collateralDecimals)
        (scaleDen_pos info.isPut info.collateralDecimals)
        (s.vaults.entries.map fun e ↦ Vault.shortOf o e.2)
      rw [Multiset.map_map, Multiset.map_map] at key
      simp only [OTokenInfo.claim, OTokenInfo.payout, payoutOf, hp, hitm, if_true, and_self]
      exact key
    · simp [OTokenInfo.claim, OTokenInfo.payout, payoutOf, hitm]
  · simp [OTokenInfo.claim, hp]

/-- The number of vaults that minted oTokens of `o`. -/
def vaultsOf (s : State) (o : Pubkey) : ℕ :=
  Store.total (fun _ v ↦ if 0 < v.shortOf o then 1 else 0) s.vaults

theorem roundedVaults_le (s : State) (o : Pubkey) (info : OTokenInfo) :
    roundedVaults s o info ≤ vaultsOf s o := by
  refine Store.total_le_total fun _ v _ ↦ ?_
  split
  · rw [OTokenInfo.rounded, FloorSum.rounded]
    split <;> decide
  · rename_i hzero
    rw [Nat.eq_zero_of_not_pos hzero, OTokenInfo.rounded, rounded_zero]

/-- **Pooled, the oTokens of a series yield at most one unit more for each vault after the first** than
claimed vault by vault. -/
theorem claim_mintedTotal_le_vaults (s : State) (o : Pubkey) (info : OTokenInfo) :
    info.claim (mintedTotal s o) ≤
      Store.total (fun _ v ↦ info.claim (v.shortOf o)) s.vaults + (vaultsOf s o - 1) := by
  refine (claim_mintedTotal_le s o info).trans (Nat.add_le_add_left ?_ _)
  split
  · exact Nat.sub_le_sub_right (roundedVaults_le s o info) 1
  · exact Nat.zero_le _

/-! ## Payments -/

/-- What redemptions have paid out of the pool of `M`, series by series. -/
def paidOut (s : State) (M : Pubkey) : ℕ :=
  Store.total (fun o info ↦ if info.collateralMint = M then paidTotal s o else 0) s.otokenInfos

theorem paidBy_eq (s : State) (l : Label) (s' : State) (M : Pubkey) :
    paidBy M ⟨s, l, s'⟩ = Store.total (fun o info ↦ if info.collateralMint = M then
      paidOf o ⟨s, l, s'⟩ else 0) s.otokenInfos := by
  rcases l.notRedeem_or with hl | ⟨ctx, n, rfl⟩
  · simp only [hl.paidOf_eq, ite_self, Store.total_zero]
    unfold paidBy
    split
    · exact absurd ‹_› (hl _ _)
    · rfl
  · have hone : ∀ o info, s.otokenInfos.lookup o = some info →
        (if info.collateralMint = M then paidOf o ⟨s, .call (.redeem ctx n), s'⟩ else 0) =
          if o = ctx.otokenMint then
            (if info.collateralMint = M then info.payout n else 0) else 0 := by
      intro o info hi
      by_cases ho : o = ctx.otokenMint
      · subst ho
        simp [paidOf, hi]
      · simp [paidOf, ho, Ne.symm ho]
    rw [Store.total_congr hone, Store.total_single]
    rfl

theorem Move.paidOut_eq (hok : SeriesOk D s) (h : Move D T s l s') (M : Pubkey) :
    paidOut s' M = paidOut s M + paidBy M ⟨s, l, s'⟩ := by
  have hstay : paidOut s' M = Store.total (fun o info ↦ if info.collateralMint = M then
      paidTotal s' o else 0) s.otokenInfos := by
    rw [paidOut]
    rcases h.otokenInfos with heq | ⟨o, info, hnone, -, -, heq⟩ | ⟨o, info, p, hi, -, -, heq⟩
    · rw [heq]
    · -- nothing was paid for a series that was not registered
      have hzero : paidTotal s' o = 0 := by
        have hle := hok.paid o
        rw [claim, hnone, Option.elim_none, Nat.le_zero] at hle
        rw [h.paidTotal_eq, hle, Nat.zero_add]
        rcases l.notRedeem_or with hl | ⟨ctx, n, rfl⟩
        · exact hl.paidOf_eq
        · by_cases ho : ctx.otokenMint = o
          · subst ho
            simp [paidOf, hnone]
          · simp [paidOf, ho]
      rw [heq, Store.total_insert_of_lookup_eq_none _ _ hnone, hzero, ite_self, Nat.zero_add]
    · rw [heq]
      exact Store.total_insert_eq_self (by rw [hi]; rfl)
  rw [hstay, paidBy_eq, paidOut, ← Store.total_add]
  refine Store.total_congr fun o info _ ↦ ?_
  rw [h.paidTotal_eq]
  split <;> rfl

/-! ## Runs without emergencies -/

/-- The step is an emergency withdrawal. -/
def Label.isEmergency : Label → Bool
  | .call (.emergencyWithdrawVault _) => true
  | _ => false

/-- Without emergency withdrawals, a vault is settled by `settle_vault`. -/
theorem Move.settled_closed (h : Move D T s l s') (hl : l.isEmergency = false)
    (hs : ∀ {k v}, s.vaults.lookup k = some v → v.settled = true → ClosedBySettle s k)
    {k : VaultKey} {v : Vault} (hv : s'.vaults.lookup k = some v) (hset : v.settled = true) :
    ClosedBySettle s' k := by
  have hcount := h.settledCount_eq k
  rw [settledCount, hv, Option.any_some, hset, if_pos rfl] at hcount
  by_cases hbefore : (s.vaults.lookup k).any Vault.settled = true
  · obtain ⟨w, hw, hws⟩ := (Option.any_eq_true _ _).mp hbefore
    exact h.closedBySettle_mono (hs hw hws)
  · -- this very step released the vault
    rw [settledCount, if_neg hbefore] at hcount
    cases h with
    | @settled ctx _ _ _ _ _ _ h =>
      obtain rfl : ctx.vault = k := by
        by_contra hne
        simp [Label.releases, hne] at hcount
      rw [h.key_eq, ClosedBySettle, h.state_eq, List.any_append, Bool.or_eq_true]
      exact .inr (by simp [Event.settles])
    | withdrawn _ => exact absurd hl.symm Bool.false_ne_true
    | administered hix _ => simp [releases_of_isAdministrative hix] at hcount
    | _ => simp [Label.releases] at hcount

/-- The invariant behind solvency. -/
structure Calm (D : Deployment) (s : State) : Prop where
  wellFormed : WellFormed D s
  series : SeriesOk D s
  settled : ∀ {k v}, s.vaults.lookup k = some v → v.settled = true → ClosedBySettle s k

theorem Initial.calm (h : Initial D s) : Calm D s where
  wellFormed := h.wellFormed
  series := h.seriesOk
  settled hv := by
    rw [h.vaults] at hv
    exact absurd hv (by simp)

/-- Steps that solvency is proved for. -/
def Label.Peaceful (D : Deployment) (l : Label) : Prop :=
  l.BindsController D ∧ l.isEmergency = false

instance (D : Deployment) (l : Label) : Decidable (l.Peaceful D) := inferInstanceAs (Decidable (_ ∧ _))

theorem Move.calm (hc : Calm D s) (h : Move D T s l s') (hl : l.Peaceful D) : Calm D s' where
  wellFormed := h.wellFormed hc.wellFormed
  series := h.seriesOk hc.wellFormed hc.series hl.1
  settled := h.settled_closed hl.2 hc.settled

theorem calm_of_run (hrun : Run (Step D T) s₀ tr s) (h₀ : Initial D s₀)
    (hl : ∀ t ∈ tr, t.label.Peaceful D) : Calm D s :=
  Run.invariant_of (Q := fun t ↦ t.label.Peaceful D) h₀.calm
    (fun _ _ _ hI hs hq ↦ hs.move.calm hI hq) hrun hl

theorem history_paidBy (hrun : Run (Step D T) s₀ tr s) (h₀ : Initial D s₀)
    (hl : ∀ t ∈ tr, t.label.Peaceful D) : Run.history (paidBy M) tr = paidOut s M := by
  have hacc := Run.accounting (Q := fun t ↦ t.label.Peaceful D) (fun s ↦ paidOut s M)
    (fun _ ↦ 0) (paidBy M) (fun _ ↦ 0) h₀.calm (fun _ _ _ hI hs hq ↦ hs.move.calm hI hq)
    (fun s l s' hI hs _ ↦ by simpa using hs.move.paidOut_eq hI.series M) hrun hl
  have hzero : paidOut s₀ M = 0 := by rw [paidOut, h₀.otokenInfos]; rfl
  simp only [hzero, Run.history_zero, Nat.add_zero, Nat.zero_add] at hacc
  exact hacc.symm

/-! ## The four sums -/

/-- The claims of the unsettled vaults of `M`. -/
def unsettledClaims (s : State) (M : Pubkey) : ℕ :=
  Store.total (fun _ v ↦ if v.settled = false ∧ v.collateralMint = M then
    claim s v.otokenMint v.shortAmount else 0) s.vaults

theorem claim_le_collateral (hw : WellFormed D s) {k : VaultKey} {v : Vault}
    (hv : s.vaults.lookup k = some v) : claim s v.otokenMint v.shortAmount ≤ v.collateralAmount := by
  rcases Nat.eq_zero_or_pos v.shortAmount with h0 | hpos
  · cases hi : s.otokenInfos.lookup v.otokenMint <;> simp [claim, hi, h0]
  · obtain ⟨info, hi, -, -, hle⟩ := (hw.vault hv).backed hpos
    rw [claim_eq hi]
    exact (info.claim_le_payout _).trans ((info.payout_le_required _).trans hle)

theorem owedToVaults_add (hw : WellFormed D s) (M : Pubkey) :
    owedToVaults s M + unsettledClaims s M = unsettledCollateral s M := by
  rw [owedToVaults, unsettledClaims, unsettledCollateral, ← Store.total_add]
  refine Store.total_congr fun k v hv ↦ ?_
  have hle := claim_le_collateral hw hv
  split <;> omega

theorem reservedPayouts_add (hc : Calm D s) (M : Pubkey) :
    reservedPayouts s M + unsettledClaims s M = vaultClaims s M := by
  rw [reservedPayouts, unsettledClaims, vaultClaims, ← Store.total_add]
  refine Store.total_congr fun k v hv ↦ ?_
  by_cases hM : v.collateralMint = M
  · cases hset : v.settled with
    | false =>
      have hnot : ¬ClosedBySettle s k := fun hcl ↦ by
        obtain ⟨w, -, hw, hws, -⟩ := hc.wellFormed.closed hcl
        rw [hv, Option.some.injEq] at hw
        rw [← hw, hset] at hws
        exact Bool.false_ne_true hws
      simp [hnot, hM]
    | true =>
      have hcl := hc.settled hv hset
      obtain ⟨w, info, hw, -, -, hi, hp⟩ := hc.wellFormed.closed hcl
      obtain rfl : v = w := by rwa [hv, Option.some.injEq] at hw
      have heq : seriesPayout s v = claim s v.otokenMint v.shortAmount := by
        rw [seriesPayout, hi, Option.elim_some, claim_eq hi, OTokenInfo.claim, if_pos hp]
      simp [hcl, hM, heq]
  · simp [hM]

theorem paidOut_add_owedToHolders_le (hc : Calm D s) (M : Pubkey) :
    paidOut s M + owedToHolders s M ≤ vaultClaims s M + dust s M := by
  rw [vaultClaims_eq hc.wellFormed, paidOut, owedToHolders, dust, ← Store.total_add,
    ← Store.total_add]
  refine Store.total_le_total fun o info hi ↦ ?_
  by_cases hM : info.collateralMint = M
  · simp only [hM, if_true, true_and]
    have hpaid : paidTotal s o ≤ info.claim (redeemedTotal s o) := by
      rw [← claim_eq hi]
      exact hc.series.paid o
    have hsup := hc.series.supply (hc.wellFormed.info hi).2.1
    calc paidTotal s o + info.claim (s.ledger.supply o)
        ≤ info.claim (redeemedTotal s o) + info.claim (s.ledger.supply o) :=
          Nat.add_le_add_right hpaid _
      _ ≤ info.claim (redeemedTotal s o + s.ledger.supply o) := info.claim_add_le _ _
      _ ≤ info.claim (mintedTotal s o) := info.claim_mono (by omega)
      _ ≤ _ := claim_mintedTotal_le s o info
  · simp [hM]

/-- Whatever covers the obligations of the vaults, less what was redeemed, covers everything owed up
to dust. -/
theorem owed_le_of_covered (hc : Calm D s) {x : ℕ}
    (h : unsettledCollateral s M + reservedPayouts s M ≤ x + paidOut s M) :
    owed s M ≤ x + dust s M := by
  have hvaults := owedToVaults_add hc.wellFormed M
  have hreserved := reservedPayouts_add hc M
  have hholders := paidOut_add_owedToHolders_le hc M
  rw [owed]
  omega

/-- **A pool is solvent up to dust.** In every state reached without emergency withdrawals, under a
token program that moves what it is asked to and a factory that hands its mints to this controller,
the accounts of the pool of `M` hold everything the pool still owes, less at most one unit for each
vault after the first of a series in the money whose required collateral was rounded. -/
theorem pool_solvent (hT : T.Plain) (hrun : Run (Step D T) s₀ tr s) (h₀ : Initial D s₀)
    (hl : ∀ t ∈ tr, t.label.Peaceful D) (M : Pubkey) :
    owed s M ≤ poolBalance D s M + dust s M := by
  have hbooks := pool_books hT hrun h₀ M
  rw [history_paidBy hrun h₀ hl] at hbooks
  refine owed_le_of_covered (calm_of_run hrun h₀ hl) ?_
  omega

/-- Two vaults without collateral mint `50` oTokens each; the requirement of `50` is rounded down to
nothing, and that of `100` is `1`. The series expires in the money. -/
def sampleDusty : List Action :=
  sampleSetup ++ [sampleMint 0 50, sampleMint 1 50, .tick 100,
    .call (.setExpiryPrice ⟨20, ⟨10, 100, 7, true⟩, 1⟩)]

theorem sampleDusty_run : Run (Step sampleDeployment splToken) sampleState
    (sampleTrace sampleDusty) (sampleRun sampleDusty) :=
  sampleRun_run (by decide +kernel) (by decide +kernel)

theorem sampleDusty_peaceful :
    ∀ t ∈ sampleTrace sampleDusty, t.label.Peaceful sampleDeployment := by decide +kernel

/-- Without the dust the bound fails: an empty pool owes one unit. -/
theorem pool_not_solvent_dusty :
    splToken.Plain ∧ Initial sampleDeployment sampleState ∧
      ∃ tr s, Run (Step sampleDeployment splToken) sampleState tr s ∧
      (∀ t ∈ tr, t.label.Peaceful sampleDeployment) ∧
      poolBalance sampleDeployment s 10 = 0 ∧ owed s 10 = 1 :=
  ⟨splToken_plain, sampleState_initial, _, _, sampleDusty_run, sampleDusty_peaceful,
    by decide +kernel, by decide +kernel⟩

theorem pool_solvent_dusty :
    owed (sampleRun sampleDusty) 10 = 1 ∧ dust (sampleRun sampleDusty) 10 = 1 ∧
      owed (sampleRun sampleDusty) 10 ≤
        poolBalance sampleDeployment (sampleRun sampleDusty) 10 + dust (sampleRun sampleDusty) 10 :=
  ⟨by decide +kernel, by decide +kernel,
    pool_solvent splToken_plain sampleDusty_run sampleState_initial sampleDusty_peaceful 10⟩

end Controller

end OptionsProtocol
