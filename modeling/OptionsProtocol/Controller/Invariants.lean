import OptionsProtocol.Controller.Machine

/-!
# Vaults, series, and the collateral behind them

The structural invariants of the controller. A step leaves the vaults as they were, opens one, or
changes one; it leaves the series as they were, registers one, or gives one its price. From these
two readings of a step follow the lifetime of a vault (its terms never change, its amounts only
grow, a settled vault is frozen) and the invariant that matters later on: whatever a vault has
minted is covered by its collateral, under the terms of a registered series in the same asset.
-/

namespace OptionsProtocol

namespace Controller

open Except

variable {D : Deployment} {T : TokenProgram} {s s' s₀ : State} {l : Label}
  {tr : List (Transition State Label)}

/-! ## What one step does to the vaults -/

/-- A vault as `open_vault` creates it. -/
def Vault.fresh (k : VaultKey) (collateralMint beneficiary : Pubkey) : Vault :=
  { owner := k.owner, vaultId := k.vaultId, collateralMint, collateralAmount := 0
    otokenMint := Pubkey.default, shortAmount := 0, settled := false, beneficiary }

/-- How a step changes an existing vault, next to the series `infos`. -/
inductive Vault.Change (infos : Store Pubkey OTokenInfo) (v : Vault) : Vault → Prop
  | deposited (n : ℕ) : Vault.Change infos v { v with collateralAmount := v.collateralAmount + n }
  | minted {o : Pubkey} {n : ℕ} {info : OTokenInfo} (hpos : 0 < n)
      (hbound : v.otokenMint = Pubkey.default ∨ v.otokenMint = o)
      (hi : infos.lookup o = some info) (hm : info.collateralMint = v.collateralMint)
      (hc : info.Computable (v.shortAmount + n))
      (hle : info.required (v.shortAmount + n) ≤ v.collateralAmount) :
      Vault.Change infos v { v with otokenMint := o, shortAmount := v.shortAmount + n }
  | closed : Vault.Change infos v { v with settled := true }

/-- **The vaults after a step.** Only an unsettled vault is ever changed. -/
theorem Move.vaults (h : Move D T s l s') :
    s'.vaults = s.vaults ∨
    (∃ k c b, s.vaults.lookup k = none ∧ s'.vaults = s.vaults.insert k (Vault.fresh k c b)) ∨
    (∃ k v v', s.vaults.lookup k = some v ∧ v.settled = false ∧ v.Change s.otokenInfos v' ∧
      s'.vaults = s.vaults.insert k v') := by
  cases h with
  | administered _ h => exact .inl h.vaults_eq
  | opened h => exact .inr (.inl ⟨_, _, _, h.fresh, by rw [h.state_eq]; rfl⟩)
  | deposited _ h =>
    exact .inr (.inr ⟨_, _, _, h.vault_eq, h.unsettled, .deposited _, by rw [h.state_eq]⟩)
  | minted h =>
    refine .inr (.inr ⟨_, _, _, h.vault_eq, h.unsettled, .minted h.amount_pos h.bound h.info_eq
      h.collateral_eq h.computable h.covered, ?_⟩)
    rw [h.state_eq]
  | settled h =>
    exact .inr (.inr ⟨_, _, _, h.vault_eq, h.unsettled, .closed, by rw [h.state_eq]⟩)
  | redeemed _ h => exact .inl (by rw [h.state_eq])
  | withdrawn h =>
    exact .inr (.inr ⟨_, _, _, h.vault_eq, h.unsettled, .closed, by rw [h.state_eq]⟩)
  | registered _ h => exact .inl (by rw [h.state_eq])
  | priced h => exact .inl (by rw [h.state_eq])
  | token _ => exact .inl rfl
  | tick _ => exact .inl rfl
  | created _ _ => exact .inl rfl

/-- What never changes about a vault, what only grows, and what is frozen. -/
structure Vault.Later (v v' : Vault) : Prop where
  owner : v'.owner = v.owner
  vaultId : v'.vaultId = v.vaultId
  collateralMint : v'.collateralMint = v.collateralMint
  beneficiary : v'.beneficiary = v.beneficiary
  collateral_le : v.collateralAmount ≤ v'.collateralAmount
  short_le : v.shortAmount ≤ v'.shortAmount
  otokenMint : v.otokenMint ≠ Pubkey.default → v'.otokenMint = v.otokenMint
  settled : v.settled = true → v' = v

theorem Vault.Later.refl (v : Vault) : v.Later v :=
  ⟨rfl, rfl, rfl, rfl, le_rfl, le_rfl, fun _ ↦ rfl, fun _ ↦ rfl⟩

theorem Vault.Later.trans {v v' v'' : Vault} (h : v.Later v') (h' : v'.Later v'') :
    v.Later v'' where
  owner := h'.owner.trans h.owner
  vaultId := h'.vaultId.trans h.vaultId
  collateralMint := h'.collateralMint.trans h.collateralMint
  beneficiary := h'.beneficiary.trans h.beneficiary
  collateral_le := h.collateral_le.trans h'.collateral_le
  short_le := h.short_le.trans h'.short_le
  otokenMint hne := (h'.otokenMint (by rwa [h.otokenMint hne])).trans (h.otokenMint hne)
  settled hs := by
    obtain rfl := h.settled hs
    exact h'.settled hs

theorem Vault.Change.later {infos : Store Pubkey OTokenInfo} {v v' : Vault}
    (h : v.Change infos v') (hs : v.settled = false) : v.Later v' := by
  have hfrozen : ∀ {w : Vault}, v.settled = true → w = v := fun ht ↦ by simp [hs] at ht
  cases h with
  | deposited n =>
    exact ⟨rfl, rfl, rfl, rfl, Nat.le_add_right _ _, le_rfl, fun _ ↦ rfl, hfrozen⟩
  | minted hpos hbound =>
    refine ⟨rfl, rfl, rfl, rfl, le_rfl, Nat.le_add_right _ _, fun hne ↦ ?_, hfrozen⟩
    exact (hbound.resolve_left hne).symm
  | closed => exact ⟨rfl, rfl, rfl, rfl, le_rfl, le_rfl, fun _ ↦ rfl, hfrozen⟩

theorem Move.vault_later (h : Move D T s l s') {k : VaultKey} {v : Vault}
    (hv : s.vaults.lookup k = some v) : ∃ v', s'.vaults.lookup k = some v' ∧ v.Later v' := by
  rcases h.vaults with heq | ⟨k₁, c, b, hnone, heq⟩ | ⟨k₁, w, w', hw, hs, hc, heq⟩
  · exact ⟨v, by rw [heq, hv], .refl v⟩
  · have hne : k ≠ k₁ := by
      rintro rfl
      rw [hnone] at hv
      exact absurd hv (by simp)
    exact ⟨v, by rw [heq, Finmap.lookup_insert_of_ne _ hne, hv], .refl v⟩
  · by_cases hk : k = k₁
    · subst hk
      rw [hw, Option.some.injEq] at hv
      subst hv
      exact ⟨w', by rw [heq, Finmap.lookup_insert], hc.later hs⟩
    · exact ⟨v, by rw [heq, Finmap.lookup_insert_of_ne _ hk, hv], .refl v⟩

/-! ## What one step does to the series -/

/-- A series keeps its terms, and its price once it has one. -/
def OTokenInfo.Later (info info' : OTokenInfo) : Prop :=
  info' = info ∨ info.expiryPrice = 0 ∧ ∃ p, 0 < p ∧ info' = { info with expiryPrice := p }

theorem OTokenInfo.Later.refl (info : OTokenInfo) : info.Later info := .inl rfl

theorem OTokenInfo.Later.trans {i i' i'' : OTokenInfo} (h : i.Later i') (h' : i'.Later i'') :
    i.Later i'' := by
  rcases h with rfl | ⟨h0, p, hp, rfl⟩
  · exact h'
  · rcases h' with rfl | ⟨h0', -⟩
    · exact .inr ⟨h0, p, hp, rfl⟩
    · exact absurd h0' hp.ne'

theorem OTokenInfo.Later.eq_of_priced {info info' : OTokenInfo} (h : info.Later info')
    (hp : 0 < info.expiryPrice) : info' = info :=
  h.resolve_right fun hc ↦ hp.ne' hc.1

theorem OTokenInfo.Later.terms {info info' : OTokenInfo} (h : info.Later info') :
    info'.otokenMint = info.otokenMint ∧ info'.collateralMint = info.collateralMint ∧
      info'.required = info.required ∧ info'.Computable = info.Computable := by
  rcases h with rfl | ⟨-, p, -, rfl⟩
  · exact ⟨rfl, rfl, rfl, rfl⟩
  · exact ⟨rfl, rfl, rfl, rfl⟩

/-- **The series after a step.** -/
theorem Move.otokenInfos (h : Move D T s l s') :
    s'.otokenInfos = s.otokenInfos ∨
    (∃ o info, s.otokenInfos.lookup o = none ∧
      (info.otokenMint = o ∧ D.IsOtokenMint o ∧ info.collateralMint ≠ o) ∧
      info.expiryPrice = 0 ∧ s'.otokenInfos = s.otokenInfos.insert o info) ∨
    (∃ o info p, s.otokenInfos.lookup o = some info ∧ info.expiryPrice = 0 ∧ 0 < p ∧
      s'.otokenInfos = s.otokenInfos.insert o { info with expiryPrice := p }) := by
  cases h with
  | administered _ h => exact .inl h.otokenInfos_eq
  | opened h => exact .inl (by rw [h.state_eq])
  | deposited _ h => exact .inl (by rw [h.state_eq])
  | minted h => exact .inl (by rw [h.state_eq])
  | settled h => exact .inl (by rw [h.state_eq])
  | redeemed _ h => exact .inl (by rw [h.state_eq])
  | withdrawn h => exact .inl (by rw [h.state_eq])
  | registered hm h =>
    exact .inr (.inl ⟨_, _, h.fresh, ⟨h.mint_eq, hm⟩, h.unpriced, by rw [h.state_eq]⟩)
  | priced h =>
    exact .inr (.inr ⟨_, _, _, h.info_eq, h.unpriced, h.price_pos, by rw [h.state_eq]⟩)
  | token _ => exact .inl rfl
  | tick _ => exact .inl rfl
  | created _ _ => exact .inl rfl

/-- **Where a series comes from**: it was there, it was just registered, or its price was just copied from
the oracle's account. -/
theorem Move.info_cases (h : Move D T s l s') {o : Pubkey} {info : OTokenInfo}
    (hi : s'.otokenInfos.lookup o = some info) :
    s.otokenInfos.lookup o = some info ∨
    (∃ ctx, l = .call (.createOtokenInfo ctx) ∧ o = ctx.otokenMint ∧
      CreateOTokenInfo.Effect s ctx info s') ∨
    ∃ ctx info₀, l = .call (.setExpiryPrice ctx) ∧ o = ctx.otokenInfo ∧
      SetExpiryPrice.Effect s ctx info₀ s' ∧
      info = { info₀ with expiryPrice := ctx.oracleExpiryPrice.price } := by
  have hsame : s'.otokenInfos = s.otokenInfos → s.otokenInfos.lookup o = some info := by
    intro heq
    rw [← heq, hi]
  cases h with
  | administered _ h => exact .inl (hsame h.otokenInfos_eq)
  | opened h => exact .inl (hsame (by rw [h.state_eq]))
  | deposited _ h => exact .inl (hsame (by rw [h.state_eq]))
  | minted h => exact .inl (hsame (by rw [h.state_eq]))
  | settled h => exact .inl (hsame (by rw [h.state_eq]))
  | redeemed _ h => exact .inl (hsame (by rw [h.state_eq]))
  | withdrawn h => exact .inl (hsame (by rw [h.state_eq]))
  | @registered ctx _ _ _ h =>
    have hstate := h.state_eq
    rw [hstate] at hi
    rcases Store.lookup_insert_eq_some.mp hi with ⟨ho, rfl⟩ | ⟨-, hold⟩
    · exact .inr (.inl ⟨ctx, rfl, ho, h⟩)
    · exact .inl hold
  | @priced ctx info₀ _ h =>
    have hstate := h.state_eq
    rw [hstate] at hi
    rcases Store.lookup_insert_eq_some.mp hi with ⟨ho, rfl⟩ | ⟨-, hold⟩
    · exact .inr (.inr ⟨ctx, info₀, rfl, ho, h, rfl⟩)
    · exact .inl hold
  | token _ => exact .inl (hsame rfl)
  | tick _ => exact .inl (hsame rfl)
  | created _ _ => exact .inl (hsame rfl)

theorem Move.clock_le (h : Move D T s l s') : s.clock ≤ s'.clock := by
  cases h with
  | administered _ h => exact h.clock_eq.ge
  | opened h => rw [h.state_eq]
  | deposited _ h => rw [h.state_eq]
  | minted h => rw [h.state_eq]
  | settled h => rw [h.state_eq]
  | redeemed _ h => rw [h.state_eq]
  | withdrawn h => rw [h.state_eq]
  | registered _ h => rw [h.state_eq]
  | priced h => rw [h.state_eq]
  | token _ => exact le_rfl
  | tick h => exact h
  | created _ _ => exact le_rfl

theorem Move.info_later (h : Move D T s l s') {o : Pubkey} {info : OTokenInfo}
    (hi : s.otokenInfos.lookup o = some info) :
    ∃ info', s'.otokenInfos.lookup o = some info' ∧ info.Later info' := by
  rcases h.otokenInfos with heq | ⟨o₁, j, hnone, -, -, heq⟩ | ⟨o₁, j, p, hj, h0, hp, heq⟩
  · exact ⟨info, by rw [heq, hi], .refl info⟩
  · have hne : o ≠ o₁ := by
      rintro rfl
      rw [hnone] at hi
      exact absurd hi (by simp)
    exact ⟨info, by rw [heq, Finmap.lookup_insert_of_ne _ hne, hi], .refl info⟩
  · by_cases ho : o = o₁
    · subst ho
      rw [hj, Option.some.injEq] at hi
      subst hi
      exact ⟨_, by rw [heq, Finmap.lookup_insert], .inr ⟨h0, p, hp, rfl⟩⟩
    · exact ⟨info, by rw [heq, Finmap.lookup_insert_of_ne _ ho, hi], .refl info⟩

/-! ## The invariant -/

/-- A registered series in the vault's asset, and collateral for everything the vault has minted. -/
def Vault.Backed (infos : Store Pubkey OTokenInfo) (v : Vault) : Prop :=
  ∃ info, infos.lookup v.otokenMint = some info ∧ info.collateralMint = v.collateralMint ∧
    info.Computable v.shortAmount ∧ info.required v.shortAmount ≤ v.collateralAmount

/-- What holds of the vault stored at `k`. -/
structure Vault.Ok (infos : Store Pubkey OTokenInfo) (k : VaultKey) (v : Vault) : Prop where
  key : k = ⟨v.owner, v.vaultId⟩
  /-- A vault is bound to a series exactly when it has minted. -/
  bound : v.otokenMint ≠ Pubkey.default ↔ 0 < v.shortAmount
  backed : 0 < v.shortAmount → v.Backed infos

/-- The invariant of every reachable state. -/
structure WellFormed (D : Deployment) (s : State) : Prop where
  vault : ∀ {k v}, s.vaults.lookup k = some v → v.Ok s.otokenInfos k
  /-- A series is stored under its mint, which is not its collateral. -/
  info : ∀ {o info}, s.otokenInfos.lookup o = some info →
    info.otokenMint = o ∧ D.IsOtokenMint o ∧ info.collateralMint ≠ o
  /-- A vault that `settle_vault` closed is settled, and its series has its price. -/
  closed : ∀ {k}, ClosedBySettle s k → ∃ v info, s.vaults.lookup k = some v ∧ v.settled = true ∧
    0 < v.shortAmount ∧ s.otokenInfos.lookup v.otokenMint = some info ∧ 0 < info.expiryPrice
  conserved : s.ledger.Conserved
  undelegated : s.ledger.Undelegated D.IsControllerPda

theorem not_closedBySettle_of_log_eq_nil (h : s.log = []) (k : VaultKey) :
    ¬ClosedBySettle s k := by
  rw [ClosedBySettle, h]
  exact Bool.false_ne_true

theorem Initial.wellFormed (h : Initial D s) : WellFormed D s where
  vault hv := by
    rw [h.vaults] at hv
    exact absurd hv (by simp)
  info hi := by
    rw [h.otokenInfos] at hi
    exact absurd hi (by simp)
  closed hc := absurd hc (not_closedBySettle_of_log_eq_nil h.log _)
  conserved := h.conserved
  undelegated := h.undelegated

theorem Vault.Backed.mono {infos infos' : Store Pubkey OTokenInfo} {v : Vault}
    (h : v.Backed infos) (hl : ∀ {o info}, infos.lookup o = some info →
      ∃ info', infos'.lookup o = some info' ∧ info.Later info') : v.Backed infos' := by
  obtain ⟨info, hi, hm, hc, hle⟩ := h
  obtain ⟨info', hi', hlater⟩ := hl hi
  obtain ⟨-, hm', hr, hc'⟩ := hlater.terms
  exact ⟨info', hi', hm'.trans hm, by rwa [hc'], by rwa [hr]⟩

/-- **A change keeps a vault in order.** Deposits add to the collateral, mints have just checked it,
and closing touches neither amount. -/
theorem Vault.Change.ok {infos : Store Pubkey OTokenInfo} {k : VaultKey} {v v' : Vault}
    (hinfo : ∀ {o info}, infos.lookup o = some info → o ≠ Pubkey.default)
    (h : v.Change infos v') (hok : v.Ok infos k) : v'.Ok infos k := by
  cases h with
  | deposited n =>
    refine ⟨hok.key, hok.bound, fun hpos ↦ ?_⟩
    obtain ⟨info, hi, hm, hc, hle⟩ := hok.backed hpos
    exact ⟨info, hi, hm, hc, hle.trans (Nat.le_add_right _ _)⟩
  | minted hpos hbound hi hm hc hle =>
    exact ⟨hok.key, iff_of_true (hinfo hi) (Nat.add_pos_right _ hpos), fun _ ↦ ⟨_, hi, hm, hc, hle⟩⟩
  | closed => exact ⟨hok.key, hok.bound, hok.backed⟩

/-- The log only grows, and only `settle_vault` records that it closed a vault. -/
theorem Move.log (h : Move D T s l s') : ∃ es, s'.log = s.log ++ es ∧
    ∀ e ∈ es, ∀ k, Event.settles k e = true → ∃ ctx v info pool ben L,
      l = .call (.settleVault ctx) ∧ SettleVault.Effect D T s ctx v info pool ben L s' ∧
        k = ⟨v.owner, v.vaultId⟩ := by
  have hquiet : ∀ {es : List Event}, (∀ e ∈ es, ∀ k, Event.settles k e = false) →
      ∀ e ∈ es, ∀ k, Event.settles k e = true → ∃ ctx v info pool ben L,
        l = .call (.settleVault ctx) ∧ SettleVault.Effect D T s ctx v info pool ben L s' ∧
          k = ⟨v.owner, v.vaultId⟩ := by
    intro es hes e he k hk
    rw [hes e he k] at hk
    exact absurd hk Bool.false_ne_true
  cases h with
  | administered _ h =>
    obtain ⟨es, hlog, hes⟩ := h.log_eq
    refine ⟨es, hlog, hquiet fun e he k ↦ ?_⟩
    have hadmin := hes e he
    cases e with
    | controllerInitialized _ => rfl
    | systemPartiallyPaused _ => rfl
    | systemFullyPaused _ => rfl
    | _ => exact absurd hadmin id
  | opened h => exact ⟨_, by rw [h.state_eq], hquiet (by simp [Event.settles])⟩
  | deposited _ h => exact ⟨_, by rw [h.state_eq], hquiet (by simp [Event.settles])⟩
  | minted h => exact ⟨_, by rw [h.state_eq], hquiet (by simp [Event.settles])⟩
  | redeemed _ h => exact ⟨_, by rw [h.state_eq], hquiet (by simp [Event.settles])⟩
  | withdrawn h => exact ⟨_, by rw [h.state_eq], hquiet (by simp [Event.settles])⟩
  | registered _ h => exact ⟨[], by rw [h.state_eq, List.append_nil], by simp⟩
  | priced h => exact ⟨[], by rw [h.state_eq, List.append_nil], by simp⟩
  | token _ => exact ⟨[], (List.append_nil _).symm, by simp⟩
  | tick _ => exact ⟨[], (List.append_nil _).symm, by simp⟩
  | created _ _ => exact ⟨[], (List.append_nil _).symm, by simp⟩
  | @settled ctx v info pool ben L _ h =>
    refine ⟨_, by rw [h.state_eq], fun e he k hk ↦ ?_⟩
    rw [List.mem_singleton] at he
    rw [he, Event.settles, decide_eq_true_eq] at hk
    exact ⟨ctx, v, info, pool, ben, L, rfl, h, by rw [hk.1, hk.2]⟩

theorem Move.closedBySettle_mono (h : Move D T s l s') {k : VaultKey} (hc : ClosedBySettle s k) :
    ClosedBySettle s' k := by
  obtain ⟨es, hlog, -⟩ := h.log
  rw [ClosedBySettle, hlog, List.any_append, Bool.or_eq_true]
  exact .inl hc

theorem Move.closedBySettle (h : Move D T s l s') {k : VaultKey} (hc : ClosedBySettle s' k) :
    ClosedBySettle s k ∨ ∃ ctx v info pool ben L, l = .call (.settleVault ctx) ∧
      SettleVault.Effect D T s ctx v info pool ben L s' ∧ k = ⟨v.owner, v.vaultId⟩ := by
  obtain ⟨es, hlog, hes⟩ := h.log
  rw [ClosedBySettle, hlog, List.any_append, Bool.or_eq_true] at hc
  refine hc.imp id fun hany ↦ ?_
  obtain ⟨e, he, hk⟩ := List.any_eq_true.mp hany
  exact hes e he k hk

/-- **The invariant is inductive.** -/
theorem Move.wellFormed (hw : WellFormed D s) (h : Move D T s l s') : WellFormed D s' where
  conserved := h.conserved hw.conserved
  undelegated := h.undelegated hw.undelegated
  info {o info} hi := by
    rcases h.otokenInfos with heq | ⟨o₁, j, -, hj, -, heq⟩ | ⟨o₁, j, p, hj, -, -, heq⟩
    · rw [heq] at hi
      exact hw.info hi
    · rw [heq] at hi
      rcases Store.lookup_insert_eq_some.mp hi with ⟨rfl, rfl⟩ | ⟨-, hi⟩
      · exact hj
      · exact hw.info hi
    · rw [heq] at hi
      rcases Store.lookup_insert_eq_some.mp hi with ⟨rfl, rfl⟩ | ⟨-, hi⟩
      · have hterms := hw.info hj
        exact hterms
      · exact hw.info hi
  vault {k v} hv := by
    have hinfo : ∀ {o info}, s.otokenInfos.lookup o = some info → o ≠ Pubkey.default := by
      rintro o info hi rfl
      exact D.otokenMint_ne_default (hw.info hi).2.1
    -- the vault is in order next to the old series
    have hok : v.Ok s.otokenInfos k := by
      rcases h.vaults with heq | ⟨k₁, c, b, -, heq⟩ | ⟨k₁, w, w', hw', -, hc, heq⟩
      · rw [heq] at hv
        exact hw.vault hv
      · rw [heq] at hv
        rcases Store.lookup_insert_eq_some.mp hv with ⟨rfl, rfl⟩ | ⟨-, hv⟩
        · exact ⟨rfl, by simp [Vault.fresh], by simp [Vault.fresh]⟩
        · exact hw.vault hv
      · rw [heq] at hv
        rcases Store.lookup_insert_eq_some.mp hv with ⟨rfl, rfl⟩ | ⟨-, hv⟩
        · exact hc.ok hinfo (hw.vault hw')
        · exact hw.vault hv
    exact ⟨hok.key, hok.bound, fun hpos ↦ (hok.backed hpos).mono h.info_later⟩
  closed {k} hc := by
    rcases h.closedBySettle hc with hc | ⟨ctx, v, info, pool, ben, L, -, he, rfl⟩
    · obtain ⟨v, info, hv, hset, hpos, hi, hp⟩ := hw.closed hc
      obtain ⟨v', hv', hl⟩ := h.vault_later hv
      obtain ⟨info', hi', hl'⟩ := h.info_later hi
      obtain rfl := hl.settled hset
      obtain rfl := hl'.eq_of_priced hp
      exact ⟨v', info', hv', hset, hpos, hi', hp⟩
    · rw [he.state_eq, he.key_eq]
      exact ⟨_, info, Finmap.lookup_insert _, rfl, he.short_pos, he.info_eq, he.priced⟩

theorem wellFormed_of_run (hrun : Run (Step D T) s₀ tr s) (h₀ : Initial D s₀) : WellFormed D s :=
  hrun.invariant h₀.wellFormed fun _ _ _ hw hs ↦ hs.move.wellFormed hw

/-- **After it is settled, no instruction changes a vault.** -/
theorem settled_of_run (hrun : Run (Step D T) s₀ tr s) {k : VaultKey} {v : Vault}
    (hv : s₀.vaults.lookup k = some v) (hs : v.settled = true) : s.vaults.lookup k = some v := by
  refine hrun.invariant (I := fun s ↦ s.vaults.lookup k = some v) hv fun s l s' hv hstep ↦ ?_
  obtain ⟨v', hv', hl⟩ := hstep.move.vault_later hv
  rw [hv', hl.settled hs]

/-! ## Settlement of a collateralised vault -/

/-- No arithmetic failure. -/
def NotArithmetic (e : Error) : Prop := e ≠ .error .mathOverflow ∧ e ≠ .panic

/-- Settling a covered vault never runs into arithmetic: the payout is computed by the function that
computed the requirement, and is at most the requirement. -/
theorem settleVault_failsOnly {ctx : SettleVault} {v : Vault}
    (hv : s.vaults.lookup ctx.vault = some v) (hb : v.Backed s.otokenInfos) :
    FailsOnly NotArithmetic (settleVault D T ctx s) := by
  have hne : ∀ {e : ControllerError}, e ≠ .mathOverflow → NotArithmetic (.error e) :=
    fun h ↦ ⟨fun he ↦ h (Failure.error.inj he), by simp⟩
  have han : ∀ {e : AnchorError}, NotArithmetic (.anchor e) := ⟨by simp, by simp⟩
  unfold settleVault loadConfig loadVault loadOtokenInfo loadTokenAccount loadMint
  refine .fromOption_bind han fun config _ ↦ .fromOption_bind han fun vault hvault ↦ ?_
  refine .fromOption_bind han fun info hinfo ↦ .fromOption_bind han fun pool _ ↦ ?_
  refine .fromOption_bind han fun mint _ ↦ .fromOption_bind han fun beneficiary _ ↦ ?_
  refine .require_bind han fun _ ↦ .require_bind han fun _ ↦ ?_
  refine .require_bind han fun hseed ↦ .require_bind (hne (by decide)) fun _ ↦ ?_
  refine .require_bind (hne (by decide)) fun _ ↦ .require_bind (hne (by decide)) fun _ ↦ ?_
  refine .require_bind (hne (by decide)) fun _ ↦ .require_bind (hne (by decide)) fun _ ↦ ?_
  refine .require_bind (hne (by decide)) fun _ ↦ .require_bind han fun _ ↦ ?_
  refine .require_bind (hne (by decide)) fun _ ↦ .require_bind (hne (by decide)) fun _ ↦ ?_
  refine .require_bind (hne (by decide)) fun _ ↦ .require_bind (hne (by decide)) fun _ ↦ ?_
  refine .require_bind (hne (by decide)) fun _ ↦ ?_
  -- from here on the invariant applies
  obtain ⟨info', hi', -, hc, hle⟩ := hb
  obtain rfl : v = vault := by rw [hv, Option.some.injEq] at hvault; exact hvault
  obtain rfl : info' = info := by rw [← hseed, hinfo, Option.some.injEq] at hi'; exact hi'.symm
  have hpay : getPayout info'.strikePrice info'.expiryPrice info'.isPut info'.collateralDecimals
      v.shortAmount = .ok (info'.payout v.shortAmount) := getPayout_eq_ok.mpr ⟨fun _ ↦ hc, rfl⟩
  have hcover : info'.payout v.shortAmount ≤ v.collateralAmount :=
    (info'.payout_le_required _).trans hle
  refine .bind (.of_ok hpay) fun payout hp ↦ ?_
  obtain rfl : info'.payout v.shortAmount = payout := by rw [hpay] at hp; exact Except.ok.inj hp
  refine .bind (.fromOption fun hnone ↦ ?_) fun ret _ ↦ ?_
  · rw [Checked.sub, if_pos hcover] at hnone
    exact absurd hnone (by simp)
  refine .bind ?_ fun ledger _ ↦ .pure _
  rw [transferIfPositive]
  split
  · exact .fromOption fun _ ↦ ⟨by simp, by simp⟩
  · exact .pure _

/-- **Vaults stay collateralised.** In every reachable state, a vault that has minted names a
registered series in its own asset and holds the collateral that series requires of it; and once
the series has a price, settling the vault does not fail in the payout or in the subtraction, and
releases to the beneficiary at least what exceeds the requirement. -/
theorem vault_collateralised (hrun : Run (Step D T) s₀ tr s) (h₀ : Initial D s₀) {k : VaultKey}
    {v : Vault} (hv : s.vaults.lookup k = some v) (hshort : 0 < v.shortAmount) :
    ∃ info required, s.otokenInfos.lookup v.otokenMint = some info ∧
      info.otokenMint = v.otokenMint ∧ info.collateralMint = v.collateralMint ∧
      getRequiredCollateral info.strikePrice info.isPut info.collateralDecimals v.shortAmount
        = .ok required ∧ required ≤ v.collateralAmount ∧
      (v.settled = false → 0 < info.expiryPrice →
        (∃ payout returned, getPayout info.strikePrice info.expiryPrice info.isPut
          info.collateralDecimals v.shortAmount = .ok payout ∧
          Checked.sub v.collateralAmount payout = some returned ∧
          v.collateralAmount - required ≤ returned) ∧
        ∀ ctx : SettleVault, ctx.vault = k → FailsOnly NotArithmetic (settleVault D T ctx s) ∧
          ∀ s', settleVault D T ctx s = .ok s' → ∃ returned beneficiary d,
            v.collateralAmount - required ≤ returned ∧
            s.ledger.accounts.lookup ctx.beneficiaryTokenAccount = some beneficiary ∧
            beneficiary.owner = v.beneficiary ∧
            transferIfPositive T s.ledger ctx.poolTokenAccount v.collateralMint
              ctx.beneficiaryTokenAccount (D.poolVaultAuth v.collateralMint) returned d
              = .ok s'.ledger) := by
  have hw := wellFormed_of_run hrun h₀
  have hb : v.Backed s.otokenInfos := (hw.vault hv).backed hshort
  have ⟨info, hi, hm, hc, hle⟩ := hb
  have hcover : info.payout v.shortAmount ≤ info.required v.shortAmount :=
    info.payout_le_required _
  refine ⟨info, info.required v.shortAmount, hi, (hw.info hi).1, hm, getRequiredCollateral_ok hc,
    hle, fun _ _ ↦ ⟨⟨info.payout v.shortAmount, v.collateralAmount - info.payout v.shortAmount,
      getPayout_eq_ok.mpr ⟨fun _ ↦ hc, rfl⟩, ?_, by omega⟩, ?_⟩⟩
  · rw [Checked.sub_eq_some]
    omega
  · rintro ctx rfl
    refine ⟨settleVault_failsOnly hv hb, fun s' hs' ↦ ?_⟩
    obtain ⟨v', info', pool, ben, L, he⟩ := settleVault_effect hs'
    obtain rfl : v = v' := by
      have := he.vault_eq
      rwa [hv, Option.some.injEq] at this
    obtain rfl : info = info' := by
      have := he.info_eq
      rwa [hi, Option.some.injEq] at this
    obtain ⟨d, ht⟩ := he.transfer
    refine ⟨v.collateralAmount - info.payout v.shortAmount, ben, d, ?_, he.beneficiary_eq,
      he.beneficiary_owner, ?_⟩
    · exact Nat.sub_le_sub_left hcover _
    · rw [he.state_eq]
      exact ht

/-- A vault with `3` units of collateral that minted `200` oTokens. -/
def sampleCovered : List Action := sampleSetup ++ [sampleDeposit 0 12 3, sampleMint 0 200]

theorem vault_collateralised_sample : ∃ v info required,
    (sampleRun sampleCovered).vaults.lookup ⟨1, 0⟩ = some v ∧ 0 < v.shortAmount ∧
      (sampleRun sampleCovered).otokenInfos.lookup v.otokenMint = some info ∧
      getRequiredCollateral info.strikePrice info.isPut info.collateralDecimals v.shortAmount
        = .ok required ∧ required ≤ v.collateralAmount := by
  have hrun : Run (Step sampleDeployment splToken) sampleState (sampleTrace sampleCovered)
      (sampleRun sampleCovered) :=
    sampleRun_run (by decide +kernel) (by decide +kernel)
  have hv : (sampleRun sampleCovered).vaults.lookup ⟨1, 0⟩ =
      some ⟨1, 0, 10, 3, 20, 200, false, 1⟩ := by decide +kernel
  obtain ⟨info, required, hi, -, -, hr, hle, -⟩ :=
    vault_collateralised hrun sampleState_initial hv (by decide)
  exact ⟨_, info, required, hv, by decide, hi, hr, hle⟩

end Controller

end OptionsProtocol
