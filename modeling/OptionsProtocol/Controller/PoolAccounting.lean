import OptionsProtocol.Controller.Invariants

/-!
# Pool accounting

All collateral of one asset sits in token accounts of one authority, whichever vault or series it
backs. This module keeps the books of that pool: what its accounts hold, on one side, and on the
other what unsettled vaults have deposited and what settled vaults have left behind for redeemers.
Deposits, settlements, redemptions and emergency withdrawals move both sides by the same amount, and
everything else that reaches the pool is counted as a credit from outside.
-/

namespace OptionsProtocol

namespace Controller

open Except

variable {D : Deployment} {T : TokenProgram} {s s' s₀ : State} {l : Label}
  {tr : List (Transition State Label)} {M : Pubkey}

/-! ## The books -/

/-- Accounts of the pool of `M`, as a test on owner and mint. -/
def poolTest (D : Deployment) (M : Pubkey) (owner mint : Pubkey) : Bool :=
  decide (owner = D.poolVaultAuth M ∧ mint = M)

/-- What all token accounts of the pool of `M` hold together. -/
def poolBalance (D : Deployment) (s : State) (M : Pubkey) : ℕ :=
  s.ledger.balance (D.poolVaultAuth M) M

/-- The payout reserved for what a vault has minted, at the price of its series. -/
def seriesPayout (s : State) (v : Vault) : ℕ :=
  (s.otokenInfos.lookup v.otokenMint).elim 0 fun info ↦ info.payout v.shortAmount

/-- The collateral of the unsettled vaults of `M`. -/
def unsettledCollateral (s : State) (M : Pubkey) : ℕ :=
  Store.total (fun _ v ↦ if v.settled = false ∧ v.collateralMint = M then v.collateralAmount else 0)
    s.vaults

/-- The payouts reserved when vaults of `M` were closed by `settle_vault`. -/
def reservedPayouts (s : State) (M : Pubkey) : ℕ :=
  Store.total (fun k v ↦ if ClosedBySettle s k ∧ v.collateralMint = M then seriesPayout s v else 0)
    s.vaults

/-- What a `redeem` paid out of the pool of `M`. -/
def paidBy (M : Pubkey) (t : Transition State Label) : ℕ :=
  match t.label with
  | .call (.redeem ctx n) => (t.pre.otokenInfos.lookup ctx.otokenMint).elim 0 fun info ↦
      if info.collateralMint = M then info.payout n else 0
  | _ => 0

/-- What a `deposit_collateral` adds to a vault of `M`. -/
def depositedInto (M : Pubkey) (t : Transition State Label) : ℕ :=
  match t.label with
  | .call (.depositCollateral ctx n) => (t.pre.vaults.lookup ctx.vault).elim 0 fun v ↦
      if v.collateralMint = M then n else 0
  | _ => 0

/-- What `settle_vault` and `emergency_withdraw_vault` send to the beneficiary of a vault of `M`. -/
def releasedFrom (M : Pubkey) (t : Transition State Label) : ℕ :=
  match t.label with
  | .call (.settleVault ctx) => (t.pre.vaults.lookup ctx.vault).elim 0 fun v ↦
      if v.collateralMint = M then v.collateralAmount - seriesPayout t.pre v else 0
  | .call (.emergencyWithdrawVault ctx) => (t.pre.vaults.lookup ctx.vault).elim 0 fun v ↦
      if v.collateralMint = M then v.collateralAmount else 0
  | _ => 0

/-- The account belongs to the pool of `M`. -/
def isPoolAccount (D : Deployment) (s : State) (M k : Pubkey) : Bool :=
  (s.ledger.accounts.lookup k).any fun a ↦ poolTest D M a.owner a.mint

/-- Tokens that reach the accounts of the pool of `M` other than by a deposit: oTokens minted into
them when `M` is an oToken itself, collateral returned to a beneficiary that is the pool, and
whatever other users of the token program send. -/
def creditedBy (D : Deployment) (M : Pubkey) (t : Transition State Label) : ℕ :=
  match t.label with
  | .call (.mintOtoken ctx n) => if isPoolAccount D t.pre M ctx.destination then n else 0
  | .call (.settleVault ctx) =>
    if isPoolAccount D t.pre M ctx.beneficiaryTokenAccount then releasedFrom M t else 0
  | .call (.emergencyWithdrawVault ctx) =>
    if isPoolAccount D t.pre M ctx.beneficiaryTokenAccount then releasedFrom M t else 0
  | .token => poolBalance D t.post M - poolBalance D t.pre M
  | _ => 0

theorem poolBalance_def (D : Deployment) (s : State) (M : Pubkey) :
    poolBalance D s M = s.ledger.held (poolTest D M) := rfl

theorem poolTest_self (D : Deployment) (M m : Pubkey) :
    poolTest D M (D.poolVaultAuth m) m = decide (m = M) := by
  by_cases h : m = M
  · subst h
    simp [poolTest]
  · simp [poolTest, h]

theorem poolTest_eq_false {owner : Pubkey} (h : ¬D.IsControllerPda owner) (m : Pubkey) :
    poolTest D M owner m = false := by
  refine decide_eq_false fun hc ↦ h ?_
  rw [hc.1]
  exact D.isControllerPda_poolVaultAuth M

/-! ## Conditional transfers -/

theorem held_of_transferIfPositive (hT : T.Plain) {L L' : Ledger} {src mint dst auth : Pubkey}
    {n d : ℕ} (h : transferIfPositive T L src mint dst auth n d = .ok L') {a b : TokenAccount}
    (ha : L.accounts.lookup src = some a) (hb : L.accounts.lookup dst = some b)
    (p : Pubkey → Pubkey → Bool) :
    L'.held p + (if p a.owner mint then n else 0) =
      L.held p + (if p b.owner mint then n else 0) := by
  rcases transferIfPositive_eq_ok.mp h with ⟨-, ht⟩ | ⟨rfl, rfl⟩
  · exact (hT ht).held_eq ha hb p
  · simp

/-! ## Reservations -/

/-- A vault closed by `settle_vault` keeps what it reserved. -/
theorem seriesPayout_eq_of_closed (hw : WellFormed D s) (h : Move D T s l s') {k : VaultKey}
    {v : Vault} (hv : s.vaults.lookup k = some v) (hc : ClosedBySettle s k) :
    s'.vaults.lookup k = some v ∧ seriesPayout s' v = seriesPayout s v := by
  obtain ⟨w, info, hw', hs, -, hi, hp⟩ := hw.closed hc
  obtain rfl : v = w := by rwa [hv, Option.some.injEq] at hw'
  obtain ⟨v', hv', hl⟩ := h.vault_later hv
  obtain ⟨info', hi', hl'⟩ := h.info_later hi
  obtain rfl := hl'.eq_of_priced hp
  exact ⟨hl.settled hs ▸ hv', by rw [seriesPayout, seriesPayout, hi, hi']⟩

theorem reservedPayouts_eq (hw : WellFormed D s) (h : Move D T s l s')
    (hl : ∀ ctx, l ≠ .call (.settleVault ctx)) :
    reservedPayouts s' M = reservedPayouts s M := by
  have hclosed : ∀ {k}, ClosedBySettle s' k → ClosedBySettle s k := fun hc ↦
    (h.closedBySettle hc).resolve_right fun ⟨ctx, _, _, _, _, _, heq, _⟩ ↦ hl ctx heq
  rw [reservedPayouts, reservedPayouts]
  symm
  refine Store.total_eq_of_lookup (fun k v hv hpos ↦ ?_) fun k v hv hpos ↦ ?_
  · by_cases hc : ClosedBySettle s k ∧ v.collateralMint = M
    · obtain ⟨hv', heq⟩ := seriesPayout_eq_of_closed hw h hv hc.1
      exact ⟨hv', by rw [if_pos hc, if_pos ⟨h.closedBySettle_mono hc.1, hc.2⟩, heq]⟩
    · rw [if_neg hc] at hpos
      exact absurd hpos (Nat.lt_irrefl 0)
  · by_cases hc : ClosedBySettle s' k ∧ v.collateralMint = M
    · obtain ⟨w, -, hw', -⟩ := hw.closed (hclosed hc.1)
      obtain ⟨hv', heq⟩ := seriesPayout_eq_of_closed hw h hw' (hclosed hc.1)
      obtain rfl : v = w := by rwa [hv, Option.some.injEq] at hv'
      exact ⟨hw', by rw [if_pos hc, if_pos ⟨hclosed hc.1, hc.2⟩, heq]⟩
    · rw [if_neg hc] at hpos
      exact absurd hpos (Nat.lt_irrefl 0)

theorem unsettledCollateral_insert {k : VaultKey} {v v' : Vault} {t : State}
    (hv : s.vaults.lookup k = some v) (ht : t.vaults = s.vaults.insert k v') :
    unsettledCollateral t M +
        (if v.settled = false ∧ v.collateralMint = M then v.collateralAmount else 0) =
      unsettledCollateral s M +
        (if v'.settled = false ∧ v'.collateralMint = M then v'.collateralAmount else 0) := by
  rw [unsettledCollateral, unsettledCollateral, ht]
  exact Store.total_insert_of_lookup _ v' hv

theorem reservedPayouts_settle (hw : WellFormed D s) {ctx : SettleVault} {v : Vault}
    {info : OTokenInfo} {pool ben : TokenAccount} {L : Ledger}
    (h : SettleVault.Effect D T s ctx v info pool ben L s') :
    reservedPayouts s' M =
      reservedPayouts s M + (if v.collateralMint = M then info.payout v.shortAmount else 0) := by
  have hmove : Move D T s (.call (.settleVault ctx)) s' := .settled h
  have hnot : ¬ClosedBySettle s ctx.vault := fun hc ↦ by
    obtain ⟨w, -, hw', hs, -⟩ := hw.closed hc
    rw [h.vault_eq, Option.some.injEq] at hw'
    rw [← hw', h.unsettled] at hs
    exact Bool.false_ne_true hs
  have hnow : ClosedBySettle s' ctx.vault := by
    rw [ClosedBySettle, h.state_eq, List.any_append, Bool.or_eq_true, h.key_eq]
    exact .inr (by simp [Event.settles])
  have hpay : ∀ w : Vault, seriesPayout s' w = seriesPayout s w := fun w ↦ by
    rw [h.state_eq]
    rfl
  have hagree : ∀ l u, s.vaults.lookup l = some u → l ≠ ctx.vault →
      (if ClosedBySettle s l ∧ u.collateralMint = M then seriesPayout s u else 0) =
        if ClosedBySettle s' l ∧ u.collateralMint = M then seriesPayout s' u else 0 := by
    intro l u _ hne
    have hiff : ClosedBySettle s l ↔ ClosedBySettle s' l := by
      refine ⟨hmove.closedBySettle_mono, fun hc ↦ ?_⟩
      refine (hmove.closedBySettle hc).resolve_right ?_
      rintro ⟨ctx', v', _, _, _, _, heq, he, rfl⟩
      obtain rfl : ctx = ctx' := by injection heq with heq; injection heq
      exact hne he.key_eq.symm
    rw [hpay]
    simp only [hiff]
  have hvaults : s'.vaults = s.vaults.insert ctx.vault { v with settled := true } := by
    rw [h.state_eq]
  have key := Store.total_insert_of_agree { v with settled := true } h.vault_eq hagree
  have hself : seriesPayout s { v with settled := true } = info.payout v.shortAmount := by
    rw [seriesPayout, h.info_eq, Option.elim_some]
  rw [reservedPayouts, reservedPayouts, hvaults]
  simp only [hnot, hnow, hpay, hself, false_and, if_false, true_and, Nat.add_zero] at key ⊢
  exact key

/-! ## One step -/

theorem flows_of_isAdministrative (D : Deployment) (M : Pubkey) (s s' : State) {ix : Instruction}
    (h : ix.IsAdministrative) :
    depositedInto M ⟨s, .call ix, s'⟩ = 0 ∧ releasedFrom M ⟨s, .call ix, s'⟩ = 0 ∧
      paidBy M ⟨s, .call ix, s'⟩ = 0 ∧ creditedBy D M ⟨s, .call ix, s'⟩ = 0 := by
  cases ix <;> first | exact ⟨rfl, rfl, rfl, rfl⟩ | exact absurd h id

theorem isPoolAccount_eq {k : Pubkey} {a : TokenAccount}
    (ha : s.ledger.accounts.lookup k = some a) :
    isPoolAccount D s M k = poolTest D M a.owner a.mint := by
  rw [isPoolAccount, ha, Option.any_some]

theorem unsettledCollateral_open {k : VaultKey} {c b : Pubkey} {t : State}
    (hk : s.vaults.lookup k = none) (ht : t.vaults = s.vaults.insert k (Vault.fresh k c b)) :
    unsettledCollateral t M = unsettledCollateral s M := by
  rw [unsettledCollateral, unsettledCollateral, ht,
    Store.total_insert_of_lookup_eq_none _ _ hk]
  simp [Vault.fresh]

theorem Move.obligations_eq (hw : WellFormed D s) (h : Move D T s l s') (M : Pubkey) :
    unsettledCollateral s' M + reservedPayouts s' M + releasedFrom M ⟨s, l, s'⟩ =
      unsettledCollateral s M + reservedPayouts s M + depositedInto M ⟨s, l, s'⟩ := by
  have hres := reservedPayouts_eq (M := M) hw h
  have hsame : s'.vaults = s.vaults → unsettledCollateral s' M = unsettledCollateral s M :=
    fun heq ↦ by rw [unsettledCollateral, unsettledCollateral, heq]
  cases h with
  | administered hix h =>
    obtain ⟨hd, hr, -⟩ := flows_of_isAdministrative D M s s' hix
    rw [hd, hr, hres (by rintro _ ⟨⟩; exact hix), hsame h.vaults_eq]
  | opened h =>
    rw [hres nofun, unsettledCollateral_open h.fresh (congrArg State.vaults h.state_eq)]
    rfl
  | @deposited ctx n v _ _ _ _ _ h =>
    have hu := unsettledCollateral_insert (M := M) h.vault_eq (congrArg State.vaults h.state_eq)
    simp only [depositedInto, releasedFrom, h.vault_eq, Option.elim_some]
    simp only [h.unsettled, true_and] at hu
    rw [hres nofun]
    by_cases hM : v.collateralMint = M
    · simp only [hM, if_true] at hu ⊢
      omega
    · simp only [hM, if_false] at hu ⊢
      omega
  | minted h =>
    have hu := unsettledCollateral_insert (M := M) h.vault_eq (congrArg State.vaults h.state_eq)
    simp only [Nat.add_right_cancel_iff] at hu
    rw [hres nofun, hu]
    rfl
  | @settled ctx v info _ _ _ _ h =>
    have hu := unsettledCollateral_insert (M := M) h.vault_eq (congrArg State.vaults h.state_eq)
    have hr := reservedPayouts_settle (M := M) hw h
    have hle := h.payout_le
    simp only [depositedInto, releasedFrom, h.vault_eq, Option.elim_some, seriesPayout, h.info_eq]
    simp only [h.unsettled, true_and, Bool.true_eq_false, false_and, if_false] at hu
    by_cases hM : v.collateralMint = M
    · simp only [hM, if_true] at hu hr ⊢
      omega
    · simp only [hM, if_false] at hu hr ⊢
      omega
  | @withdrawn ctx v _ _ _ _ h =>
    have hu := unsettledCollateral_insert (M := M) h.vault_eq (congrArg State.vaults h.state_eq)
    simp only [depositedInto, releasedFrom, h.vault_eq, Option.elim_some]
    simp only [h.unsettled, true_and, Bool.true_eq_false, false_and, if_false] at hu
    rw [hres nofun]
    omega
  | redeemed _ h => rw [hres nofun, hsame (by rw [h.state_eq])]; rfl
  | registered _ h => rw [hres nofun, hsame (by rw [h.state_eq])]; rfl
  | priced h => rw [hres nofun, hsame (by rw [h.state_eq])]; rfl
  | token _ => rw [hres nofun, hsame rfl]; rfl
  | tick _ => rw [hres nofun, hsame rfl]; rfl
  | created _ _ => rw [hres nofun, hsame rfl]; rfl

theorem DepositCollateral.Effect.user_unprotected {ctx : DepositCollateral} {n : ℕ} {v : Vault}
    {user pool : TokenAccount} {L : Ledger}
    (h : DepositCollateral.Effect D T s ctx n v user pool L s')
    (hu : s.ledger.Undelegated D.IsControllerPda) (hs : ¬D.IsControllerPda ctx.owner) :
    ¬D.IsControllerPda user.owner := by
  obtain ⟨d, ht⟩ := h.transfer
  obtain ⟨r, hr⟩ := T.transferChecked_spec ht
  obtain ⟨a, b, ha, -, -, -, -, hauth, -⟩ := hr.cases
  obtain rfl := Option.some.inj (h.user_eq.symm.trans ha)
  exact Ledger.not_protected_of_authorizes hu ha hauth hs

theorem held_poolTest_le {L : Ledger} (hu : s.ledger.Undelegated D.IsControllerPda)
    (h : s.ledger.Rely D.IsControllerPda D.IsOtokenMint L) (M : Pubkey) :
    s.ledger.held (poolTest D M) ≤ L.held (poolTest D M) := by
  apply h.held_le
  intro k a ha hp
  rw [poolTest, decide_eq_true_eq] at hp
  have hpda : D.IsControllerPda a.owner := hp.1 ▸ D.isControllerPda_poolVaultAuth M
  exact ⟨hpda, hu k a ha hpda⟩

/-- What is released leaves the pool, unless the beneficiary's account belongs to it. -/
theorem held_of_release (hT : T.Plain) {L : Ledger} {src m dst auth : Pubkey} {n d : ℕ}
    {a b : TokenAccount} (h : transferIfPositive T s.ledger src m dst auth n d = .ok L)
    (ha : s.ledger.accounts.lookup src = some a) (ho : a.owner = D.poolVaultAuth m)
    (hb : s.ledger.accounts.lookup dst = some b) (hm : b.mint = m) (M : Pubkey) :
    L.held (poolTest D M) + (if m = M then n else 0) =
      s.ledger.held (poolTest D M) +
        (if isPoolAccount D s M dst then (if m = M then n else 0) else 0) := by
  have hheld := held_of_transferIfPositive hT h ha hb (poolTest D M)
  rw [ho, poolTest_self] at hheld
  rw [isPoolAccount_eq hb, hm]
  simp only [decide_eq_true_eq] at hheld
  by_cases hM : m = M
  · simp only [hM, if_true] at hheld ⊢
    exact hheld
  · have hdst : poolTest D M b.owner m = false := decide_eq_false fun hc ↦ hM hc.2
    simp only [hM, hdst, if_false, Bool.false_eq_true] at hheld ⊢
    exact hheld

theorem Move.poolBalance_eq (hT : T.Plain) (hu : s.ledger.Undelegated D.IsControllerPda)
    (h : Move D T s l s') (M : Pubkey) :
    poolBalance D s' M + releasedFrom M ⟨s, l, s'⟩ + paidBy M ⟨s, l, s'⟩ =
      poolBalance D s M + depositedInto M ⟨s, l, s'⟩ + creditedBy D M ⟨s, l, s'⟩ := by
  have hledger : ∀ {L}, s'.ledger = L → poolBalance D s' M = L.held (poolTest D M) :=
    fun heq ↦ by rw [poolBalance_def, heq]
  rw [poolBalance_def D s]
  cases h with
  | administered hix h =>
    obtain ⟨hd, hr, hp, hc⟩ := flows_of_isAdministrative D M s s' hix
    rw [hd, hr, hp, hc, hledger h.ledger_eq]
  | opened h => rw [hledger (congrArg State.ledger h.state_eq)]; rfl
  | @deposited ctx n v user pool L _ hs h =>
    obtain ⟨d, ht⟩ := h.transfer
    have huser := h.user_unprotected hu hs
    have hheld := (hT ht).held_eq h.user_eq h.pool_eq (poolTest D M)
    rw [h.pool_owner, poolTest_self, poolTest_eq_false huser] at hheld
    rw [hledger (congrArg State.ledger h.state_eq)]
    simp only [depositedInto, releasedFrom, paidBy, creditedBy, h.vault_eq, Option.elim_some]
    simp only [decide_eq_true_eq, Bool.false_eq_true, if_false] at hheld
    exact hheld
  | @minted ctx n v info dest L _ h =>
    have hheld := (T.mintTo_spec h.mintTo).held h.destination_eq (poolTest D M)
    rw [hledger (congrArg State.ledger h.state_eq)]
    simp only [depositedInto, releasedFrom, paidBy, creditedBy, isPoolAccount_eq h.destination_eq,
      h.destination_mint]
    exact hheld
  | @settled ctx v info pool ben L _ h =>
    obtain ⟨d, ht⟩ := h.transfer
    have hheld := held_of_release hT ht h.pool_eq h.pool_owner h.beneficiary_eq h.beneficiary_mint M
    rw [hledger (congrArg State.ledger h.state_eq)]
    simp only [depositedInto, releasedFrom, paidBy, creditedBy, h.vault_eq, Option.elim_some,
      seriesPayout, h.info_eq]
    exact hheld
  | @redeemed ctx n info otoken coll pool B L _ hs h =>
    obtain ⟨d, hburn⟩ := h.burn
    obtain ⟨d', ht⟩ := h.transfer
    have hB := T.burnChecked_spec hburn
    have hown : ¬D.IsControllerPda otoken.owner := h.otoken_owner ▸ hs
    have hburned := hB.held h.otoken_eq (poolTest D M)
    rw [poolTest_eq_false hown] at hburned
    obtain ⟨pool', hpool', hpm, hpo, -⟩ := hB.kept.some h.pool_eq
    obtain ⟨coll', hcoll', -, hco, -⟩ := hB.kept.some h.collateral_eq
    have hheld := held_of_transferIfPositive hT ht hpool' hcoll' (poolTest D M)
    have hcown : ¬D.IsControllerPda coll'.owner := by
      rw [hco, h.collateral_owner]
      exact hs
    rw [hpo, h.pool_owner, poolTest_self, poolTest_eq_false hcown] at hheld
    rw [hledger (congrArg State.ledger h.state_eq)]
    simp only [depositedInto, releasedFrom, paidBy, creditedBy, h.info_eq, Option.elim_some]
    simp only [decide_eq_true_eq, Bool.false_eq_true, if_false] at hheld hburned
    omega
  | @withdrawn ctx v pool ben L _ h =>
    obtain ⟨d, ht⟩ := h.transfer
    have hheld := held_of_release hT ht h.pool_eq h.pool_owner h.beneficiary_eq h.beneficiary_mint M
    rw [hledger (congrArg State.ledger h.state_eq)]
    simp only [depositedInto, releasedFrom, paidBy, creditedBy, h.vault_eq, Option.elim_some]
    exact hheld
  | registered _ h => rw [hledger (congrArg State.ledger h.state_eq)]; rfl
  | priced h => rw [hledger (congrArg State.ledger h.state_eq)]; rfl
  | @token L h =>
    have hle := held_poolTest_le hu h M
    simp only [depositedInto, releasedFrom, paidBy, creditedBy,
      poolBalance_def]
    omega
  | tick _ => rfl
  | created _ _ => rfl

/-- **What takes collateral out of the pools.** Whatever fees the mints withhold, the balance of a pool
falls only when a vault is settled or withdrawn from, or when oTokens are redeemed. -/
theorem Move.poolBalance_le (hu : s.ledger.Undelegated D.IsControllerPda) (h : Move D T s l s')
    (hl : ∀ ctx, l ≠ .call (.settleVault ctx)) (hl' : ∀ ctx n, l ≠ .call (.redeem ctx n))
    (hl'' : ∀ ctx, l ≠ .call (.emergencyWithdrawVault ctx)) (M : Pubkey) :
    poolBalance D s M ≤ poolBalance D s' M := by
  rw [poolBalance_def, poolBalance_def]
  cases h with
  | administered _ h => rw [h.ledger_eq]
  | opened h => rw [h.state_eq]
  | @deposited ctx n v user pool L _ hs h =>
    obtain ⟨d, ht⟩ := h.transfer
    obtain ⟨r, hr⟩ := T.transferChecked_spec ht
    have huser := h.user_unprotected hu hs
    rw [h.state_eq, hr.held_add ⟨user, h.user_eq, rfl⟩ ⟨pool, h.pool_eq, rfl⟩
      (poolTest_eq_false huser _)]
    exact Nat.le_add_right _ _
  | minted h =>
    rw [h.state_eq, (T.mintTo_spec h.mintTo).held h.destination_eq (poolTest D M)]
    exact Nat.le_add_right _ _
  | @settled ctx => exact absurd rfl (hl ctx)
  | @redeemed ctx n => exact absurd rfl (hl' ctx n)
  | @withdrawn ctx => exact absurd rfl (hl'' ctx)
  | registered _ h => rw [h.state_eq]
  | priced h => rw [h.state_eq]
  | token h => exact held_poolTest_le hu h M
  | tick _ => exact le_rfl
  | created _ _ => exact le_rfl

/-- **Both sides of the books move together.** -/
theorem Move.pool_balanced (hT : T.Plain) (hw : WellFormed D s) (h : Move D T s l s')
    (M : Pubkey) :
    poolBalance D s' M + (unsettledCollateral s M + reservedPayouts s M) + paidBy M ⟨s, l, s'⟩ =
      poolBalance D s M + (unsettledCollateral s' M + reservedPayouts s' M) +
        creditedBy D M ⟨s, l, s'⟩ := by
  have hpool := h.poolBalance_eq hT hw.undelegated M
  have howed := h.obligations_eq hw M
  omega

/-! ## Runs -/

/-- The instruction releases the collateral of the vault `k`. -/
def Label.releases (k : VaultKey) : Label → Bool
  | .call (.settleVault ctx) => decide (ctx.vault = k)
  | .call (.emergencyWithdrawVault ctx) => decide (ctx.vault = k)
  | _ => false

theorem releases_of_isAdministrative {ix : Instruction} (h : ix.IsAdministrative) (k : VaultKey) :
    Label.releases k (.call ix) = false := by
  cases ix <;> first | rfl | exact absurd h id

/-- `1` once the vault is settled. -/
def settledCount (s : State) (k : VaultKey) : ℕ :=
  if (s.vaults.lookup k).any Vault.settled then 1 else 0

theorem settledCount_eq_of_lookup {k : VaultKey} (h : s'.vaults.lookup k = s.vaults.lookup k) :
    settledCount s' k = settledCount s k := by
  rw [settledCount, settledCount, h]

theorem settledCount_insert {k l : VaultKey} {v : Vault}
    (ht : s'.vaults = s.vaults.insert l v) (hl : (s.vaults.lookup l).any Vault.settled = false) :
    settledCount s' k = settledCount s k + (if l = k ∧ v.settled = true then 1 else 0) := by
  by_cases h : k = l
  · subst h
    rw [settledCount, settledCount, hl, ht, Finmap.lookup_insert, Option.any_some]
    simp
  · have heq : s'.vaults.lookup k = s.vaults.lookup k := by
      rw [ht, Finmap.lookup_insert_of_ne _ h]
    rw [settledCount_eq_of_lookup heq, if_neg (fun hc ↦ h hc.1.symm), Nat.add_zero]

/-- A release is what settles a vault, and only an unsettled vault can be released. -/
theorem Move.settledCount_eq (h : Move D T s l s') (k : VaultKey) :
    settledCount s' k = settledCount s k + (if l.releases k then 1 else 0) := by
  have hun : ∀ {k v}, s.vaults.lookup k = some v → v.settled = false →
      (s.vaults.lookup k).any Vault.settled = false := fun hv hs ↦ by
    rw [hv, Option.any_some, hs]
  cases h with
  | administered hix h =>
    have heq : settledCount s' k = settledCount s k :=
      settledCount_eq_of_lookup (by rw [h.vaults_eq])
    rw [heq, releases_of_isAdministrative hix]
    rfl
  | opened h =>
    rw [settledCount_insert (by rw [h.state_eq]) (by rw [h.fresh]; rfl), if_neg (by simp)]
    rfl
  | deposited _ h =>
    rw [settledCount_insert (by rw [h.state_eq]) (hun h.vault_eq h.unsettled),
      if_neg (by simp [h.unsettled])]
    rfl
  | minted h =>
    rw [settledCount_insert (by rw [h.state_eq]) (hun h.vault_eq h.unsettled),
      if_neg (by simp [h.unsettled])]
    rfl
  | settled h =>
    rw [settledCount_insert (by rw [h.state_eq]) (hun h.vault_eq h.unsettled)]
    simp [Label.releases]
  | withdrawn h =>
    rw [settledCount_insert (by rw [h.state_eq]) (hun h.vault_eq h.unsettled)]
    simp [Label.releases]
  | redeemed _ h => exact settledCount_eq_of_lookup (by rw [h.state_eq])
  | registered _ h => exact settledCount_eq_of_lookup (by rw [h.state_eq])
  | priced h => exact settledCount_eq_of_lookup (by rw [h.state_eq])
  | token _ => rfl
  | tick _ => rfl
  | created _ _ => rfl

/-- How often a run released the vault `k`. -/
def releases (k : VaultKey) (tr : List (Transition State Label)) : ℕ :=
  Run.history (fun t ↦ if t.label.releases k then 1 else 0) tr

theorem releases_eq (hrun : Run (Step D T) s₀ tr s) (k : VaultKey) :
    settledCount s k = settledCount s₀ k + releases k tr := by
  have hacc := Run.accounting (I := fun _ ↦ True) (Q := fun _ ↦ True)
    (fun s ↦ settledCount s k) (fun _ ↦ 0) (fun t ↦ if t.label.releases k then 1 else 0)
    (fun _ ↦ 0) trivial (fun _ _ _ _ _ _ ↦ trivial)
    (fun s l s' _ hs _ ↦ by simpa using hs.move.settledCount_eq k) hrun (fun _ _ ↦ trivial)
  simpa [releases, Run.history] using hacc

theorem pool_books (hT : T.Plain) (hrun : Run (Step D T) s₀ tr s) (h₀ : Initial D s₀)
    (M : Pubkey) :
    poolBalance D s M + Run.history (paidBy M) tr =
      unsettledCollateral s M + reservedPayouts s M +
        (poolBalance D s₀ M + Run.history (creditedBy D M) tr) := by
  have hacc := Run.accounting (Q := fun _ ↦ True) (fun s ↦ poolBalance D s M)
    (fun s ↦ unsettledCollateral s M + reservedPayouts s M) (creditedBy D M) (paidBy M)
    h₀.wellFormed (fun _ _ _ hw hs _ ↦ hs.move.wellFormed hw)
    (fun s l s' hw hs _ ↦ hs.move.pool_balanced hT hw M) hrun (fun _ _ ↦ trivial)
  have hu : unsettledCollateral s₀ M = 0 := by rw [unsettledCollateral, h₀.vaults]; rfl
  have hr : reservedPayouts s₀ M = 0 := by rw [reservedPayouts, h₀.vaults]; rfl
  simp only [hu, hr] at hacc
  omega

/-- **Exact pool accounting.** Between an initial state and any state reached from it, the pool of
`M` gains the collateral of the unsettled vaults, the payouts reserved for the vaults that
`settle_vault` closed, and what was credited from outside, and loses what was redeemed. No vault
releases its collateral twice, and a settled vault never changes again. -/
theorem pool_accounting (hT : T.Plain) (hrun : Run (Step D T) s₀ tr s) (h₀ : Initial D s₀)
    (M : Pubkey) :
    poolBalance D s M + Run.history (paidBy M) tr =
        unsettledCollateral s M + reservedPayouts s M +
          (poolBalance D s₀ M + Run.history (creditedBy D M) tr) ∧
      (∀ k, releases k tr ≤ 1) ∧
      ∀ k v, s.vaults.lookup k = some v → v.settled = true →
        ∀ tr' s', Run (Step D T) s tr' s' → s'.vaults.lookup k = some v := by
  refine ⟨pool_books hT hrun h₀ M, fun k ↦ ?_, fun k v hv hs tr' s' hrun' ↦
    settled_of_run hrun' hv hs⟩
  have heq := releases_eq hrun k
  have hle : settledCount s k ≤ 1 := by rw [settledCount]; split <;> omega
  omega

/-- User `1` deposits into both vaults, through different accounts of the pool; the first mints,
expires in the money, is settled, and half of its oTokens are redeemed. -/
def sampleSettled : List Action :=
  sampleSetup ++ [sampleDeposit 0 12 3, sampleDeposit 1 13 5, sampleMint 0 200, .tick 100,
    .call (.setExpiryPrice ⟨20, ⟨10, 100, 7, true⟩, 1⟩),
    .call (.settleVault ⟨⟨1, 0⟩, 20, 12, 10, 11, sampleDeployment.poolVaultAuth 10, 1⟩),
    .call (.redeem ⟨20, 20, 31, 11, 13, 10, sampleDeployment.poolVaultAuth 10, 1⟩ 100)]

theorem pool_accounting_sample :
    poolBalance sampleDeployment (sampleRun sampleSettled) 10 = 6 ∧
      Run.history (paidBy 10) (sampleTrace sampleSettled) = 1 ∧
      unsettledCollateral (sampleRun sampleSettled) 10 = 5 ∧
      reservedPayouts (sampleRun sampleSettled) 10 = 2 ∧
      poolBalance sampleDeployment (sampleRun sampleSettled) 10 +
          Run.history (paidBy 10) (sampleTrace sampleSettled) =
        unsettledCollateral (sampleRun sampleSettled) 10 +
          reservedPayouts (sampleRun sampleSettled) 10 +
          (poolBalance sampleDeployment sampleState 10 +
            Run.history (creditedBy sampleDeployment 10) (sampleTrace sampleSettled)) := by
  have hrun : Run (Step sampleDeployment splToken) sampleState (sampleTrace sampleSettled)
      (sampleRun sampleSettled) :=
    sampleRun_run (by decide +kernel) (by decide +kernel)
  exact ⟨by decide +kernel, by decide +kernel, by decide +kernel, by decide +kernel,
    (pool_accounting splToken_plain hrun sampleState_initial 10).1⟩

end Controller

end OptionsProtocol
