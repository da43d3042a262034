import OptionsProtocol.Controller.Liveness
import OptionsProtocol.Controller.Solvency

/-!
# Settling from one account

A pool is a set of token accounts, and every instruction that touches it names one of them. Whoever
deposits chooses where the collateral goes, while `settle_vault` has to find all it returns in one
place. Splitting the deposits of a single vault over two accounts is enough to leave no account
that can settle it, though the pool as a whole covers every claim.

While the deposits are in one account, nothing else matters. If all deposits in `M` went into one account, that
account alone holds what the pool owes, whatever accounts redemptions and settlements were paid from; and
an account that holds what is owed settles any vault that is due. Once they are in several, a redemption can
strand a vault, too, by being paid from the one account that held enough.
-/

namespace OptionsProtocol

namespace Controller

open Except

variable {D : Deployment} {T : TokenProgram} {s s' s₀ : State} {l : Label}
  {tr : List (Transition State Label)} {M p : Pubkey}

/-! ## One account of a pool -/

/-- What the account `p` contributes to the pool of `M`. -/
def poolAmount (D : Deployment) (s : State) (M p : Pubkey) : ℕ :=
  if isPoolAccount D s M p then s.ledger.amount p else 0

/-- A deposit in `M` goes into the account `p`. -/
def Label.DepositsTo (M p : Pubkey) : Label → Prop
  | .call (.depositCollateral ctx _) => ctx.collateralMintAccount = M → ctx.poolTokenAccount = p
  | _ => True

instance (M p : Pubkey) (l : Label) : Decidable (l.DepositsTo M p) := by
  unfold Label.DepositsTo
  split <;> infer_instance

theorem isPoolAccount_iff {k : Pubkey} : isPoolAccount D s M k = true ↔
    ∃ a, s.ledger.accounts.lookup k = some a ∧ a.owner = D.poolVaultAuth M ∧ a.mint = M := by
  simp [isPoolAccount, Option.any_eq_true, poolTest]

theorem isPoolAccount_of_kept (h : s.ledger.Kept s'.ledger) {k : Pubkey}
    (hk : isPoolAccount D s M k = true) : isPoolAccount D s' M k = true := by
  obtain ⟨a, ha, ho, hm⟩ := isPoolAccount_iff.mp hk
  obtain ⟨a', ha', hm', ho', -⟩ := h.some ha
  exact isPoolAccount_iff.mpr ⟨a', ha', ho'.trans ho, hm'.trans hm⟩

theorem amount_of_transferIfPositive (hT : T.Plain) {L L' : Ledger} {src mint dst auth : Pubkey}
    {n d : ℕ} (h : transferIfPositive T L src mint dst auth n d = .ok L') (k : Pubkey) :
    L'.amount k + (if k = src then n else 0) = L.amount k + (if k = dst then n else 0) := by
  rcases transferIfPositive_eq_ok.mp h with ⟨-, ht⟩ | ⟨rfl, rfl⟩
  · exact (hT ht).amount_eq k
  · simp

theorem amount_le_of_payment (hT : T.Plain) {L L' : Ledger} {src m dst auth : Pubkey} {n d : ℕ}
    (h : transferIfPositive T L src m dst auth n d = .ok L') (hne : m ≠ M → p ≠ src) :
    L.amount p ≤ L'.amount p + (if m = M then n else 0) := by
  have hamt := amount_of_transferIfPositive hT h p
  by_cases hM : m = M
  · rw [if_pos hM]
    split at hamt <;> omega
  · rw [if_neg (hne hM)] at hamt
    omega

theorem ne_of_isPoolAccount {k k' : Pubkey} {a : TokenAccount} (hk : isPoolAccount D s M k = true)
    (ha : s.ledger.accounts.lookup k' = some a)
    (h : a.mint ≠ M ∨ ¬D.IsControllerPda a.owner) : k ≠ k' := by
  rintro rfl
  obtain ⟨b, hb, ho, hm⟩ := isPoolAccount_iff.mp hk
  obtain rfl : a = b := by rwa [ha, Option.some.injEq] at hb
  exact h.elim (fun hne ↦ hne hm) fun hne ↦ hne (ho ▸ D.isControllerPda_poolVaultAuth M)

theorem DepositCollateral.Effect.poolAmount_le {ctx : DepositCollateral} {n : ℕ} {v : Vault}
    {user pool : TokenAccount} {L : Ledger} (hT : T.Plain)
    (hu : s.ledger.Undelegated D.IsControllerPda) (hs : ¬D.IsControllerPda ctx.owner)
    (h : DepositCollateral.Effect D T s ctx n v user pool L s')
    (hp : isPoolAccount D s M p = true) (hl : v.collateralMint = M → ctx.poolTokenAccount = p) :
    s.ledger.amount p + (if v.collateralMint = M then n else 0) ≤ s'.ledger.amount p := by
  obtain ⟨d, ht⟩ := h.transfer
  have hamt := (hT ht).amount_eq p
  have hne := ne_of_isPoolAccount hp h.user_eq (.inr (h.user_unprotected hu hs))
  have hL : s'.ledger = L := congrArg State.ledger h.state_eq
  rw [if_neg hne] at hamt
  rw [hL]
  by_cases hM : v.collateralMint = M
  · rw [if_pos (hl hM).symm] at hamt
    rw [if_pos hM]
    omega
  · rw [if_neg hM]
    omega

theorem poolAmount_le_of_rely {L : Ledger} (hu : s.ledger.Undelegated D.IsControllerPda)
    (h : s.ledger.Rely D.IsControllerPda D.IsOtokenMint L) :
    poolAmount D s M p ≤ poolAmount D { s with ledger := L } M p := by
  cases hp : isPoolAccount D s M p with
  | false => simp [poolAmount, hp]
  | true =>
    obtain ⟨a, ha, ho, hm⟩ := isPoolAccount_iff.mp hp
    rw [poolAmount, if_pos hp, Ledger.amount_eq ha]
    rcases Nat.eq_zero_or_pos a.amount with h0 | hpos
    · rw [h0]
      exact Nat.zero_le _
    · have hpda : D.IsControllerPda a.owner := ho ▸ D.isControllerPda_poolVaultAuth M
      obtain ⟨a', ha', hm', ho', hle⟩ := h.account ha hpda (hu p a ha hpda) hpos
      rw [poolAmount, if_pos (isPoolAccount_iff.mpr ⟨a', ha', ho'.trans ho, hm'.trans hm⟩),
        Ledger.amount_eq ha']
      exact hle

/-- **Deposits into one account accumulate there.** It loses nothing but releases and redemptions,
from whatever account these are paid. -/
theorem Move.poolAmount_le (hT : T.Plain) (hu : s.ledger.Undelegated D.IsControllerPda)
    (h : Move D T s l s') (hl : l.DepositsTo M p) :
    poolAmount D s M p + depositedInto M ⟨s, l, s'⟩ ≤
      poolAmount D s' M p + releasedFrom M ⟨s, l, s'⟩ + paidBy M ⟨s, l, s'⟩ := by
  -- a step that deposits nothing is fine if the account loses no more than what is paid out
  have hquiet : ∀ {c : ℕ}, l ≠ .token → (isPoolAccount D s M p = true →
      s.ledger.amount p ≤ s'.ledger.amount p + c) →
      poolAmount D s M p ≤ poolAmount D s' M p + c := by
    intro c hne hle
    cases hp : isPoolAccount D s M p with
    | false => simp [poolAmount, hp]
    | true =>
      simp only [poolAmount, hp, isPoolAccount_of_kept (h.kept hne) hp, if_true]
      exact hle hp
  have hsame : s'.ledger = s.ledger → l ≠ .token → poolAmount D s M p ≤ poolAmount D s' M p :=
    fun heq hne ↦ hquiet (c := 0) hne fun _ ↦ by rw [heq]; exact le_rfl
  have hcall : ∀ {ix}, Label.call ix ≠ .token := by
    intro ix hix
    cases hix
  cases h with
  | administered hix h =>
    obtain ⟨hd, hr, hp, -⟩ := flows_of_isAdministrative D M s s' hix
    rw [hd, hr, hp]
    exact hsame h.ledger_eq hcall
  | opened h => exact hsame (by rw [h.state_eq]) hcall
  | @deposited ctx n v user pool L _ hs h =>
    simp only [depositedInto, releasedFrom, paidBy, h.vault_eq, Option.elim_some, Nat.add_zero]
    cases hp : isPoolAccount D s M p with
    | true =>
      have hle := h.poolAmount_le hT hu hs hp fun hM ↦ hl (h.collateral_eq.trans hM)
      have hp' := isPoolAccount_of_kept (Move.kept (.deposited hs h) hcall) hp
      rw [poolAmount, if_pos hp, poolAmount, if_pos hp']
      exact hle
    | false =>
      -- a deposit in `M` goes into the account, which then belongs to the pool
      have hM : v.collateralMint ≠ M := by
        intro hM
        obtain rfl : ctx.poolTokenAccount = p := hl (h.collateral_eq.trans hM)
        have hpool := isPoolAccount_iff.mpr ⟨pool, h.pool_eq, hM ▸ h.pool_owner, h.pool_mint.trans hM⟩
        exact Bool.false_ne_true (hp.symm.trans hpool)
      simp [poolAmount, hp, hM]
  | @minted ctx n v info dest L _ h =>
    refine hquiet (c := 0) hcall fun _ ↦ ?_
    have hL : s'.ledger = L := congrArg State.ledger h.state_eq
    rw [hL, (T.mintTo_spec h.mintTo).amount p]
    exact Nat.le_add_right _ _
  | @settled ctx v info pool ben L _ h =>
    obtain ⟨d, ht⟩ := h.transfer
    have hL : s'.ledger = L := congrArg State.ledger h.state_eq
    simp only [releasedFrom, h.vault_eq, Option.elim_some, seriesPayout, h.info_eq]
    refine hquiet hcall fun hp ↦ ?_
    rw [hL]
    exact amount_le_of_payment hT ht fun hM ↦
      ne_of_isPoolAccount hp h.pool_eq (.inl (by rwa [h.pool_mint]))
  | @redeemed ctx n info otoken coll pool B L _ hs h =>
    obtain ⟨d, hburn⟩ := h.burn
    obtain ⟨d', ht⟩ := h.transfer
    have hL : s'.ledger = L := congrArg State.ledger h.state_eq
    have hburned := (T.burnChecked_spec hburn).amount p
    have hown : ¬D.IsControllerPda otoken.owner := h.otoken_owner ▸ hs
    simp only [releasedFrom, paidBy, h.info_eq, Option.elim_some, Nat.add_zero]
    refine hquiet hcall fun hp ↦ ?_
    rw [if_neg (ne_of_isPoolAccount hp h.otoken_eq (.inr hown)), Nat.add_zero] at hburned
    rw [hL, ← hburned]
    exact amount_le_of_payment hT ht fun hM ↦
      ne_of_isPoolAccount hp h.pool_eq (.inl (by rwa [h.pool_mint]))
  | @withdrawn ctx v pool ben L _ h =>
    obtain ⟨d, ht⟩ := h.transfer
    have hL : s'.ledger = L := congrArg State.ledger h.state_eq
    simp only [releasedFrom, h.vault_eq, Option.elim_some]
    refine hquiet hcall fun hp ↦ ?_
    rw [hL]
    exact amount_le_of_payment hT ht fun hM ↦
      ne_of_isPoolAccount hp h.pool_eq (.inl (by rwa [h.pool_mint]))
  | registered _ h => exact hsame (by rw [h.state_eq]) hcall
  | priced h => exact hsame (by rw [h.state_eq]) hcall
  | token h => exact poolAmount_le_of_rely hu h
  | tick _ => exact le_rfl
  | created _ _ => exact hquiet (c := 0) (by simp) fun _ ↦ le_rfl

/-- An account that took all deposits covers all obligations, less what was redeemed. -/
theorem obligations_le_poolAmount (hT : T.Plain) (hrun : Run (Step D T) s₀ tr s)
    (h₀ : Initial D s₀) (hl : ∀ t ∈ tr, t.label.DepositsTo M p) :
    unsettledCollateral s M + reservedPayouts s M ≤
      poolAmount D s M p + Run.history (paidBy M) tr := by
  have hacc := Run.accounting_le (Q := fun t ↦ t.label.DepositsTo M p)
    (fun s ↦ unsettledCollateral s M + reservedPayouts s M) (fun s ↦ poolAmount D s M p)
    (paidBy M) (fun _ ↦ 0) h₀.wellFormed (fun _ _ _ hw hs _ ↦ hs.move.wellFormed hw)
    (fun s l s' hw hs hq ↦ by
      have howed := hs.move.obligations_eq hw M
      have hamount := hs.move.poolAmount_le hT hw.undelegated hq
      omega) hrun hl
  have hu : unsettledCollateral s₀ M = 0 := by rw [unsettledCollateral, h₀.vaults]; rfl
  have hr : reservedPayouts s₀ M = 0 := by rw [reservedPayouts, h₀.vaults]; rfl
  simp only [hu, hr, Run.history_zero] at hacc
  omega

/-! ## Settlement goes through -/

/-- The accounts passed to `settle_vault` are the right ones, and the vault is due. -/
structure SettleVault.Ready (D : Deployment) (s : State) (ctx : SettleVault) (v : Vault)
    (info : OTokenInfo) : Prop where
  config : ∃ c, s.config = some c ∧ c.admin = ctx.admin ∧ c.fullyPaused = false
  vault_eq : s.vaults.lookup ctx.vault = some v
  info_seed : ctx.otokenInfo = v.otokenMint
  info_eq : s.otokenInfos.lookup v.otokenMint = some info
  pool : isPoolAccount D s v.collateralMint ctx.poolTokenAccount = true
  authority : ctx.poolVaultAuthority = D.poolVaultAuth v.collateralMint
  mint_key : ctx.collateralMintAccount = v.collateralMint
  mint : ∃ x, s.ledger.mints.lookup v.collateralMint = some x
  beneficiary : ∃ b, s.ledger.accounts.lookup ctx.beneficiaryTokenAccount = some b ∧
    b.owner = v.beneficiary ∧ b.mint = v.collateralMint
  unsettled : v.settled = false
  short_pos : 0 < v.shortAmount
  expired : info.expiry ≤ s.clock
  priced : 0 < info.expiryPrice

/-- **A covered vault settles**, from any account of its pool that holds what it gets back. -/
theorem settleVault_succeeds (hT : T.Plain) (hlive : T.Live) (hw : WellFormed D s)
    {ctx : SettleVault} {v : Vault} {info : OTokenInfo} (h : SettleVault.Ready D s ctx v info)
    (hcover : v.collateralAmount - info.payout v.shortAmount ≤
      s.ledger.amount ctx.poolTokenAccount) :
    ∃ s', settleVault D T ctx s = .ok s' ∧
      s'.ledger.amount ctx.beneficiaryTokenAccount +
          (if ctx.beneficiaryTokenAccount = ctx.poolTokenAccount then
            v.collateralAmount - info.payout v.shortAmount else 0) =
        s.ledger.amount ctx.beneficiaryTokenAccount +
          (v.collateralAmount - info.payout v.shortAmount) := by
  obtain ⟨c, hc, hadmin, hpause⟩ := h.config
  obtain ⟨a, ha, hao, ham⟩ := isPoolAccount_iff.mp h.pool
  obtain ⟨x, hx⟩ := h.mint
  obtain ⟨b, hb, hbo, hbm⟩ := h.beneficiary
  obtain ⟨info', hi', -, hcomp, hle⟩ := (hw.vault h.vault_eq).backed h.short_pos
  obtain rfl : info = info' := by
    have := h.info_eq
    rwa [hi', Option.some.injEq, eq_comm] at this
  rw [Ledger.amount_eq ha] at hcover
  have hpay : getPayout info.strikePrice info.expiryPrice info.isPut info.collateralDecimals
      v.shortAmount = .ok (info.payout v.shortAmount) := getPayout_eq_ok.mpr ⟨fun _ ↦ hcomp, rfl⟩
  have hple : info.payout v.shortAmount ≤ v.collateralAmount :=
    (info.payout_le_required _).trans hle
  obtain ⟨L, hL⟩ := transferIfPositive_succeeds hlive hw.conserved ha hb hx ham hbm hcover
    (hw.undelegated _ _ ha (hao ▸ D.isControllerPda_poolVaultAuth _))
  rw [hao] at hL
  have hkey : ctx.vault = ⟨v.owner, v.vaultId⟩ := (hw.vault h.vault_eq).key
  have himint : info.otokenMint = v.otokenMint := (hw.info hi').1
  refine ⟨{ s with
      ledger := L
      vaults := s.vaults.insert ctx.vault { v with settled := true }
      log := s.log ++ [.vaultSettled v.owner v.vaultId
        (v.collateralAmount - info.payout v.shortAmount) (info.payout v.shortAmount)] }, ?_, ?_⟩
  · simp only [settleVault, loadConfig, loadVault, loadOtokenInfo, loadTokenAccount, loadMint,
      fromOption_bind_eq_ok, require_bind_eq_ok]
    refine ⟨c, hc, v, h.vault_eq, info, h.info_seed ▸ hi', a, ha, x, h.mint_key ▸ hx, b, hb, hadmin,
      hkey, h.info_seed, himint, ham, hao.trans h.authority.symm, h.mint_key, hbo, hbm, h.authority,
      hpause, h.unsettled, h.short_pos, h.expired, h.priced, ?_⟩
    rw [bind_eq_ok]
    refine ⟨_, hpay, ?_⟩
    rw [fromOption_bind_eq_ok]
    refine ⟨v.collateralAmount - info.payout v.shortAmount,
      Checked.sub_eq_some.mpr (Nat.add_sub_cancel' hple).symm, ?_⟩
    rw [bind_eq_ok]
    refine ⟨L, ?_, rfl⟩
    rw [h.authority, h.mint_key]
    exact hL
  · have hamt := amount_of_transferIfPositive hT hL ctx.beneficiaryTokenAccount
    rw [if_pos rfl] at hamt
    exact hamt

theorem returned_le_owed {ctx : SettleVault} {v : Vault} {info : OTokenInfo}
    (h : SettleVault.Ready D s ctx v info) :
    v.collateralAmount - info.payout v.shortAmount ≤ owed s v.collateralMint := by
  have hle := Store.le_total (fun _ w ↦ if w.settled = false ∧ w.collateralMint = v.collateralMint
    then w.collateralAmount - claim s w.otokenMint w.shortAmount else 0) h.vault_eq
  rw [if_pos ⟨h.unsettled, rfl⟩, claim_eq h.info_eq, OTokenInfo.claim, if_pos h.priced] at hle
  exact hle.trans (Nat.le_add_right _ _)

/-- Vault `0` deposits `3` into one account of the pool and `5` into another; its series expires out of
the money, so that all `8` are due back. -/
def sampleSplit : List Action :=
  sampleSetup ++ [sampleDeposit 0 12 3, sampleDeposit 0 13 5, sampleMint 0 200, .tick 100,
    .call (.setExpiryPrice ⟨20, ⟨10, 100, 3, true⟩, 1⟩)]

end Controller

end OptionsProtocol
