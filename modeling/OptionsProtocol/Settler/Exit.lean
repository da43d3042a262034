import OptionsProtocol.Settler.Emergency
import OptionsProtocol.Settler.Escape

/-!
# The emergency exit

While the controller is fully paused the seller of an option may take its collateral back, and the
settler burns the vault's oTokens first: no more than the maker still has. It burns them all out of one
account, though, and each order chooses the account its oTokens are minted to. The tokens behind a
balance may be spread over several accounts of the settler, and nothing brings them together again.
-/

namespace OptionsProtocol

namespace Settler

open Except
open Controller (VaultKey Vault OTokenInfo)

variable {D : Deployment} {T : TokenProgram} {rent : ℕ → ℕ} {verifies : Ed25519.Signed → Bool}
  {s s' s₀ : State} {l : Label} {tr : List (Transition State Label)} {k : VaultKey}

/-! ## Records and balances -/

/-- Every record lies at its vault and comes with a balance. -/
structure Booked (s : State) : Prop where
  vault : ∀ k vm, s.vaultMMs.lookup k = some vm → vm.vault = k
  balance : ∀ k vm, s.vaultMMs.lookup k = some vm →
    ∃ b, s.makerOtokenBalances.lookup ⟨vm.maker, vm.otokenMint⟩ = some b
  config : ∀ k vm, s.vaultMMs.lookup k = some vm → ∃ c, s.config = some c

theorem Initial.booked (h : Initial D s) : Booked s := by
  have hnone : ∀ k vm, s.vaultMMs.lookup k ≠ some vm := by
    intro k vm
    simp [h.vaultMMs]
  exact ⟨fun k vm hk ↦ absurd hk (hnone k vm), fun k vm hk ↦ absurd hk (hnone k vm),
    fun k vm hk ↦ absurd hk (hnone k vm)⟩

theorem Move.balance_kept (h : Move D T verifies s l s') {k : BalanceKey} {b : MakerOTokenBalance}
    (hb : s.makerOtokenBalances.lookup k = some b) :
    ∃ b', s'.makerOtokenBalances.lookup k = some b' := by
  have hinsert : ∀ k₁ b₁, s'.makerOtokenBalances = s.makerOtokenBalances.insert k₁ b₁ →
      ∃ b', s'.makerOtokenBalances.lookup k = some b' := by
    intro k₁ b₁ heq
    rw [heq, Store.lookup_insert_eq]
    split
    · exact ⟨b₁, rfl⟩
    · exact ⟨b, hb⟩
  rcases h.makerOtokenBalances with heq | ⟨k₁, b₁, n, -, -, heq⟩ | ⟨ctx, ord, tx, i, r, rfl, he⟩
  · exact ⟨b, heq ▸ hb⟩
  · exact hinsert _ _ heq
  · exact hinsert _ _ (by rw [he.state_eq])

theorem Step.config_kept (h : Step D T rent verifies s l s') {c : SettlerConfig}
    (hc : s.config = some c) : ∃ c', s'.config = some c' := by
  rcases h.config with heq | ⟨c', hc', -⟩
  · exact ⟨c, heq ▸ hc⟩
  · exact ⟨c', hc'⟩

theorem Step.booked (h : Step D T rent verifies s l s') (hb : Booked s) : Booked s' := by
  have hold : ∀ {k vm}, s.vaultMMs.lookup k = some vm → vm.vault = k ∧
      (∃ b, s'.makerOtokenBalances.lookup ⟨vm.maker, vm.otokenMint⟩ = some b) ∧
      ∃ c, s'.config = some c := by
    intro k vm hvm
    obtain ⟨b, hbal⟩ := hb.balance k vm hvm
    obtain ⟨c, hc⟩ := hb.config k vm hvm
    exact ⟨hb.vault k vm hvm, h.move.balance_kept hbal, h.config_kept hc⟩
  have hall : ∀ k vm, s'.vaultMMs.lookup k = some vm → vm.vault = k ∧
      (∃ b, s'.makerOtokenBalances.lookup ⟨vm.maker, vm.otokenMint⟩ = some b) ∧
      ∃ c, s'.config = some c := by
    intro k vm hvm
    rcases h.move.vaultMMs with heq | ⟨k₁, vm₁, n, hk₁, -, heq⟩ | ⟨ctx, ord, tx, i, r, rfl, -, he⟩
    · exact hold (heq ▸ hvm)
    · rw [heq] at hvm
      rcases Store.lookup_insert_eq_some.mp hvm with ⟨rfl, rfl⟩ | ⟨-, hvm⟩
      · have hkept := hold hk₁
        exact hkept
      · exact hold hvm
    · rw [he.state_eq] at hvm
      rcases Store.lookup_insert_eq_some.mp hvm with ⟨rfl, rfl⟩ | ⟨-, hvm⟩
      · refine ⟨rfl, ⟨⟨ctx.maker, ctx.otokenMint, s.custody ctx.balanceKey + ord.amount.toNat⟩, ?_⟩,
          h.config_kept he.config_eq⟩
        rw [he.state_eq]
        exact Finmap.lookup_insert _
      · exact hold hvm
  exact ⟨fun k vm hvm ↦ (hall k vm hvm).1, fun k vm hvm ↦ (hall k vm hvm).2.1,
    fun k vm hvm ↦ (hall k vm hvm).2.2⟩

theorem booked_of_run (hrun : Run (Step D T rent verifies) s₀ tr s) (h₀ : Initial D s₀) :
    Booked s :=
  hrun.invariant h₀.booked fun _ _ _ hb hs ↦ hs.booked hb

/-! ## Withdrawing -/

/-- Some account of the settler holds all that withdrawing the collateral of the vault would burn, and lets
the settler spend it. -/
def CustodyTogether (D : Deployment) (s : State) (k : VaultKey) : Prop :=
  ∃ vm q a, s.vaultMMs.lookup k = some vm ∧ s.ctrl.ledger.accounts.lookup q = some a ∧
    a.owner = D.settlerConfig ∧ a.mint = vm.otokenMint ∧
      min vm.remainingAmount (s.custody ⟨vm.maker, vm.otokenMint⟩) ≤ a.amount ∧
      a.Authorizes D.settlerConfig (min vm.remainingAmount (s.custody ⟨vm.maker, vm.otokenMint⟩))

theorem EmergencyWithdrawOrder.Effect.custodyTogether {ctx : EmergencyWithdrawOrder} {v : Vault}
    {vm : VaultMM} {b : MakerOTokenBalance} {L : Ledger} {c : Controller.State} (hr : Recorded D s)
    (h : EmergencyWithdrawOrder.Effect D T s ctx v vm b L c s') : CustodyTogether D s ctx.vault := by
  obtain ⟨a, ha, ham, hao⟩ := h.settlerOtoken
  refine ⟨vm, ctx.settlerOtokenAccount, a, h.vaultMM_eq, ha, hao, by rw [h.otokenMint_eq, ham], ?_⟩
  have hmaker : vm.maker = ctx.maker := by rw [h.maker_eq, hr.balance _ _ h.balance_eq]
  have hcustody : s.custody ⟨vm.maker, vm.otokenMint⟩ = b.balance := by
    rw [State.custody, hmaker, h.otokenMint_eq, h.balance_eq, Option.elim_some]
  rw [hcustody]
  rcases h.burn with ⟨-, d, hburn⟩ | ⟨hzero, -⟩
  · obtain ⟨x, a', -, ha', -, hle, -, hauth, -⟩ := T.burnChecked_spec hburn
    rw [ha, Option.some.injEq] at ha'
    rw [ha']
    exact ⟨hle, hauth⟩
  · have hmin : min vm.remainingAmount b.balance = 0 := hzero
    rw [hmin]
    exact ⟨Nat.zero_le _, TokenAccount.authorizes_zero hao⟩

theorem burnIfPositive_succeeds (hburn : T.BurnLive) {L : Ledger} (hc : L.Conserved)
    {mint src : Pubkey} {a : TokenAccount} {x : Mint} {n : ℕ} (ha : L.accounts.lookup src = some a)
    (hx : L.mints.lookup mint = some x) (hm : a.mint = mint) (hn : n ≤ a.amount)
    (hauth : a.Authorizes D.settlerConfig n) :
    ∃ B, burnIfPositive D T L mint src n x.decimals = .ok B ∧ B.Conserved ∧ L.Kept B ∧
      (∀ k, k ≠ src → B.accounts.lookup k = L.accounts.lookup k) ∧
      ∀ m, m ≠ mint → B.mints.lookup m = L.mints.lookup m := by
  rcases Nat.eq_zero_or_pos n with hzero | hpos
  · exact ⟨L, burnIfPositive_eq_ok.mpr (.inr ⟨hzero, rfl⟩), hc, .refl L, fun _ _ ↦ rfl,
      fun _ _ ↦ rfl⟩
  · obtain ⟨y, hy, hsupply⟩ := hc.mint ha (hpos.trans_le hn)
    rw [hm, hx, Option.some.injEq] at hy
    subst hy
    obtain ⟨B, hB⟩ := Option.isSome_iff_exists.mp
      (hburn ha hx hm rfl hn (hn.trans hsupply) hauth)
    have hspec := T.burnChecked_spec hB
    exact ⟨B, burnIfPositive_eq_ok.mpr (.inl ⟨hpos, hB⟩), hspec.conserved hc, hspec.kept,
      fun _ hk ↦ hspec.lookup_of_ne hk, fun _ hm ↦ hspec.mint_of_ne hm⟩

theorem VaultMM.Ok.series (hrun : Run (Step D T rent verifies) s₀ tr s) (h₀ : Initial D s₀)
    {vm : VaultMM} {v : Vault} (hok : vm.Ok D v) (hv : s.ctrl.vaults.lookup k = some v) :
    v.collateralMint ≠ vm.otokenMint ∧ ∃ x, s.ctrl.ledger.mints.lookup vm.otokenMint = some x := by
  have hw := (recorded_of_run hrun h₀).wellFormed
  have hshort : 0 < v.shortAmount := (hw.vault hv).bound.mp hok.otokenMint_ne
  constructor
  · obtain ⟨info, hinfo, hcoll, -, -⟩ := (hw.vault hv).backed hshort
    rw [← hcoll, ← hok.otokenMint]
    exact (hw.info hinfo).2.2
  · obtain ⟨tr', hctrl⟩ := run_ctrl hrun h₀
    have hle := Store.le_total (fun _ v ↦ v.shortOf vm.otokenMint) hv
    rw [Controller.Vault.shortOf, if_pos hok.otokenMint] at hle
    obtain ⟨x, hx, -⟩ := Controller.issued_of_run hctrl h₀.ctrl hok.isOtokenMint
      (hshort.trans_le hle)
    exact ⟨x, hx⟩

/-- The withdrawal of a vault with the given accounts. -/
def withdrawOrder (D : Deployment) (k : VaultKey) (v : Vault) (vm : VaultMM) (pool ben q : Pubkey) :
    EmergencyWithdrawOrder where
  beneficiary := v.beneficiary
  vault := k
  poolTokenAccount := pool
  collateralMintAccount := v.collateralMint
  beneficiaryTokenAccount := ben
  poolVaultAuthority := D.poolVaultAuth v.collateralMint
  maker := vm.maker
  otokenMint := vm.otokenMint
  settlerOtokenAccount := q

/-- **The seller of an option can take back its collateral in an emergency if and only if some account of
the settler holds all the oTokens that go with it.** -/
theorem emergency_exit_iff (hlive : T.Live) (hburn : T.BurnLive)
    (hrun : Run (Step D T rent verifies) s₀ tr s) (h₀ : Initial D s₀)
    (hpause : ∃ c, s.ctrl.config = some c ∧ c.fullyPaused = true) {v : Vault}
    (hv : s.ctrl.vaults.lookup k = some v) (hown : v.owner = D.settlerConfig)
    (hopen : v.settled = false) {pool ben : Pubkey}
    (hpool : ∃ p, s.ctrl.ledger.accounts.lookup pool = some p ∧ p.mint = v.collateralMint ∧
      p.owner = D.poolVaultAuth v.collateralMint ∧ v.collateralAmount ≤ p.amount)
    (hben : ∃ b, s.ctrl.ledger.accounts.lookup ben = some b ∧ b.mint = v.collateralMint ∧
      b.owner = v.beneficiary)
    (hmint : ∃ x, s.ctrl.ledger.mints.lookup v.collateralMint = some x) :
    (∃ ctx s', ctx.vault = k ∧ ctx.beneficiary = v.beneficiary ∧ ctx.poolTokenAccount = pool ∧
      ctx.beneficiaryTokenAccount = ben ∧ emergencyWithdraw D T ctx s = .ok s') ↔
      CustodyTogether D s k := by
  have hr := recorded_of_run hrun h₀
  constructor
  · rintro ⟨ctx, s', rfl, -, -, -, h⟩
    obtain ⟨_, _, _, _, _, he⟩ := emergencyWithdraw_effect h
    exact he.custodyTogether hr
  · rintro ⟨vm, q, a, hvm, ha, hao, ham, hle, hauth⟩
    have hbooked := booked_of_run hrun h₀
    obtain ⟨b, hb⟩ := hbooked.balance k vm hvm
    obtain ⟨config, hconfig⟩ := hbooked.config k vm hvm
    obtain ⟨w, hw, hok⟩ := hr.vault k vm hvm
    obtain rfl := Option.some.inj (hv.symm.trans hw)
    obtain ⟨hne, y, hy⟩ := hok.series hrun h₀ hv
    rw [State.custody, hb, Option.elim_some] at hle hauth
    obtain ⟨B, hB, hconserved, hkept, haccounts, hmints⟩ :=
      burnIfPositive_succeeds hburn hr.wellFormed.conserved ha hy ham hle hauth
    -- the accounts of the collateral are as before
    have hother : ∀ {j : Pubkey} {e : TokenAccount}, s.ctrl.ledger.accounts.lookup j = some e →
        e.mint = v.collateralMint → B.accounts.lookup j = some e := by
      intro j e he hem
      rw [haccounts j, he]
      rintro rfl
      rw [ha, Option.some.injEq] at he
      exact hne (by rw [← hem, ← he, ham])
    obtain ⟨p, hp, hpm, hpo, hpa⟩ := hpool
    obtain ⟨e, he, hem, heo⟩ := hben
    obtain ⟨x, hx⟩ := hmint
    have hready : ((withdrawOrder D k v vm pool ben q).withdraw D).Ready D { s.ctrl with ledger := B } v :=
      ⟨hpause, hv, hown, hopen, ⟨p, hother hp hpm, hpm, hpo, hpa⟩, ⟨e, hother he hem, hem, heo⟩,
        ⟨x, (hmints _ hne).trans hx⟩, rfl, rfl⟩
    obtain ⟨c, hc⟩ := Controller.emergencyWithdrawVault_succeeds hlive hconserved
      (hkept.undelegated hr.wellFormed.undelegated) (hr.wellFormed.vault hv).key hready
    refine ⟨withdrawOrder D k v vm pool ben q, { s with
      ctrl := c
      makerOtokenBalances := s.makerOtokenBalances.insert ⟨vm.maker, vm.otokenMint⟩
        { b with balance := b.balance - min vm.remainingAmount b.balance }
      vaultMMs := s.vaultMMs.insert k { vm with remainingAmount := 0 } }, rfl, rfl, rfl, rfl, ?_⟩
    simp only [emergencyWithdraw, loadConfig, loadMint, loadTokenAccount, loadMakerOtokenBalance,
      loadVaultMM, fromOption_bind_eq_ok, require_bind_eq_ok]
    refine ⟨config, hconfig, v, hv, rfl, hown, y, hy, a, ha, hao, ham, b, hb, vm, hvm,
      hbooked.vault k vm hvm, (hr.balance _ _ hb).symm, rfl, ?_⟩
    rw [bind_eq_ok]
    refine ⟨B, hB, ?_⟩
    rw [fromOption_bind_eq_ok]
    refine ⟨_, Checked.sub_eq_some.mpr (Nat.add_sub_of_le (Nat.min_le_right _ _)).symm, ?_⟩
    rw [lift_bind_eq_ok]
    exact ⟨c, hc, rfl⟩

section Sample

/-- Two orders on the same quote, whose oTokens are kept in accounts `41` and `45`; half of each is
redeemed for the maker. -/
def sampleSpread : List Action := sampleSetup ++
  [.controller (.openAccount 45 20 4), sampleExecute 0,
   .call (.executeOrder { sampleExecuteOrder 1 with settlerOtokenAccount := 45 } sampleOrder
     sampleTransaction 1)] ++ samplePriced ++
  [.call (.redeemForMM sampleRedeemForMM 500000),
   .call (.redeemForMM { sampleRedeemForMM with settlerOtokenAccount := 45 } 500000), samplePause]

/-- **Redemptions can block the sellers**: both vaults are open, the pool holds the collateral of either,
and neither can be withdrawn, whatever accounts are passed. -/
theorem emergency_exit_blocked :
    Initial sampleDeployment sampleState ∧
    Run (Step sampleDeployment splToken id sampleScheme) sampleState (sampleTrace sampleSpread)
      (sampleRun sampleSpread) ∧
    (sampleRun sampleSpread).ctrl.config = some ⟨1, 0, false, true⟩ ∧
    (sampleRun sampleSpread).ctrl.vaults.lookup ⟨4, 0⟩ = some sampleVault ∧
    (sampleRun sampleSpread).ctrl.ledger.accounts.lookup 12 =
      some ⟨10, sampleDeployment.poolVaultAuth 10, 10000, none, 0⟩ ∧
    ∀ ctx s', ctx.vault = ⟨4, 0⟩ →
      emergencyWithdraw sampleDeployment splToken ctx (sampleRun sampleSpread) ≠ .ok s' := by
  have hrun : Run (Step sampleDeployment splToken id sampleScheme) sampleState
      (sampleTrace sampleSpread) (sampleRun sampleSpread) :=
    sampleRun_run (by decide +kernel) (by decide +kernel)
  refine ⟨sampleState_initial, hrun, by decide +kernel, by decide +kernel, by decide +kernel, ?_⟩
  intro ctx s' hctx h
  obtain ⟨_, _, _, _, _, he⟩ := emergencyWithdraw_effect h
  obtain ⟨vm, q, a, hvm, ha, hao, ham, hle, -⟩ :=
    he.custodyTogether (recorded_of_run hrun sampleState_initial)
  rw [hctx] at hvm
  have hrecord : (sampleRun sampleSpread).vaultMMs.lookup ⟨4, 0⟩ =
      some ⟨otherKey, ⟨4, 0⟩, 20, 1000000⟩ := by decide +kernel
  rw [hrecord, Option.some.injEq] at hvm
  subst hvm
  have hcustody : (sampleRun sampleSpread).custody ⟨otherKey, 20⟩ = 1000000 := by decide +kernel
  rw [hcustody] at hle
  -- no account of the settler holds as much of the series
  have hnone : Store.total (fun _ a ↦ if a.owner = 4 ∧ a.mint = 20 ∧ 1000000 ≤ a.amount then 1 else 0)
      (sampleRun sampleSpread).ctrl.ledger.accounts = 0 := by decide +kernel
  have hone := Store.le_total
    (fun _ a ↦ if a.owner = 4 ∧ a.mint = 20 ∧ 1000000 ≤ a.amount then 1 else 0) ha
  rw [hnone, if_pos ⟨hao, ham, hle⟩] at hone
  exact absurd hone (by decide)

theorem emergency_exit_iff_sample : ∃ ctx s', ctx.vault = ⟨4, 0⟩ ∧ ctx.beneficiary = 1 ∧
    ctx.poolTokenAccount = 12 ∧ ctx.beneficiaryTokenAccount = 11 ∧
    emergencyWithdraw sampleDeployment splToken ctx (sampleRun sampleFrozen) = .ok s' := by
  have hrun : Run (Step sampleDeployment splToken id sampleScheme) sampleState
      (sampleTrace sampleFrozen) (sampleRun sampleFrozen) :=
    sampleRun_run (by decide +kernel) (by decide +kernel)
  have hv : (sampleRun sampleFrozen).ctrl.vaults.lookup ⟨4, 0⟩ = some sampleVault := by
    decide +kernel
  exact (emergency_exit_iff splToken_live splToken_burnLive hrun sampleState_initial
    ⟨⟨1, 0, false, true⟩, by decide +kernel, rfl⟩ hv rfl rfl
    ⟨⟨10, sampleDeployment.poolVaultAuth 10, 10000, none, 0⟩, by decide +kernel, rfl, rfl, by decide⟩
    ⟨⟨10, 1, 1980000, some 4, 990000⟩, by decide +kernel, rfl, rfl⟩
    ⟨⟨none, 6000000, 6⟩, by decide +kernel⟩).mpr
    ⟨⟨otherKey, ⟨4, 0⟩, 20, 1000000⟩, 41, ⟨20, 4, 1000000, none, 0⟩, by decide +kernel,
      by decide +kernel, rfl, rfl, by decide +kernel, by decide +kernel⟩

end Sample

end Settler

end OptionsProtocol
