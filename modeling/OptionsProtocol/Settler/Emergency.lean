import OptionsProtocol.Controller.Series
import OptionsProtocol.Settler.Vaults

/-!
# Emergency withdrawals and the oTokens they leave behind

An emergency withdrawal returns the whole collateral of a vault. Through the settler it first burns
what the vault's record and the maker's balance still have in common; on a vault of one's own nothing
is burned. What still stands behind the oTokens in circulation is what the other vaults have minted,
less what was redeemed already, and the withdrawal lowers it by all that its vault has minted.

Supply and backing are thus lowered by different amounts, unless everything the vault has minted is
still in custody. That is so as long as nothing was delivered from the vault and the maker has not
redeemed.
-/

namespace OptionsProtocol

namespace Controller

variable {D : Deployment} {T : TokenProgram} {s s' : State} {o : Pubkey}

/-! ## Backing -/

/-- The oTokens of `o` a vault has minted, unless its collateral was withdrawn in an emergency. -/
def Vault.shortBehind (s : State) (o : Pubkey) (k : VaultKey) (v : Vault) : ℕ :=
  if v.settled = true ∧ ¬ClosedBySettle s k then 0 else v.shortOf o

/-- What stands behind the oTokens of `o`: what was minted against vaults that were not withdrawn, less
what was redeemed. -/
def backing (s : State) (o : Pubkey) : ℤ :=
  (Store.total (fun k v ↦ v.shortBehind s o k) s.vaults : ℕ) - (redeemedTotal s o : ℤ)

theorem WellFormed.not_closedBySettle (hw : WellFormed D s) {k : VaultKey} {v : Vault}
    (hv : s.vaults.lookup k = some v) (hs : v.settled = false) : ¬ClosedBySettle s k := by
  intro hc
  obtain ⟨w, -, hw, hsettled, -⟩ := hw.closed hc
  rw [hv, Option.some.injEq] at hw
  rw [← hw, hs] at hsettled
  exact absurd hsettled Bool.false_ne_true

theorem EmergencyWithdrawVault.Effect.backing_eq {ctx : EmergencyWithdrawVault} {v : Vault}
    {pool ben : TokenAccount} {L : Ledger} (hopen : ¬ClosedBySettle s ctx.vault)
    (h : EmergencyWithdrawVault.Effect D T s ctx v pool ben L s') (o : Pubkey) :
    backing s' o + v.shortOf o = backing s o := by
  have hlog : ∀ k, ClosedBySettle s' k ↔ ClosedBySettle s k := fun k ↦ by
    rw [ClosedBySettle, ClosedBySettle, h.state_eq]
    simp [Event.settles]
  have hkept : ∀ k (v : Vault), v.shortBehind s' o k = v.shortBehind s o k := fun k v ↦ by
    simp only [Vault.shortBehind, hlog]
  have key := Store.total_insert_of_lookup (fun k v ↦ Vault.shortBehind s o k v)
    { v with settled := true } h.vault_eq
  have hbefore : v.shortBehind s o ctx.vault = v.shortOf o := by
    rw [Vault.shortBehind, h.unsettled, if_neg (by simp)]
  have hafter : Vault.shortBehind s o ctx.vault { v with settled := true } = 0 := if_pos ⟨rfl, hopen⟩
  have hredeemed : redeemedTotal s' o = redeemedTotal s o := by
    rw [redeemedTotal, redeemedTotal, h.state_eq]
    simp [Event.redeemedOf]
  have hvaults : s'.vaults = s.vaults.insert ctx.vault { v with settled := true } := by
    rw [h.state_eq]
  rw [hbefore, hafter, ← hvaults] at key
  simp only [backing, hkept, hredeemed]
  omega

theorem EmergencyWithdrawVault.Effect.supply_eq {ctx : EmergencyWithdrawVault} {v : Vault}
    {pool ben : TokenAccount} {L : Ledger}
    (h : EmergencyWithdrawVault.Effect D T s ctx v pool ben L s') (o : Pubkey) :
    s'.ledger.supply o = s.ledger.supply o := by
  obtain ⟨d, ht⟩ := h.transfer
  rw [h.state_eq, Ledger.supply, Ledger.supply, mints_of_transferIfPositive ht]

end Controller

namespace Settler

open Controller (VaultKey Vault)

variable {D : Deployment} {T : TokenProgram} {rent : ℕ → ℕ} {verifies : Ed25519.Signed → Bool}
  {s s' s₀ : State} {l : Label} {tr : List (Transition State Label)}

/-! ## Withdrawals -/

/-- The vault a step withdraws the collateral of: an order's through the settler, another's by its
owner. -/
def Label.withdrawnVault : Label → Option VaultKey
  | .call (.emergencyWithdraw ctx) => some ctx.vault
  | .controller (.call (.emergencyWithdrawVault ctx)) => some ctx.vault
  | _ => none

/-- The oTokens a withdrawal burns. -/
def burnedBy (t : Transition State Label) : ℕ :=
  match t.label with
  | .call (.emergencyWithdraw ctx) =>
    min (t.pre.remaining ctx.vault) (t.pre.custody ⟨ctx.maker, ctx.otokenMint⟩)
  | _ => 0

theorem EmergencyWithdrawOrder.Effect.burned_eq {ctx : EmergencyWithdrawOrder} {v : Vault}
    {vm : VaultMM} {b : MakerOTokenBalance} {L : Ledger} {c : Controller.State}
    (h : EmergencyWithdrawOrder.Effect D T s ctx v vm b L c s') :
    burnedBy ⟨s, .call (.emergencyWithdraw ctx), s'⟩ = burned vm b := by
  simp only [burnedBy, State.remaining, State.custody, h.vaultMM_eq, h.balance_eq, Option.elim_some,
    burned]

/-- **What a withdrawal does to supply and backing.** -/
theorem Move.withdrawal {k : VaultKey} {v : Vault} (h : Move D T verifies s l s')
    (hr : Recorded D s) (hl : l.withdrawnVault = some k) (hv : s.ctrl.vaults.lookup k = some v) :
    s'.ctrl.ledger.supply v.otokenMint + burnedBy ⟨s, l, s'⟩ = s.ctrl.ledger.supply v.otokenMint ∧
      Controller.backing s'.ctrl v.otokenMint + v.shortAmount =
        Controller.backing s.ctrl v.otokenMint := by
  cases h with
  | @configured ix _ hix _ => cases ix <;> first | exact absurd hix id | cases hl
  | redeemed hix _ => rcases hix with rfl | rfl <;> cases hl
  | counted _ | listed | bumped _ | cancelled | executed _ _ _ | settled _ _ | delivered _ _
  | lamports _ => cases hl
  | @withdrawn ctx w vm b L c _ _ h =>
    obtain rfl : ctx.vault = k := Option.some.inj hl
    obtain rfl : w = v := by
      rw [h.vault_eq, Option.some.injEq] at hv
      exact hv
    obtain ⟨w', hw', hok⟩ := hr.vault _ _ h.vaultMM_eq
    rw [h.vault_eq, Option.some.injEq] at hw'
    subst hw'
    obtain ⟨v', pool, ben, L', hw⟩ := Controller.emergencyWithdrawVault_effect h.withdraw
    obtain rfl : w = v' := by
      have hv' : s.ctrl.vaults.lookup ctx.vault = some v' := hw.vault_eq
      rw [h.vault_eq, Option.some.injEq] at hv'
      exact hv'
    have hshort : w.shortOf w.otokenMint = w.shortAmount := if_pos rfl
    have hmint : w.otokenMint = ctx.otokenMint := hok.otokenMint.trans h.otokenMint_eq
    have hburned : L.supply ctx.otokenMint + EmergencyWithdrawOrder.burned vm b =
        s.ctrl.ledger.supply ctx.otokenMint := by
      rcases h.burn with ⟨-, d, hb⟩ | ⟨h0, rfl⟩
      · simpa using (T.burnChecked_spec hb).supply ctx.otokenMint
      · rw [h0, Nat.add_zero]
    have hopen : ¬Controller.ClosedBySettle s.ctrl ctx.vault :=
      hr.wellFormed.not_closedBySettle h.vault_eq hw.unsettled
    have hbacking := hw.backing_eq hopen w.otokenMint
    rw [hshort] at hbacking
    have hctrl : s'.ctrl = c := by rw [h.state_eq]
    rw [hctrl, h.burned_eq, hw.supply_eq, hmint]
    exact ⟨hburned, hmint ▸ hbacking⟩
  | @controller m c _ _ h =>
    cases h with
    | token _ | tick _ | createOtoken _ _ => cases hl
    | @call _ ix _ _ h =>
      cases ix with
      | emergencyWithdrawVault ctx =>
        obtain rfl : ctx.vault = k := Option.some.inj hl
        obtain ⟨v', pool, ben, L', hw⟩ := Controller.emergencyWithdrawVault_effect h
        obtain rfl : v = v' := by
          rw [hw.vault_eq, Option.some.injEq] at hv
          exact hv.symm
        have hbacking := hw.backing_eq
          (hr.wellFormed.not_closedBySettle hw.vault_eq hw.unsettled) v.otokenMint
        rw [Vault.shortOf, if_pos rfl] at hbacking
        exact ⟨hw.supply_eq _, hbacking⟩
      | _ => cases hl

/-- A withdrawal burns all its vault has minted, if the record is intact and the balance is what the
records add up to. -/
theorem EmergencyWithdrawOrder.Effect.burned_eq_short {ctx : EmergencyWithdrawOrder} {v : Vault}
    {vm : VaultMM} {b : MakerOTokenBalance} {L : Ledger} {c : Controller.State}
    (h : EmergencyWithdrawOrder.Effect D T s ctx v vm b L c s') (hr : Recorded D s)
    (hi : Intact ctx.vault s)
    (hb : s.custody ⟨ctx.maker, ctx.otokenMint⟩ = remainingTotal s ⟨ctx.maker, ctx.otokenMint⟩) :
    burned vm b = v.shortAmount := by
  have hmaker : vm.maker = ctx.maker := h.maker_eq.trans (hr.balance _ _ h.balance_eq)
  have hrecord : vm.remainingOf ⟨ctx.maker, ctx.otokenMint⟩ = vm.remainingAmount :=
    if_pos ⟨hmaker, h.otokenMint_eq⟩
  have hle := Store.le_total (fun _ vm ↦ VaultMM.remainingOf ⟨ctx.maker, ctx.otokenMint⟩ vm)
    h.vaultMM_eq
  have hcovered : vm.remainingAmount ≤ b.balance := by
    have hcustody : s.custody ⟨ctx.maker, ctx.otokenMint⟩ = b.balance := by
      rw [State.custody, h.balance_eq, Option.elim_some]
    rw [← hcustody, hb, ← hrecord]
    exact hle
  obtain ⟨w, hw, hintact⟩ := hi vm h.vaultMM_eq
  rw [h.vault_eq, Option.some.injEq] at hw
  subst hw
  rw [burned, Nat.min_eq_left hcovered]
  exact hintact h.vaults_eq.1

/-- The step takes nothing from the vault's record, redeems nothing from the balance, and changes no
vault behind the settler's back. -/
def Label.LeavesIntact (k : VaultKey) (b : BalanceKey) (l : Label) : Prop :=
  l.SparesVaults ∧ ¬l.DeliversFrom k ∧ ¬l.RedeemsToMaker b

/-- **What an emergency withdrawal leaves behind.** After any run, it takes away from the backing of the
vault's series all the vault has minted, and from the supply what it burns. So the oTokens stay within what
stands behind them exactly if there was room for what the vault has minted and the withdrawal did not burn.
Through the settler it burns it all, as long as nothing was delivered from the vault and the maker has not
redeemed. -/
theorem emergency_withdrawal_backing (hrun : Run (Step D T rent verifies) s₀ tr s)
    (h₀ : Initial D s₀) (hs : Step D T rent verifies s l s') {k : VaultKey} {v : Vault}
    (hl : l.withdrawnVault = some k) (hv : s.ctrl.vaults.lookup k = some v) :
    s'.ctrl.ledger.supply v.otokenMint + burnedBy ⟨s, l, s'⟩ = s.ctrl.ledger.supply v.otokenMint ∧
    Controller.backing s'.ctrl v.otokenMint + v.shortAmount = Controller.backing s.ctrl v.otokenMint ∧
    ((s'.ctrl.ledger.supply v.otokenMint : ℤ) ≤ Controller.backing s'.ctrl v.otokenMint ↔
      (s.ctrl.ledger.supply v.otokenMint : ℤ) + v.shortAmount ≤
        Controller.backing s.ctrl v.otokenMint + burnedBy ⟨s, l, s'⟩) ∧
    ∀ ctx, l = .call (.emergencyWithdraw ctx) →
      (∀ t ∈ tr, t.label.LeavesIntact k ⟨ctx.maker, ctx.otokenMint⟩) →
      burnedBy ⟨s, l, s'⟩ = v.shortAmount ∧
      ((s.ctrl.ledger.supply v.otokenMint : ℤ) ≤ Controller.backing s.ctrl v.otokenMint →
        (s'.ctrl.ledger.supply v.otokenMint : ℤ) ≤ Controller.backing s'.ctrl v.otokenMint) := by
  have hr := recorded_of_run hrun h₀
  obtain ⟨hsupply, hbacking⟩ := hs.move.withdrawal hr hl hv
  refine ⟨hsupply, hbacking, by omega, ?_⟩
  rintro ctx rfl hkept
  obtain rfl : ctx.vault = k := Option.some.inj hl
  have hbooks : Recorded D s ∧ Intact ctx.vault s ∧
      s.custody ⟨ctx.maker, ctx.otokenMint⟩ = remainingTotal s ⟨ctx.maker, ctx.otokenMint⟩ := by
    refine Run.invariant_of (I := fun s ↦ Recorded D s ∧ Intact ctx.vault s ∧
      s.custody ⟨ctx.maker, ctx.otokenMint⟩ = remainingTotal s ⟨ctx.maker, ctx.otokenMint⟩)
      ⟨h₀.recorded, ?_, ?_⟩ (fun _ _ _ hI hs hQ ↦ ?_) hrun hkept
    · intro vm hvm
      rw [h₀.vaultMMs] at hvm
      exact absurd hvm (by simp)
    · rw [State.custody, remainingTotal, h₀.makerOtokenBalances, h₀.vaultMMs]
      rfl
    · exact ⟨hs.move.recorded hI.1, hs.move.intact hQ.1 hQ.2.1 hI.1 hI.2.1,
        hs.move.custody_eq_remainingTotal hQ.2.2 hI.1 hI.2.2⟩
  have hburned : burnedBy ⟨s, .call (.emergencyWithdraw ctx), s'⟩ = v.shortAmount := by
    cases hs.move with
    | configured hix _ => exact absurd hix id
    | redeemed hix _ => rcases hix with hix | hix <;> cases hix
    | withdrawn _ he =>
      obtain rfl := Option.some.inj (he.vault_eq.symm.trans hv)
      rw [he.burned_eq]
      exact he.burned_eq_short hr hbooks.2.1 hbooks.2.2
  exact ⟨hburned, by omega⟩

section Sample

/-- The controller is fully paused. -/
def samplePause : Action := .controller (.call (.setFullyPaused 1 true))

/-- User `1` withdraws the collateral of its order. -/
def sampleWithdrawOrder : EmergencyWithdrawOrder where
  beneficiary := 1
  vault := ⟨4, 0⟩
  poolTokenAccount := 12
  collateralMintAccount := 10
  beneficiaryTokenAccount := 11
  poolVaultAuthority := sampleDeployment.poolVaultAuth 10
  maker := otherKey
  otokenMint := 20
  settlerOtokenAccount := 41

@[inherit_doc sampleWithdrawOrder]
def sampleWithdraw : Action := .call (.emergencyWithdraw sampleWithdrawOrder)

/-- The vault of the order. -/
def sampleVault : Vault :=
  { Vault.fresh ⟨4, 0⟩ 10 1 with
    collateralAmount := 10000
    otokenMint := 20
    shortAmount := 1000000 }

/-- An order, and a pause. -/
def sampleFrozen : List Action := sampleFirst ++ [samplePause]

theorem emergency_withdrawal_backing_sample :
    ((sampleRun (sampleFrozen ++ [sampleWithdraw])).ctrl.ledger.supply 20 : ℤ) ≤
      Controller.backing (sampleRun (sampleFrozen ++ [sampleWithdraw])).ctrl 20 := by
  have hrun : Run (Step sampleDeployment splToken id sampleScheme) sampleState
      (sampleTrace (sampleFrozen ++ [sampleWithdraw])) (sampleRun (sampleFrozen ++ [sampleWithdraw])) :=
    sampleRun_run (by decide +kernel) (by decide +kernel)
  rw [sampleTrace, Run.playTrace_append_cons _ _ (by decide +kernel)] at hrun
  obtain ⟨hbefore, hstep, -⟩ := Run.split hrun
  have hv : (sampleRun sampleFrozen).ctrl.vaults.lookup ⟨4, 0⟩ = some sampleVault := by decide +kernel
  have hle : ((sampleRun sampleFrozen).ctrl.ledger.supply sampleVault.otokenMint : ℤ) ≤
      Controller.backing (sampleRun sampleFrozen).ctrl sampleVault.otokenMint := by decide +kernel
  have hkept : ∀ a ∈ sampleFrozen, a.label.LeavesIntact ⟨4, 0⟩ ⟨otherKey, 20⟩ := by
    simp [sampleFrozen, sampleFirst, sampleSetup, sampleExecute, samplePause, Action.label,
      Label.LeavesIntact, Label.SparesVaults, Label.DeliversFrom, Label.RedeemsToMaker]
  simp only [sampleRun] at hv hle ⊢
  dsimp only at hbefore hstep
  obtain ⟨-, -, -, hsettler⟩ := emergency_withdrawal_backing hbefore sampleState_initial hstep rfl hv
  exact (hsettler sampleWithdrawOrder rfl fun _ ht ↦ Run.label_of_mem_playTrace _ _ hkept ht).2 hle

/-- User `1` deposits into a vault of its own. -/
def sampleOwnVault : List Action :=
  [.controller (.call (.initializeCounter 1)), .controller (.call (.openVault 1 10 1)),
   .controller (Controller.sampleDeposit 0 12 10000)]

/-- It mints against that vault. -/
def sampleOwn : List Action :=
  sampleSetup ++ sampleOwnVault ++ [.controller (Controller.sampleMint 0 1000000), samplePause]

/-- And withdraws the collateral. -/
def sampleWithdrawOwn : Action := .controller (.call (.emergencyWithdrawVault
  ⟨⟨1, 0⟩, 12, 10, 11, sampleDeployment.poolVaultAuth 10, 1⟩))

/-- Or else a part of the maker's oTokens is redeemed, while that vault's collateral lies in the pool,
too. -/
def sampleRedeemed : List Action := sampleFirst ++ sampleOwnVault ++ samplePriced ++
  [.call (.redeemForMM sampleRedeemForMM 400000), samplePause]

/-- **Withdrawals can leave too little behind**, a direct one as well as one through the settler. In
the first run a million oTokens are left with nothing behind them; in the second none are left, but
`400000` were redeemed already. -/
theorem emergency_withdrawal_not_backed :
    Initial sampleDeployment sampleState ∧
    (Run (Step sampleDeployment splToken id sampleScheme) sampleState
        (sampleTrace (sampleOwn ++ [sampleWithdrawOwn])) (sampleRun (sampleOwn ++ [sampleWithdrawOwn])) ∧
      ((sampleRun sampleOwn).ctrl.ledger.supply 20 : ℤ) = 1000000 ∧
      Controller.backing (sampleRun sampleOwn).ctrl 20 = 1000000 ∧
      ((sampleRun (sampleOwn ++ [sampleWithdrawOwn])).ctrl.ledger.supply 20 : ℤ) = 1000000 ∧
      Controller.backing (sampleRun (sampleOwn ++ [sampleWithdrawOwn])).ctrl 20 = 0) ∧
    (Run (Step sampleDeployment splToken id sampleScheme) sampleState
        (sampleTrace (sampleRedeemed ++ [sampleWithdraw])) (sampleRun (sampleRedeemed ++ [sampleWithdraw])) ∧
      ((sampleRun sampleRedeemed).ctrl.ledger.supply 20 : ℤ) = 600000 ∧
      Controller.backing (sampleRun sampleRedeemed).ctrl 20 = 600000 ∧
      ((sampleRun (sampleRedeemed ++ [sampleWithdraw])).ctrl.ledger.supply 20 : ℤ) = 0 ∧
      Controller.backing (sampleRun (sampleRedeemed ++ [sampleWithdraw])).ctrl 20 = -400000) :=
  ⟨sampleState_initial,
    ⟨sampleRun_run (by decide +kernel) (by decide +kernel), by decide +kernel, by decide +kernel,
      by decide +kernel, by decide +kernel⟩,
    ⟨sampleRun_run (by decide +kernel) (by decide +kernel), by decide +kernel, by decide +kernel,
      by decide +kernel, by decide +kernel⟩⟩

end Sample

end Settler

end OptionsProtocol
