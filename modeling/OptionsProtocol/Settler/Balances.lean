import OptionsProtocol.Controller.Stranding
import OptionsProtocol.Settler.Delivery
import OptionsProtocol.Settler.Redemption

/-!
# What a delivery leaves behind

A physical delivery hands the settler's signature to a swap program and then settles up by differences of
balances: the collateral the redemption brought in and the swap did not use, or the contra asset the swap
brought in beyond what the user is owed, goes to the maker. So the settler's accounts end as they began,
whatever they held before and whatever the route did.

That needs the maker's account to be another one. Where it is one of the two the settler passes along, the
surplus stays in it, and the delivery is exact only if there is no surplus.
-/

namespace OptionsProtocol

namespace Settler

open Except
open Controller (OTokenInfo amount_of_transferIfPositive)

variable {D : Deployment} {T : TokenProgram} {rent : ℕ → ℕ} {verifies : Ed25519.Signed → Bool}
  {s s' s₀ : State} {tr : List (Transition State Label)}

/-! ## The property -/

/-- What the delivery of `n` oTokens goes through: the controller's redemption leads to `c`, and the swap
from there to `c'`. The user is owed `owed`. -/
structure PhysicalRedeem.Through (D : Deployment) (T : TokenProgram) (s : State) (ctx : PhysicalRedeem)
    (n : ℕ) (swap : Swap) (info : OTokenInfo) (owed : ℕ) (c c' : Controller.State) : Prop where
  info_eq : s.ctrl.otokenInfos.lookup ctx.otokenMint = some info
  owed_eq : ∃ contraMint, s.ctrl.ledger.mints.lookup ctx.contraMint = some contraMint ∧
    computeContraAmount n info.strikePrice info.isPut contraMint.decimals = .ok owed
  redeem_eq : Controller.redeem D T (ctx.redeem D) n s.ctrl = .ok c
  swap_eq : swap c = .ok c'

/-- A delivery that is exact: `n` oTokens are burned and taken off both records, no more than `m` of the
collateral is spent, the user gets what it is owed and the maker what is left over, and the settler's
accounts end as they began. -/
structure PhysicalRedeem.Exact (D : Deployment) (T : TokenProgram) (s : State) (ctx : PhysicalRedeem)
    (n m : ℕ) (info : OTokenInfo) (owed : ℕ) (c c' : Controller.State) (s' : State) : Prop where
  burned : c.ledger.amount ctx.settlerOtokenAccount + n =
    s.ctrl.ledger.amount ctx.settlerOtokenAccount
  supply : c.ledger.supply ctx.otokenMint + n = s.ctrl.ledger.supply ctx.otokenMint
  /-- The handler itself burns nothing. -/
  mints : s'.ctrl.ledger.mints = c'.ledger.mints
  balance : s'.custody ctx.makerOtokenBalance + n = s.custody ctx.makerOtokenBalance
  remaining : ∃ vm vm', s.vaultMMs.lookup ctx.vault = some vm ∧
    s'.vaultMMs.lookup ctx.vault = some vm' ∧ vm'.remainingAmount + n = vm.remainingAmount
  spent : ∃ used ≤ m, c.ledger.amount ctx.settlerCollateralAccount =
    c'.ledger.amount ctx.settlerCollateralAccount + used
  settlerCollateral : s'.ctrl.ledger.amount ctx.settlerCollateralAccount =
    s.ctrl.ledger.amount ctx.settlerCollateralAccount
  settlerContra : s'.ctrl.ledger.amount ctx.settlerContraAccount =
    s.ctrl.ledger.amount ctx.settlerContraAccount
  /-- For a put, `received` came out of the redemption and `used` went into the swap. -/
  put : info.isPut = true →
    s.ctrl.ledger.amount ctx.userContraAccount + owed ≤ s'.ctrl.ledger.amount ctx.userContraAccount ∧
    ∃ received used surplus, c.ledger.amount ctx.settlerCollateralAccount =
        s.ctrl.ledger.amount ctx.settlerCollateralAccount + received ∧
      c.ledger.amount ctx.settlerCollateralAccount =
        c'.ledger.amount ctx.settlerCollateralAccount + used ∧
      received = used + surplus ∧
      s'.ctrl.ledger.amount ctx.mmCollateralAccount =
        c'.ledger.amount ctx.mmCollateralAccount + surplus
  /-- For a call, `L` is the ledger after the user was paid. -/
  call : info.isPut = false →
    (ctx.userContraAccount ≠ ctx.mmCollateralAccount →
      s'.ctrl.ledger.amount ctx.userContraAccount =
        s.ctrl.ledger.amount ctx.userContraAccount + owed) ∧
    ∃ surplus L d, c'.ledger.amount ctx.settlerContraAccount =
        s.ctrl.ledger.amount ctx.settlerContraAccount + owed + surplus ∧
      T.transferChecked c'.ledger ctx.settlerContraAccount ctx.contraMint ctx.userContraAccount
        D.settlerConfig owed d = some L ∧
      s'.ctrl.ledger.amount ctx.mmCollateralAccount = L.amount ctx.mmCollateralAccount + surplus

/-- The route leaves no surplus: it uses up what the redemption of a put brought in, or brings in for a call
just what the user is owed. -/
def PhysicalRedeem.NoSurplus (s : State) (ctx : PhysicalRedeem) (info : OTokenInfo) (owed : ℕ)
    (c' : Controller.State) : Prop :=
  if info.isPut then c'.ledger.amount ctx.settlerCollateralAccount =
    s.ctrl.ledger.amount ctx.settlerCollateralAccount
  else c'.ledger.amount ctx.settlerContraAccount =
    s.ctrl.ledger.amount ctx.settlerContraAccount + owed

/-- The maker's account is neither of the settler's. -/
def PhysicalRedeem.Apart (ctx : PhysicalRedeem) : Prop :=
  ctx.mmCollateralAccount ≠ ctx.settlerCollateralAccount ∧
    ctx.mmCollateralAccount ≠ ctx.settlerContraAccount

/-! ## The last transfers -/

section Effect

variable {ctx : PhysicalRedeem} {n m : ℕ} {swap : Swap} {r : PhysicalRedeem.Course}

/-- After the swap of a put, the settler pays the surplus collateral to the maker. -/
theorem PhysicalRedeem.Effect.put_amounts (hT : T.Plain)
    (h : PhysicalRedeem.Effect D T s ctx n m swap r s') (hside : r.acc.info.isPut = true) :
    ∃ surplus, r.collateralReceived = r.collateralUsed + surplus ∧
      ∀ k, s'.ctrl.ledger.amount k + (if k = ctx.settlerCollateralAccount then surplus else 0) =
        r.swapped.ledger.amount k + (if k = ctx.mmCollateralAccount then surplus else 0) := by
  obtain ⟨-, -, -, surplus, d, hsurplus, hpay⟩ := h.put hside
  refine ⟨surplus, hsurplus, fun k ↦ ?_⟩
  rw [h.state_eq]
  exact amount_of_transferIfPositive hT hpay k

/-- After the swap of a call, it pays the user what it is owed and the maker the surplus. -/
theorem PhysicalRedeem.Effect.call_amounts (hT : T.Plain)
    (h : PhysicalRedeem.Effect D T s ctx n m swap r s') (hside : r.acc.info.isPut = false) :
    ∃ surplus L d, r.settlerContraDelta = r.contraAmount + surplus ∧
      T.transferChecked r.swapped.ledger ctx.settlerContraAccount ctx.contraMint
        ctx.userContraAccount D.settlerConfig r.contraAmount d = some L ∧
      (∀ k, L.amount k + (if k = ctx.settlerContraAccount then r.contraAmount else 0) =
        r.swapped.ledger.amount k + (if k = ctx.userContraAccount then r.contraAmount else 0)) ∧
      ∀ k, s'.ctrl.ledger.amount k + (if k = ctx.settlerContraAccount then surplus else 0) =
        L.amount k + (if k = ctx.mmCollateralAccount then surplus else 0) := by
  obtain ⟨-, -, surplus, L, d, hsurplus, hdeliver, hpay⟩ := h.call hside
  refine ⟨surplus, L, d, hsurplus, hdeliver, (hT hdeliver).amount_eq, fun k ↦ ?_⟩
  rw [h.state_eq]
  exact amount_of_transferIfPositive hT hpay k

theorem PhysicalRedeem.Effect.settler_amounts (hT : T.Plain) (hr : Recorded D s)
    (h : PhysicalRedeem.Effect D T s ctx n m swap r s') :
    (s'.ctrl.ledger.amount ctx.settlerCollateralAccount =
        s.ctrl.ledger.amount ctx.settlerCollateralAccount ∧
      s'.ctrl.ledger.amount ctx.settlerContraAccount =
        s.ctrl.ledger.amount ctx.settlerContraAccount) ↔
      ctx.Apart ∨ ctx.NoSurplus s r.acc.info r.contraAmount r.swapped := by
  have hcollateral : s.ctrl.ledger.amount ctx.settlerCollateralAccount = r.acc.settlerCollateral.amount :=
    Ledger.amount_eq h.loaded.settlerCollateral_eq
  have hcontra : s.ctrl.ledger.amount ctx.settlerContraAccount = r.settlerContra.amount :=
    Ledger.amount_eq h.settlerContra_eq
  have hreceived := h.received
  have hused := h.used
  have hdelta := h.settlerContra_delta
  obtain ⟨hA, hB⟩ := h.userContra_ne hr
  rw [PhysicalRedeem.Apart, PhysicalRedeem.NoSurplus]
  cases hside : r.acc.info.isPut with
  | true =>
    obtain ⟨-, hzero, -, -⟩ := h.put hside
    obtain ⟨surplus, hsurplus, hpaid⟩ := h.put_amounts hT hside
    have hpaidA := hpaid ctx.settlerCollateralAccount
    have hpaidB := hpaid ctx.settlerContraAccount
    grind
  | false =>
    obtain ⟨hall, -, -⟩ := h.call hside
    obtain ⟨surplus, L, d, hsurplus, -, hdelivered, hpaid⟩ := h.call_amounts hT hside
    have hdeliveredA := hdelivered ctx.settlerCollateralAccount
    have hdeliveredB := hdelivered ctx.settlerContraAccount
    have hpaidA := hpaid ctx.settlerCollateralAccount
    have hpaidB := hpaid ctx.settlerContraAccount
    grind

theorem PhysicalRedeem.Effect.through (hw : Controller.WellFormed D s.ctrl)
    (h : PhysicalRedeem.Effect D T s ctx n m swap r s') :
    ctx.Through D T s n swap r.acc.info r.contraAmount r.redeemed r.swapped := by
  obtain ⟨_, _, hr⟩ := h.loaded.redeemed hw h.redeem
  exact ⟨hr.info_eq, ⟨_, h.contraMint_eq, h.contraAmount_eq⟩, h.redeem, h.swap⟩

/-- **A delivery is exact if and only if nothing of the surplus stays with the settler.** -/
theorem PhysicalRedeem.Effect.exact_iff (hT : T.Plain) (hr : Recorded D s)
    (h : PhysicalRedeem.Effect D T s ctx n m swap r s') :
    ctx.Exact D T s n m r.acc.info r.contraAmount r.redeemed r.swapped s' ↔
      ctx.Apart ∨ ctx.NoSurplus s r.acc.info r.contraAmount r.swapped := by
  rw [← h.settler_amounts hT hr]
  constructor
  · intro hexact
    exact ⟨hexact.settlerCollateral, hexact.settlerContra⟩
  rintro ⟨hA, hB⟩
  obtain ⟨payout, received, hredeemed⟩ := h.loaded.redeemed hr.wellFormed h.redeem
  obtain ⟨huserA, huserB⟩ := h.userContra_ne hr
  have hcollateral : s.ctrl.ledger.amount ctx.settlerCollateralAccount = r.acc.settlerCollateral.amount :=
    Ledger.amount_eq h.loaded.settlerCollateral_eq
  have hcontra : s.ctrl.ledger.amount ctx.settlerContraAccount = r.settlerContra.amount :=
    Ledger.amount_eq h.settlerContra_eq
  have huser : s.ctrl.ledger.amount ctx.userContraAccount = r.userContra.amount :=
    Ledger.amount_eq h.userContra_eq
  have hreceived := h.received
  have hused := h.used
  have hcontraDelta := h.settlerContra_delta
  have huserDelta := h.userContra_delta
  have hledger : s'.ctrl.ledger = r.ledger := by rw [h.state_eq]
  refine ⟨?_, hredeemed.supply, ?_, ?_, ?_, ⟨_, h.used_le, h.used⟩, hA, hB, fun hside ↦ ?_,
    fun hside ↦ ?_⟩
  · have hamount := hredeemed.amounts ctx.settlerOtokenAccount
    rwa [if_pos rfl, if_neg hredeemed.otoken_ne_pool, if_neg hredeemed.otoken_ne] at hamount
  · rw [hledger]
    cases hside : r.acc.info.isPut with
    | true =>
      obtain ⟨-, -, -, _, _, -, hpay⟩ := h.put hside
      exact Controller.mints_of_transferIfPositive hpay
    | false =>
      obtain ⟨-, -, _, _, _, -, hdeliver, hpay⟩ := h.call hside
      exact (Controller.mints_of_transferIfPositive hpay).trans (hT hdeliver).mints_eq
  · have hcovered := h.covered
    simp only [State.custody, h.state_eq, Finmap.lookup_insert, h.loaded.balance_eq, Option.elim_some]
    omega
  · refine ⟨_, _, h.vaultMM_eq, by rw [h.state_eq]; exact Finmap.lookup_insert _, ?_⟩
    exact Nat.sub_add_cancel h.remaining
  · -- the swap of a put pays the user, and afterwards only the settler's account loses
    obtain ⟨hle, -, -, -⟩ := h.put hside
    obtain ⟨surplus, hsurplus, hpaid⟩ := h.put_amounts hT hside
    have hpaidUser := hpaid ctx.userContraAccount
    have hpaidMaker := hpaid ctx.mmCollateralAccount
    have hpaidSettler := hpaid ctx.settlerCollateralAccount
    rw [if_neg huserA] at hpaidUser
    rw [if_pos rfl] at hpaidMaker
    refine ⟨by omega, r.collateralReceived, r.collateralUsed, surplus, by omega, hused, hsurplus, ?_⟩
    by_cases hM : ctx.mmCollateralAccount = ctx.settlerCollateralAccount
    · rw [if_pos rfl, if_pos hM.symm] at hpaidSettler
      rw [if_pos hM] at hpaidMaker
      omega
    · rw [if_neg hM] at hpaidMaker
      exact hpaidMaker
  · obtain ⟨-, hzero, -⟩ := h.call hside
    obtain ⟨surplus, L, d, hsurplus, hdeliver, hdelivered, hpaid⟩ := h.call_amounts hT hside
    constructor
    · intro hne
      have hdeliveredUser := hdelivered ctx.userContraAccount
      have hpaidUser := hpaid ctx.userContraAccount
      rw [if_neg huserB, if_pos rfl] at hdeliveredUser
      rw [if_neg huserB, if_neg hne] at hpaidUser
      omega
    · refine ⟨surplus, L, d, by omega, hdeliver, ?_⟩
      have hdeliveredSettler := hdelivered ctx.settlerContraAccount
      have hpaidMaker := hpaid ctx.mmCollateralAccount
      have hpaidSettler := hpaid ctx.settlerContraAccount
      rw [if_pos rfl, if_neg huserB.symm] at hdeliveredSettler
      rw [if_pos rfl] at hpaidMaker
      by_cases hM : ctx.mmCollateralAccount = ctx.settlerContraAccount
      · rw [if_pos rfl, if_pos hM.symm] at hpaidSettler
        rw [if_pos hM] at hpaidMaker
        omega
      · rw [if_neg hM] at hpaidMaker
        exact hpaidMaker

end Effect

/-! ## Every delivery -/

/-- Only the settler's own address, as a maker, has the maker's account among the settler's. -/
theorem PhysicalRedeem.Effect.apart {ctx : PhysicalRedeem} {n m : ℕ} {swap : Swap}
    {r : PhysicalRedeem.Course} (h : PhysicalRedeem.Effect D T s ctx n m swap r s')
    (hmaker : ctx.makerOtokenBalance.maker ≠ D.settlerConfig) : ctx.Apart := by
  have howner : r.acc.balance.maker = ctx.makerOtokenBalance.maker := by rw [h.key_eq]
  have hmm : s.ctrl.ledger.Owns ctx.makerOtokenBalance.maker ctx.mmCollateralAccount :=
    ⟨_, h.loaded.mmCollateral_eq, h.mmCollateral_owner.trans howner⟩
  exact ⟨hmm.ne ⟨_, h.loaded.settlerCollateral_eq, h.loaded.settlerCollateral_owner⟩ hmaker,
    hmm.ne ⟨_, h.settlerContra_eq, h.settlerContra_owner⟩ hmaker⟩

/-- **A delivery is exact, whatever the route, if and only if the maker's account is not one of the settler's
or the route leaves no surplus.** -/
theorem delivery_exact_iff (hT : T.Plain) (hrun : Run (Step D T rent verifies) s₀ tr s)
    (h₀ : Initial D s₀) {ctx : PhysicalRedeem} {n m : ℕ} {swap : Swap}
    (h : physicalRedeem D T ctx n m swap s = .ok s') :
    (ctx.makerOtokenBalance.maker ≠ D.settlerConfig → ctx.Apart) ∧
    ∃ info owed c c', ctx.Through D T s n swap info owed c c' ∧
      (ctx.Exact D T s n m info owed c c' s' ↔ ctx.Apart ∨ ctx.NoSurplus s info owed c') := by
  have hr := recorded_of_run hrun h₀
  obtain ⟨r, he⟩ := physicalRedeem_effect h
  exact ⟨he.apart, _, _, _, _, he.through hr.wellFormed, he.exact_iff hT hr⟩

section Sample

theorem delivery_exact_iff_sample : ∃ info owed c c',
    samplePhysicalRedeem.Through sampleDeployment splToken (sampleRun sampleExercised) 1000000
      sampleSwap info owed c c' ∧
    samplePhysicalRedeem.Exact sampleDeployment splToken (sampleRun sampleExercised) 1000000 10000
      info owed c c' (sampleRun (sampleExercised ++ [sampleDeliver])) := by
  obtain ⟨hrun, hstep⟩ := sampleDeliver_step
  have hdeliver : physicalRedeem sampleDeployment splToken samplePhysicalRedeem 1000000 10000
      sampleSwap (sampleRun sampleExercised) = .ok (sampleRun (sampleExercised ++ [sampleDeliver])) := by
    cases hstep with
    | call _ _ h => exact h
  obtain ⟨-, info, owed, c, c', hthrough, hiff⟩ :=
    delivery_exact_iff splToken_plain hrun sampleState_initial hdeliver
  exact ⟨info, owed, c, c', hthrough, hiff.mpr (.inl ⟨by decide, by decide⟩)⟩

/-- After the order in the settler's own name the series expires in the money. Accounts `33` and `43` are
the user's and the settler's for asset `15`, and `18` is the market's for the collateral. -/
def selfDealExercised : List Action := selfDeal ++ samplePriced ++
  [.controller (.openAccount 33 15 1), .controller (.openAccount 43 15 4),
   .controller (.openAccount 18 10 9)]

/-- The operator has that order delivered, and passes the settler's account as the maker's too. -/
def selfDealPhysicalRedeem : PhysicalRedeem := { samplePhysicalRedeem with
  makerOtokenBalance := ⟨4, 20⟩
  mmCollateralAccount := 43
  vault := ⟨4, 1⟩ }

def selfDealDeliver : Action :=
  .call (.physicalRedeem selfDealPhysicalRedeem 1000000 10000 sampleSwap)

/-- **A delivery can leave its surplus with the settler.** The swap brings `50500`, the user is owed `50000`,
and `500` stay in the settler's account, which was empty before. -/
theorem delivery_not_exact :
    Initial sampleDeployment sampleState ∧
    Run (Step sampleDeployment splToken id selfDealScheme) sampleState (sampleTrace selfDealExercised)
      (sampleRun selfDealExercised) ∧
    Step sampleDeployment splToken id selfDealScheme (sampleRun selfDealExercised)
      (.call (.physicalRedeem selfDealPhysicalRedeem 1000000 10000 sampleSwap))
      (sampleRun (selfDealExercised ++ [selfDealDeliver])) ∧
    selfDealPhysicalRedeem.settlerContraAccount = 43 ∧
    (sampleRun selfDealExercised).ctrl.ledger.amount 43 = 0 ∧
    (sampleRun (selfDealExercised ++ [selfDealDeliver])).ctrl.ledger.amount 43 = 500 := by
  have hnext : selfDealDeliver.next sampleDeployment splToken id (sampleRun selfDealExercised) =
      some (sampleRun (selfDealExercised ++ [selfDealDeliver])) :=
    Run.next_of_playable _ (by decide +kernel)
  have hsigner : ∀ k ∈ [selfDealPhysicalRedeem.signer], ¬sampleDeployment.IsPda k := by
    intro k hk
    rw [List.mem_singleton] at hk
    exact hk ▸ sampleDeployment_not_isPda (by decide) (by decide) (by decide)
  have hallowed : selfDealDeliver.Allowed sampleDeployment splToken selfDealScheme :=
    ⟨hsigner, sampleSwap_ordinary⟩
  exact ⟨sampleState_initial, sampleRun_run (by decide +kernel) (by decide +kernel),
    Action.step hallowed hnext, rfl, by decide +kernel, by decide +kernel⟩

end Sample

end Settler

end OptionsProtocol
