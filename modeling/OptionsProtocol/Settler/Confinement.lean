import OptionsProtocol.Settler.Balances
import OptionsProtocol.Settler.Custody

/-!
# What the swap can take

For the swap of `physical_redeem` the settler passes its signature on to a program and a route the
operator chose. With it goes everything that signature can spend: what the settler owns, and what
others have delegated to it.

Afterwards the deltas of three accounts are checked: the settler's for the collateral, the settler's and
the seller's for the asset delivered. That confines a route which takes nothing out of the other accounts,
or no more than it puts back. It does not notice one that does.
-/

namespace OptionsProtocol

namespace Settler

open Except

variable {D : Deployment} {T : TokenProgram} {s s' : State} {ctx : PhysicalRedeem} {n m : ℕ} {k : Pubkey}

/-! ## Routes -/

/-- One `transfer_checked`. -/
structure Transfer where
  source : Pubkey
  mint : Pubkey
  destination : Pubkey
  authority : Pubkey
  amount : ℕ
  decimals : ℕ

/-- The transfers, one after the other. -/
def transferAll (T : TokenProgram) : List Transfer → Ledger → Option Ledger
  | [], L => some L
  | t :: ts, L =>
    (T.transferChecked L t.source t.mint t.destination t.authority t.amount t.decimals).bind
      (transferAll T ts)

/-- A swap that is a sequence of transfers. -/
def route (T : TokenProgram) (ts : List Transfer) : Swap := fun c ↦ do
  let ledger ← fromOption (transferAll T ts c.ledger) .token
  pure { c with ledger }

/-- What the transfers take out of an account. -/
def outflow (ts : List Transfer) (k : Pubkey) : ℕ :=
  (ts.map fun t ↦ if k = t.source then t.amount else 0).sum

/-- What they are to put into it. -/
def inflow (ts : List Transfer) (k : Pubkey) : ℕ :=
  (ts.map fun t ↦ if k = t.destination then t.amount else 0).sum

variable {ts : List Transfer} {c c' : Controller.State} {L L' : Ledger}

theorem route_eq_ok : route T ts c = .ok c' ↔
    ∃ ledger, transferAll T ts c.ledger = some ledger ∧ c' = { c with ledger } := by
  simp only [route, fromOption_bind_eq_ok, pure_eq_ok]
  exact exists_congr fun _ ↦ and_congr_right fun _ ↦ eq_comm

theorem transferAll_amount_le (h : transferAll T ts L = some L') (k : Pubkey) :
    L.amount k ≤ L'.amount k + outflow ts k := by
  induction ts generalizing L with
  | nil =>
    obtain rfl := Option.some.inj h
    exact Nat.le_add_right _ _
  | cons t ts ih =>
    obtain ⟨L₁, h₁, h⟩ := Option.bind_eq_some_iff.mp h
    obtain ⟨credited, hr⟩ := T.transferChecked_spec h₁
    have hfirst := hr.amount_le k
    have hrest := ih h
    simp only [outflow, List.map_cons, List.sum_cons] at hrest ⊢
    omega

theorem transferAll_amount (hT : T.Plain) (h : transferAll T ts L = some L') (k : Pubkey) :
    L'.amount k + outflow ts k = L.amount k + inflow ts k := by
  induction ts generalizing L with
  | nil =>
    obtain rfl := Option.some.inj h
    rfl
  | cons t ts ih =>
    obtain ⟨L₁, h₁, h⟩ := Option.bind_eq_some_iff.mp h
    have hfirst := (hT h₁).amount_eq k
    have hrest := ih h
    simp only [outflow, inflow, List.map_cons, List.sum_cons] at hrest ⊢
    omega

theorem outflow_eq_zero (h : ∀ t ∈ ts, t.source ≠ k) : outflow ts k = 0 := by
  rw [outflow, List.sum_eq_zero_iff]
  intro x hx
  obtain ⟨t, ht, rfl⟩ := List.mem_map.mp hx
  exact if_neg (h t ht).symm

theorem route_ordinary (hauth : ∀ t ∈ ts, ¬D.IsControllerPda t.authority) : (route T ts).Ordinary D T := by
  intro c c' hu h
  obtain ⟨L, hL, rfl⟩ := route_eq_ok.mp h
  clear h
  induction ts generalizing c with
  | nil =>
    obtain rfl := Option.some.inj hL
    exact ⟨[], .nil, by simp⟩
  | cons t ts ih =>
    obtain ⟨L₁, h₁, hL⟩ := Option.bind_eq_some_iff.mp hL
    have hstep := step_of_transfer hu (hauth t List.mem_cons_self) h₁
    obtain ⟨tr, hrun, htr⟩ := ih (fun t ht ↦ hauth t (List.mem_cons_of_mem _ ht))
      (c := { c with ledger := L₁ }) (hstep.move.undelegated hu) hL
    refine ⟨_, (Run.single hstep).append hrun, fun t ht ↦ ?_⟩
    rcases List.mem_append.mp ht with hfirst | hrest
    · rw [List.mem_singleton.mp hfirst]
      simp
    · exact htr t hrest

/-! ## Confinement -/

/-- The settler's signature can spend from the account, as its owner or as its delegate. -/
def Spendable (D : Deployment) (L : Ledger) (k : Pubkey) : Prop :=
  ∃ a, L.accounts.lookup k = some a ∧ (a.owner = D.settlerConfig ∨ a.delegate = some D.settlerConfig)

instance (L : Ledger) (k : Pubkey) : Decidable (Spendable D L k) :=
  decidable_of_iff ((L.accounts.lookup k).any fun a ↦
      decide (a.owner = D.settlerConfig ∨ a.delegate = some D.settlerConfig)) <| by
    simp [Spendable, Option.any_eq_true]

/-- The swap, called at `c`, is confined: at the end of the instruction no spendable account has less than
before it, apart from the collateral that was redeemed for it. -/
def PhysicalRedeem.Confined (D : Deployment) (ctx : PhysicalRedeem) (received : ℕ)
    (c : Controller.State) (s' : State) : Prop :=
  ∀ k, Spendable D c.ledger k → c.ledger.amount k ≤
    s'.ctrl.ledger.amount k + (if k = ctx.settlerCollateralAccount then received else 0)

/-- The accounts whose deltas are checked. -/
def PhysicalRedeem.Checks (ctx : PhysicalRedeem) (k : Pubkey) : Prop :=
  k = ctx.settlerCollateralAccount ∨ k = ctx.settlerContraAccount ∨ k = ctx.userContraAccount

instance (ctx : PhysicalRedeem) (k : Pubkey) : Decidable (ctx.Checks k) :=
  inferInstanceAs (Decidable (_ ∨ _))

/-- What is left for the maker when the route has been taken from `c`: what it leaves in the settler's account
for the collateral of a put, or brings into its other account for a call and the user is not owed. -/
def PhysicalRedeem.leftover (s : State) (ctx : PhysicalRedeem) (c : Controller.State) (isPut : Bool)
    (owed : ℕ) (ts : List Transfer) : ℕ :=
  let source := if isPut then ctx.settlerCollateralAccount else ctx.settlerContraAccount
  c.ledger.amount source + inflow ts source -
    (outflow ts source + s.ctrl.ledger.amount source + if isPut then 0 else owed)

section Effect

variable {swap : Swap} {r : PhysicalRedeem.Course}

/-- What the instruction pays after the swap: for a put what is left of the collateral, for a call what
the swap brought in. -/
theorem PhysicalRedeem.Effect.paid_after (h : PhysicalRedeem.Effect D T s ctx n m swap r s')
    (k : Pubkey) :
    r.swapped.ledger.amount k ≤ s'.ctrl.ledger.amount k +
      ((if k = ctx.settlerCollateralAccount then r.collateralReceived - r.collateralUsed else 0) +
        if k = ctx.settlerContraAccount then r.settlerContraDelta else 0) := by
  rw [h.state_eq]
  dsimp only
  cases hside : r.acc.info.isPut with
  | true =>
    obtain ⟨-, -, -, surplus, d, hsurplus, hpay⟩ := h.put hside
    have hle := Controller.amount_le_of_transferIfPositive hpay k
    have heq : r.collateralReceived - r.collateralUsed = surplus := by omega
    rw [heq]
    omega
  | false =>
    obtain ⟨-, -, surplus, paid, d, hsurplus, hdeliver, hpay⟩ := h.call hside
    obtain ⟨credited, hr⟩ := T.transferChecked_spec hdeliver
    have hdelivered := hr.amount_le k
    have hle := Controller.amount_le_of_transferIfPositive hpay k
    rw [hsurplus]
    split_ifs at hdelivered hle ⊢ <;> omega

/-- The three accounts that are checked have in the end what they had before the swap, except for the
collateral. -/
theorem PhysicalRedeem.Effect.checked (h : PhysicalRedeem.Effect D T s ctx n m swap r s')
    (hk : ctx.Checks k) :
    r.redeemed.ledger.amount k ≤ s'.ctrl.ledger.amount k +
      (if k = ctx.settlerCollateralAccount then r.collateralReceived else 0) := by
  have hpaid := h.paid_after k
  have hused : r.collateralUsed ≤ r.collateralReceived := by
    cases hside : r.acc.info.isPut with
    | true =>
      obtain ⟨-, -, -, surplus, -, hsurplus, -⟩ := h.put hside
      omega
    | false => exact (h.call hside).1.le
  by_cases hcoll : k = ctx.settlerCollateralAccount
  · have hdelta := h.used
    have hreceived := h.received
    rw [← hcoll] at hdelta hreceived
    rw [if_pos hcoll] at hpaid ⊢
    by_cases hcontra : k = ctx.settlerContraAccount
    · -- one account for both assets: what the swap left in it is what it held all along
      have hsame := h.settlerContra_delta
      have hbefore : r.acc.settlerCollateral = r.settlerContra := by
        have hlookup := h.loaded.settlerCollateral_eq
        rw [← hcoll, hcontra, h.settlerContra_eq, Option.some.injEq] at hlookup
        exact hlookup.symm
      rw [← hcontra] at hsame
      rw [if_pos hcontra] at hpaid
      rw [← hbefore] at hsame
      have hzero : r.settlerContraDelta = 0 := by
        cases hside : r.acc.info.isPut with
        | true => exact (h.put hside).2.1
        | false =>
          have heq := (h.call hside).1
          omega
      omega
    · rw [if_neg hcontra] at hpaid
      omega
  · have hle := redeem_amount_le h.redeem (k := k) hcoll
    rw [if_neg hcoll] at hpaid ⊢
    by_cases hcontra : k = ctx.settlerContraAccount
    · have hdelta := h.settlerContra_delta
      have hbefore := Ledger.amount_eq h.settlerContra_eq
      rw [← hcontra] at hdelta hbefore
      rw [if_pos hcontra] at hpaid
      omega
    · have huser : k = ctx.userContraAccount := (hk.resolve_left hcoll).resolve_left hcontra
      have hdelta := h.userContra_delta
      have hbefore := Ledger.amount_eq h.userContra_eq
      rw [← huser] at hdelta hbefore
      rw [if_neg hcontra] at hpaid
      omega

/-- Of the accounts that are not checked, the payments after the swap touch the maker's, which gets the
surplus. -/
theorem PhysicalRedeem.Effect.unchecked (hT : T.Plain)
    (h : PhysicalRedeem.Effect D T s ctx n m (route T ts) r s') (hk : ¬ctx.Checks k) :
    s'.ctrl.ledger.amount k + outflow ts k = r.redeemed.ledger.amount k + inflow ts k +
      if k = ctx.mmCollateralAccount then
        ctx.leftover s r.redeemed r.acc.info.isPut r.contraAmount ts else 0 := by
  obtain ⟨L, hL, hswapped⟩ := route_eq_ok.mp h.swap
  have hroute : ∀ l, r.swapped.ledger.amount l + outflow ts l = r.redeemed.ledger.amount l + inflow ts l := by
    rw [hswapped]
    exact transferAll_amount hT hL
  have hk₀ := hroute k
  simp only [PhysicalRedeem.Checks, not_or] at hk
  obtain ⟨hcoll, hcontra, huser⟩ := hk
  rw [PhysicalRedeem.leftover]
  cases hside : r.acc.info.isPut with
  | true =>
    obtain ⟨surplus, hsurplus, hpaid⟩ := h.put_amounts hT hside
    have hsource := hroute ctx.settlerCollateralAccount
    have hbefore := Ledger.amount_eq h.loaded.settlerCollateral_eq
    have hreceived := h.received
    have hused := h.used
    have hlast := hpaid k
    rw [if_neg hcoll] at hlast
    have heq : r.redeemed.ledger.amount ctx.settlerCollateralAccount +
        inflow ts ctx.settlerCollateralAccount - (outflow ts ctx.settlerCollateralAccount +
          s.ctrl.ledger.amount ctx.settlerCollateralAccount + 0) = surplus := by omega
    simp only [if_true, heq]
    omega
  | false =>
    obtain ⟨surplus, paid, d, hsurplus, -, hdelivered, hpaid⟩ := h.call_amounts hT hside
    have hsource := hroute ctx.settlerContraAccount
    have hbefore := Ledger.amount_eq h.settlerContra_eq
    have hdelta := h.settlerContra_delta
    have hmiddle := hdelivered k
    have hlast := hpaid k
    rw [if_neg hcontra] at hmiddle hlast
    rw [if_neg huser] at hmiddle
    have heq : r.redeemed.ledger.amount ctx.settlerContraAccount + inflow ts ctx.settlerContraAccount -
        (outflow ts ctx.settlerContraAccount + s.ctrl.ledger.amount ctx.settlerContraAccount +
          r.contraAmount) = surplus := by omega
    simp only [Bool.false_eq_true, if_false, heq]
    omega

end Effect

/-- **A route is confined** if none of its transfers takes from an account that is spendable and not
checked. Where tokens are credited as they are debited, it is confined exactly if it takes no more out of
each such account than it puts into it, together with the surplus if the account is the one the maker is
paid to. -/
theorem swap_confined_iff (h : physicalRedeem D T ctx n m (route T ts) s = .ok s') :
    ∃ c received info contraMint owed,
      Controller.redeem D T (ctx.redeem D) n s.ctrl = .ok c ∧
      c.ledger.amount ctx.settlerCollateralAccount =
        s.ctrl.ledger.amount ctx.settlerCollateralAccount + received ∧
      s.ctrl.otokenInfos.lookup ctx.otokenInfo = some info ∧
      s.ctrl.ledger.mints.lookup ctx.contraMint = some contraMint ∧
      computeContraAmount n info.strikePrice info.isPut contraMint.decimals = .ok owed ∧
      ((∀ t ∈ ts, Spendable D c.ledger t.source → ctx.Checks t.source) →
        ctx.Confined D received c s') ∧
      (T.Plain → (ctx.Confined D received c s' ↔
        ∀ k, Spendable D c.ledger k → ¬ctx.Checks k →
          outflow ts k ≤ inflow ts k +
            if k = ctx.mmCollateralAccount then ctx.leftover s c info.isPut owed ts else 0)) := by
  obtain ⟨r, he⟩ := physicalRedeem_effect h
  refine ⟨r.redeemed, r.collateralReceived, r.acc.info, r.contraMint, r.contraAmount, he.redeem, ?_,
    he.loaded.info_eq, he.contraMint_eq, he.contraAmount_eq, fun hsources k hk ↦ ?_,
    fun hT ↦ ⟨fun hconfined k hk hchecks ↦ ?_, fun hflows k hk ↦ ?_⟩⟩
  · rw [he.received, Ledger.amount_eq he.loaded.settlerCollateral_eq]
  · by_cases hchecks : ctx.Checks k
    · exact he.checked hchecks
    · obtain ⟨L, hL, hswapped⟩ := route_eq_ok.mp he.swap
      have hnone : outflow ts k = 0 := by
        refine outflow_eq_zero fun t ht ↦ ?_
        rintro rfl
        exact hchecks (hsources t ht hk)
      have htaken := transferAll_amount_le hL k
      have hpaid := he.paid_after k
      simp only [PhysicalRedeem.Checks, not_or] at hchecks
      rw [hswapped, if_neg hchecks.1, if_neg hchecks.2.1] at hpaid
      rw [hnone] at htaken
      rw [if_neg hchecks.1]
      exact htaken.trans hpaid
  · have heq := he.unchecked hT hchecks
    have hle := hconfined k hk
    rw [if_neg fun hcoll ↦ hchecks (Or.inl hcoll)] at hle
    omega
  · by_cases hchecks : ctx.Checks k
    · exact he.checked hchecks
    · have heq := he.unchecked hT hchecks
      have hle := hflows k hk hchecks
      omega

section Sample

/-- The market also helps itself to the maker's account, through the allowance it has given the settler,
and to oTokens in the settler's custody. -/
def sampleTheft : List Transfer :=
  [⟨42, 10, 18, 4, 5000, 6⟩, ⟨17, 15, 43, 9, 25500, 6⟩, ⟨14, 10, 18, 4, 1000, 6⟩,
   ⟨41, 20, 31, 4, 500000, 8⟩]

/-- It borrows from the maker's account, and returns what it borrowed. -/
def sampleLoan : List Transfer :=
  [⟨42, 10, 18, 4, 10000, 6⟩, ⟨14, 10, 18, 4, 1000, 6⟩, ⟨17, 15, 43, 9, 50500, 6⟩,
   ⟨18, 10, 14, 9, 1000, 6⟩]

theorem sampleRoute_ordinary (hts : ∀ t ∈ ts, t.authority = 4 ∨ t.authority = 9) :
    (route splToken ts).Ordinary sampleDeployment splToken := by
  refine route_ordinary fun t ht ↦ ?_
  rcases hts t ht with hauth | hauth
  · exact hauth ▸ sampleDeployment.not_isControllerPda_settlerConfig
  · exact hauth ▸ sampleDeployment_not_isControllerPda (by decide) (by decide)

/-- Half of the order is delivered through the first route. -/
def sampleRob : Action :=
  .call (.physicalRedeem samplePhysicalRedeem 500000 5000 (route splToken sampleTheft))

/-- All of it through the second. -/
def sampleBorrow : Action :=
  .call (.physicalRedeem samplePhysicalRedeem 1000000 10000 (route splToken sampleLoan))

/-- **A route can take from accounts that are not checked**: the delivery succeeds, while the maker's
account loses `1000` and the settler's custody the `500000` oTokens that were not redeemed. -/
theorem swap_not_confined :
    Initial sampleDeployment sampleState ∧
    Run (Step sampleDeployment splToken id sampleScheme) sampleState (sampleTrace sampleExercised)
      (sampleRun sampleExercised) ∧
    Step sampleDeployment splToken id sampleScheme (sampleRun sampleExercised) sampleRob.label
      (sampleRun (sampleExercised ++ [sampleRob])) ∧
    (sampleRun sampleExercised).ctrl.ledger.accounts.lookup 14 =
      some ⟨10, otherKey, 4000000, some 4, 4000000⟩ ∧
    (sampleRun (sampleExercised ++ [sampleRob])).ctrl.ledger.amount 14 = 3999000 ∧
    (sampleRun sampleExercised).ctrl.ledger.accounts.lookup 41 = some ⟨20, 4, 1000000, none, 0⟩ ∧
    (sampleRun (sampleExercised ++ [sampleRob])).ctrl.ledger.amount 41 + 500000 < 1000000 := by
  have hnext : sampleRob.next sampleDeployment splToken id (sampleRun sampleExercised) =
      some (sampleRun (sampleExercised ++ [sampleRob])) :=
    Run.next_of_playable _ (by decide +kernel)
  have hsigner : ∀ k ∈ [samplePhysicalRedeem.signer], ¬sampleDeployment.IsPda k := by
    intro k hk
    rw [List.mem_singleton] at hk
    exact hk ▸ sampleDeployment_not_isPda (by decide) (by decide) (by decide)
  have hallowed : sampleRob.Allowed sampleDeployment splToken sampleScheme :=
    ⟨hsigner, sampleRoute_ordinary (by decide)⟩
  exact ⟨sampleState_initial, sampleRun_run (by decide +kernel) (by decide +kernel),
    Action.step hallowed hnext, by decide +kernel, by decide +kernel, by decide +kernel,
    by decide +kernel⟩

/-- The loan leaves the maker's account as it was, although the route takes from it. -/
theorem swap_confined_iff_sample : ∃ c received,
    Controller.redeem sampleDeployment splToken (samplePhysicalRedeem.redeem sampleDeployment) 1000000
      (sampleRun sampleExercised).ctrl = .ok c ∧
    Spendable sampleDeployment c.ledger 14 ∧ ¬samplePhysicalRedeem.Checks 14 ∧ outflow sampleLoan 14 = 1000 ∧
    (∀ k, Spendable sampleDeployment c.ledger k → ¬samplePhysicalRedeem.Checks k →
      outflow sampleLoan k ≤ inflow sampleLoan k) ∧
    samplePhysicalRedeem.Confined sampleDeployment received c
      (sampleRun (sampleExercised ++ [sampleBorrow])) := by
  have hborrow : physicalRedeem sampleDeployment splToken samplePhysicalRedeem 1000000 10000
      (route splToken sampleLoan) (sampleRun sampleExercised) =
        .ok (sampleRun (sampleExercised ++ [sampleBorrow])) := by
    have hnext : sampleBorrow.next sampleDeployment splToken id (sampleRun sampleExercised) =
        some (sampleRun (sampleExercised ++ [sampleBorrow])) :=
      Run.next_of_playable _ (by decide +kernel)
    exact Except.toOption_eq_some.mp hnext
  have hspend : ∀ c, Controller.redeem sampleDeployment splToken
      (samplePhysicalRedeem.redeem sampleDeployment) 1000000 (sampleRun sampleExercised).ctrl = .ok c →
        Spendable sampleDeployment c.ledger 14 ∧ ¬Spendable sampleDeployment c.ledger 17 ∧
          ¬Spendable sampleDeployment c.ledger 18 := by
    have hall : (Controller.redeem sampleDeployment splToken
      (samplePhysicalRedeem.redeem sampleDeployment) 1000000 (sampleRun sampleExercised).ctrl).toOption.all
        (fun c ↦ decide (Spendable sampleDeployment c.ledger 14 ∧ ¬Spendable sampleDeployment c.ledger 17 ∧
          ¬Spendable sampleDeployment c.ledger 18)) = true := by decide +kernel
    intro c hc
    rw [hc] at hall
    exact of_decide_eq_true hall
  obtain ⟨c, received, info, _, owed, hredeem, -, -, -, -, -, hiff⟩ := swap_confined_iff hborrow
  obtain ⟨h14, h17, h18⟩ := hspend c hredeem
  have hflows : ∀ k, Spendable sampleDeployment c.ledger k → ¬samplePhysicalRedeem.Checks k →
      outflow sampleLoan k ≤ inflow sampleLoan k := by
    intro k hk hchecks
    have h42 : k ≠ 42 := fun h ↦ hchecks (Or.inl h)
    by_cases hmaker : k = 14
    · rw [hmaker]
      decide
    · refine (outflow_eq_zero fun t ht ↦ ?_).trans_le (Nat.zero_le _)
      rintro rfl
      simp only [sampleLoan, List.mem_cons, List.not_mem_nil, or_false] at ht
      rcases ht with rfl | rfl | rfl | rfl
      · exact h42 rfl
      · exact hmaker rfl
      · exact h17 hk
      · exact h18 hk
  refine ⟨c, received, hredeem, h14, by decide, by decide, hflows, ?_⟩
  exact (hiff splToken_plain).mpr fun k hk hchecks ↦ (hflows k hk hchecks).trans (Nat.le_add_right _ _)

end Sample

end Settler

end OptionsProtocol
