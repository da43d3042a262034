import OptionsProtocol.Settler.Premium

/-!
# What a maker can lose

A maker lets the settler spend from the account it pays premiums from, and gives quotes away that anybody may
present. What can that cost? The settler's own instructions take tokens out of an account in two ways only.
An order of the account's holder takes the collateral of the vault it opens, and an order under a quote in the
holder's name takes the premium. Over any stretch of a run the second is bounded by the quotes that were
presented in it: for each of them the premium of its maximum, however often it was presented and whoever
did.

Beyond that there is what the holder does itself, and the swap of a physical delivery, which has the settler's
signature and so its allowances.
-/

namespace OptionsProtocol

open Except FloorSum

/-! ## The controller's part -/

namespace Controller

variable {D : Deployment} {T : TokenProgram} {s s' : State} {l : Label} {m k : Pubkey}

/-- What a step takes from an account on the signature of somebody who may spend from it. -/
def spent (k : Pubkey) (t : Transition State Label) : ℕ :=
  match t.label with
  | .call (.depositCollateral ctx n) => if k = ctx.userTokenAccount then n else 0
  | .call (.redeem ctx n) => if k = ctx.redeemerOtokenAccount then n else 0
  | .token => t.pre.ledger.amount k - t.post.ledger.amount k
  | _ => 0

theorem Move.amount_le (h : Move D T s l s') (hk : s.ledger.Owns m k) (hm : ¬D.IsControllerPda m) :
    s.ledger.amount k ≤ s'.ledger.amount k + spent k ⟨s, l, s'⟩ := by
  have hsame : s'.ledger = s.ledger → s.ledger.amount k ≤ s'.ledger.amount k + spent k ⟨s, l, s'⟩ := by
    intro heq
    rw [heq]
    exact Nat.le_add_right _ _
  have hpool : ∀ {p : Pubkey} {a : TokenAccount} {c : Pubkey}, s.ledger.accounts.lookup p = some a →
      a.owner = D.poolVaultAuth c → k ≠ p := by
    intro p a c ha ho
    exact hk.ne ⟨a, ha, ho⟩ fun heq ↦ hm (heq ▸ D.isControllerPda_poolVaultAuth c)
  cases h with
  | administered _ ha => exact hsame ha.ledger_eq
  | opened he => exact hsame (by rw [he.state_eq])
  | registered _ he => exact hsame (by rw [he.state_eq])
  | priced he => exact hsame (by rw [he.state_eq])
  | tick _ => exact hsame rfl
  | created _ _ => exact Nat.le_add_right _ _
  | token _ =>
    simp only [spent]
    omega
  | deposited _ he =>
    obtain ⟨d, ht⟩ := he.transfer
    obtain ⟨r, hr⟩ := T.transferChecked_spec ht
    rw [he.state_eq]
    exact hr.amount_le k
  | minted he =>
    have hamount := (T.mintTo_spec he.mintTo).amount k
    rw [he.state_eq, hamount]
    omega
  | settled he =>
    obtain ⟨d, ht⟩ := he.transfer
    have hle := amount_le_of_transferIfPositive ht k
    rw [if_neg (hpool he.pool_eq he.pool_owner)] at hle
    rw [he.state_eq]
    exact hle
  | withdrawn he =>
    obtain ⟨d, ht⟩ := he.transfer
    have hle := amount_le_of_transferIfPositive ht k
    rw [if_neg (hpool he.pool_eq he.pool_owner)] at hle
    rw [he.state_eq]
    exact hle
  | @redeemed ctx n _ _ _ _ _ _ _ _ he =>
    obtain ⟨d, hb⟩ := he.burn
    have hburned := (T.burnChecked_spec hb).amount k
    obtain ⟨d', ht⟩ := he.transfer
    have hle := amount_le_of_transferIfPositive ht k
    rw [if_neg (hpool he.pool_eq he.pool_owner)] at hle
    rw [he.state_eq]
    simp only [spent]
    omega

end Controller

namespace Settler

variable {D : Deployment} {T : TokenProgram} {rent : ℕ → ℕ} {verifies : Ed25519.Signed → Bool}
  {s s' s₀ : State} {l : Label} {tr : List (Transition State Label)} {m k : Pubkey}

/-! ## What a step takes -/

/-- What leaves an account of `m` on the signature of `m`, or of somebody `m` lets spend from it. -/
def spent (m k : Pubkey) (t : Transition State Label) : ℕ :=
  match t.label with
  | .controller l => Controller.spent k ⟨t.pre.ctrl, l, t.post.ctrl⟩
  | .call (.executeOrder ctx ord _ _) =>
    if ctx.user = m ∧ k = ctx.userCollateralAccount then ord.collateralAmount.toNat else 0
  | _ => 0

/-- What leaves an account during a physical delivery. -/
def swappedOut (k : Pubkey) (t : Transition State Label) : ℕ :=
  match t.label with
  | .call (.physicalRedeem ..) => t.pre.ctrl.ledger.amount k - t.post.ctrl.ledger.amount k
  | _ => 0

/-- The quote that a step presents in the name of `m`. -/
def Label.quoteOf (m : Pubkey) : Label → Option Quote
  | .call (.executeOrder ctx ord _ _) => if ctx.maker = m then some (ctx.quote ord) else none
  | _ => none

/-- What `m` pays for the order. -/
def premiumOf (m : Pubkey) (t : Transition State Label) : ℕ :=
  (t.label.quoteOf m).elim 0 fun q ↦ paidUnder m q t

/-- **What a step takes** from an account that none of the programs owns. -/
theorem Move.amount_le (h : Move D T verifies s l s') (hk : s.ctrl.ledger.Owns m k) (hm : ¬D.IsPda m) :
    s.ctrl.ledger.amount k ≤ s'.ctrl.ledger.amount k +
      (spent m k ⟨s, l, s'⟩ + swappedOut k ⟨s, l, s'⟩ + premiumOf m ⟨s, l, s'⟩) := by
  have hsame : s'.ctrl = s.ctrl → s.ctrl.ledger.amount k ≤ s'.ctrl.ledger.amount k +
      (spent m k ⟨s, l, s'⟩ + swappedOut k ⟨s, l, s'⟩ + premiumOf m ⟨s, l, s'⟩) := by
    intro heq
    rw [heq]
    exact Nat.le_add_right _ _
  have hctrl : ¬D.IsControllerPda m := D.not_isControllerPda_of_not_isPda hm
  -- the settler's accounts are not `m`'s
  have hsettler : ∀ {p : Pubkey} {a : TokenAccount}, s.ctrl.ledger.accounts.lookup p = some a →
      a.owner = D.settlerConfig → k ≠ p := by
    intro p a ha ho
    exact hk.ne ⟨a, ha, ho⟩ fun heq ↦ hm (heq ▸ D.isPda_settlerConfig)
  have howner : ∀ {p x : Pubkey}, (∃ a, s.ctrl.ledger.accounts.lookup p = some a ∧ a.owner = x) →
      k = p → x = m := by
    rintro p x ⟨a, ha, rfl⟩ rfl
    obtain ⟨b, hb, rfl⟩ := hk
    rw [Option.some.inj (ha.symm.trans hb)]
  cases h with
  | configured _ hc => exact hsame hc.ctrl_eq
  | listed => exact hsame rfl
  | bumped _ => exact hsame rfl
  | cancelled => exact hsame rfl
  | lamports _ => exact hsame rfl
  | counted hc =>
    have hstep : Controller.Step D T s.ctrl _ _ :=
      step_of_exec (T := T) (.initializeCounter D.settlerConfig) rfl trivial hc
    exact (hstep.move.amount_le hk hctrl).trans (Nat.add_le_add_left (Nat.zero_le _) _)
  | settled hsigner hc =>
    have hstep := step_of_settleVault hsigner hc
    exact (hstep.move.amount_le hk hctrl).trans (Nat.add_le_add_left (Nat.zero_le _) _)
  | controller _ _ hc =>
    have hle := hc.move.amount_le hk hctrl
    simp only [spent]
    omega
  | delivered _ _ =>
    simp only [swappedOut]
    omega
  | @executed ctx ord tx i r _ _ _ he =>
    have hle := he.maker_amount_le k
    have hcollateral : k = ctx.userCollateralAccount → ctx.user = m := howner he.userCollateral
    have hpremium : k = ctx.mmPremiumAccount → ctx.maker = m := by
      obtain ⟨a, ha, -, ho⟩ := he.mmPremium
      exact howner ⟨a, ha, ho⟩
    have hspent : (if k = ctx.userCollateralAccount then ord.collateralAmount.toNat else 0) ≤
        spent m k ⟨s, .call (.executeOrder ctx ord tx i), s'⟩ := by
      simp only [spent]
      by_cases hk' : k = ctx.userCollateralAccount
      · rw [if_pos hk', if_pos ⟨hcollateral hk', hk'⟩]
      · rw [if_neg hk']
        exact Nat.zero_le _
    have hpaid : (if k = ctx.mmPremiumAccount then ord.charge r.config.protocolFeeBps else 0) ≤
        premiumOf m ⟨s, .call (.executeOrder ctx ord tx i), s'⟩ := by
      by_cases hk' : k = ctx.mmPremiumAccount
      · simp [premiumOf, Label.quoteOf, paidUnder, hk', hpremium hk', he.config_eq]
      · rw [if_neg hk']
        exact Nat.zero_le _
    omega
  | @withdrawn ctx _ _ _ ledger ctrl _ _ he =>
    obtain ⟨a, ha, -, ho⟩ := he.settlerOtoken
    have hburn : ledger.amount k = s.ctrl.ledger.amount k ∧ ledger.Owns m k := by
      rcases he.burn with ⟨-, d, hb⟩ | ⟨-, rfl⟩
      · have hburned := T.burnChecked_spec hb
        have hamount := hburned.amount k
        rw [if_neg (hsettler ha ho)] at hamount
        exact ⟨hamount, hburned.kept.owns hk⟩
      · exact ⟨rfl, hk⟩
    have hstep := step_of_exec (.emergencyWithdrawVault (ctx.withdraw D)) rfl trivial he.withdraw
    have hle := hstep.move.amount_le hburn.2 hctrl
    rw [he.state_eq, ← hburn.1]
    exact hle.trans (Nat.add_le_add_left (Nat.zero_le _) _)
  | @redeemed _ ctx n _ redeemed _ ledger _ hix he =>
    obtain ⟨a, ha, -, ho⟩ := he.loaded.settlerOtoken
    have hstep := step_of_exec (.redeem (ctx.redeem D) n) rfl trivial he.redeem
    have hle : s.ctrl.ledger.amount k ≤ redeemed.ledger.amount k := by
      have hmove := hstep.move.amount_le hk hctrl
      have hne : k ≠ (ctx.redeem D).redeemerOtokenAccount := hsettler ha ho
      simp only [Controller.spent, if_neg hne] at hmove
      exact hmove
    obtain ⟨d, hpay⟩ := he.pay
    have hforward := Controller.amount_le_of_transferIfPositive hpay k
    rw [if_neg (hsettler he.loaded.settlerCollateral_eq he.loaded.settlerCollateral_owner)] at hforward
    rw [he.state_eq]
    dsimp only
    omega

/-! ## What quotes cost -/

/-- What a quote can cost at most: the premium of its maximum. -/
def Quote.cost (q : Quote) : ℕ := scale q.bidPrice.toNat PRICE_SCALE q.maxAmount.toNat

/-- The quotes that were presented in the name of `m`. -/
def presented (m : Pubkey) (tr : List (Transition State Label)) : Finset Quote :=
  (tr.filterMap fun t ↦ t.label.quoteOf m).toFinset

theorem Label.executedOf_ne_zero {q : Quote} (h : l.executedOf m q.message ≠ 0) :
    ∃ ctx ord tx i, l = .call (.executeOrder ctx ord tx i) ∧ ctx.maker = m ∧ ctx.quote ord = q := by
  cases l with
  | call ix =>
    cases ix with
    | executeOrder ctx ord tx i =>
      obtain ⟨hmaker, hmessage⟩ := (ite_ne_right_iff.mp h).1
      exact ⟨ctx, ord, tx, i, rfl, hmaker, Quote.message_injective hmessage⟩
    | _ => exact absurd rfl h
  | controller _ => exact absurd rfl h
  | lamports => exact absurd rfl h

/-- What is executed of a quote stays within its maximum, wherever one starts to count. -/
theorem executedOf_le (hrun : Run (Step D T rent verifies) s₀ tr s) (m : Pubkey) (q : Quote) :
    Run.history (fun t ↦ t.label.executedOf m q.message) tr ≤ q.maxAmount.toNat := by
  have hstep : ∀ s l s' n, (n ≤ s.filledAmount ⟨m, q.makerNonce.toNat, q.quoteId.toNat⟩ ∧
      n ≤ q.maxAmount.toNat) → Step D T rent verifies s l s' →
      n + l.executedOf m q.message ≤ s'.filledAmount ⟨m, q.makerNonce.toNat, q.quoteId.toNat⟩ ∧
        n + l.executedOf m q.message ≤ q.maxAmount.toNat := by
    intro s l s' n hI hs
    have hmove := hs.move
    rw [hmove.filledAmount_eq]
    by_cases hx : l.executedOf m q.message = 0
    · rw [hx]
      exact ⟨hI.1.trans (Nat.le_add_right _ _), hI.2⟩
    · -- such an order counts under the counter of the quote, whose cap it presents
      obtain ⟨ctx, ord, tx, i, rfl, rfl, rfl⟩ := Label.executedOf_ne_zero hx
      have hcap := hmove.filledAmount_le
      have hunder : Label.executedUnder (ctx.quoteKey ord) (.call (.executeOrder ctx ord tx i)) =
          ord.amount.toNat := if_pos rfl
      have hof : Label.executedOf ctx.maker (ctx.quote ord).message
          (.call (.executeOrder ctx ord tx i)) = ord.amount.toNat := if_pos ⟨rfl, rfl⟩
      rw [hof]
      refine ⟨?_, (Nat.add_le_add_right hI.1 _).trans hcap⟩
      exact (Nat.add_le_add_right hI.1 _).trans (Nat.add_le_add_left hunder.ge _)
  exact (Run.invariant_history (f := fun t ↦ t.label.executedOf m q.message)
    (I := fun s n ↦ n ≤ s.filledAmount ⟨m, q.makerNonce.toNat, q.quoteId.toNat⟩ ∧
      n ≤ q.maxAmount.toNat) ⟨Nat.zero_le _, Nat.zero_le _⟩ hstep hrun).2

theorem history_premiumOf_le (hrun : Run (Step D T rent verifies) s₀ tr s) (m : Pubkey) :
    Run.history (premiumOf m) tr ≤ (presented m tr).sum Quote.cost := by
  have hstep : ∀ t ∈ tr, premiumOf m t ≤ (presented m tr).sum fun q ↦ paidUnder m q t := by
    intro t ht
    rw [premiumOf]
    cases hq : t.label.quoteOf m with
    | none => exact Nat.zero_le _
    | some q =>
      have hmem : q ∈ presented m tr := by
        rw [presented, List.mem_toFinset, List.mem_filterMap]
        exact ⟨t, ht, hq⟩
      exact Finset.single_le_sum (f := fun q ↦ paidUnder m q t) (fun _ _ ↦ Nat.zero_le _) hmem
  calc Run.history (premiumOf m) tr
      ≤ Run.history (fun t ↦ (presented m tr).sum fun q ↦ paidUnder m q t) tr := Run.history_mono hstep
    _ = (presented m tr).sum fun q ↦ Run.history (paidUnder m q) tr := Run.history_sum _ _ _
    _ ≤ (presented m tr).sum Quote.cost := by
      refine Finset.sum_le_sum fun q _ ↦ ?_
      exact (history_paidUnder_le m q tr).trans (scale_mono (executedOf_le hrun m q))

/-- **What a maker can lose.** Over any stretch of a run, an account that belongs to `m` throughout loses
no more than leaves it on the signature of `m` or of somebody `m` lets spend from it, or in the swaps of
physical deliveries, and the premiums of the maxima of the quotes presented in the name of `m`, each
counted once. -/
theorem exposure_bounded (hrun : Run (Step D T rent verifies) s₀ tr s) (hm : ¬D.IsPda m)
    (howns : ∀ t ∈ tr, t.pre.ctrl.ledger.Owns m k) :
    s₀.ctrl.ledger.amount k ≤ s.ctrl.ledger.amount k + Run.history (spent m k) tr +
      Run.history (swappedOut k) tr + (presented m tr).sum Quote.cost := by
  have hbalance := Run.accounting_le (I := fun _ ↦ True) (Q := fun t ↦ t.pre.ctrl.ledger.Owns m k)
    (fun _ ↦ 0) (fun s ↦ s.ctrl.ledger.amount k)
    (fun t ↦ spent m k t + swappedOut k t + premiumOf m t) (fun _ ↦ 0) trivial
    (fun _ _ _ _ _ _ ↦ trivial) (fun _ _ _ _ hs hk ↦ by
      have hle := hs.move.amount_le hk hm
      omega) hrun howns
  have hpremiums := history_premiumOf_le hrun m
  rw [Run.history_add, Run.history_add, Run.history_zero] at hbalance
  omega

/-- Two orders under one quote take two of the three million the quote can cost out of the maker's account,
and the holder nothing. -/
theorem exposure_bounded_sample : sampleState.ctrl.ledger.amount 14 ≤
    (sampleRun sampleQuotes).ctrl.ledger.amount 14 +
      Run.history (spent otherKey 14) (sampleTrace sampleQuotes) +
      Run.history (swappedOut 14) (sampleTrace sampleQuotes) +
      (presented otherKey (sampleTrace sampleQuotes)).sum Quote.cost := by
  refine exposure_bounded sampleQuotes_run
    (sampleDeployment_not_isPda (by decide) (by decide) (by decide)) fun t ht ↦ ?_
  have hall : ∀ t ∈ sampleTrace sampleQuotes,
      (t.pre.ctrl.ledger.accounts.lookup 14).map TokenAccount.owner = some otherKey := by
    decide +kernel
  exact Option.map_eq_some_iff.mp (hall t ht)

end Settler

end OptionsProtocol
