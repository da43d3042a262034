import OptionsProtocol.Settler.Quotes

/-!
# What a quote costs its maker

The premium of an order is its amount scaled by the price and rounded down; the fee is a share of the rounded
premium, rounded down again, and the user gets the rest. However an amount is split into fills, the premiums
add up to no more than the premium of the whole and fall short of it by less than one unit for each fill, and
the fees add up to no more than the fee of the whole.

A quote bounds the amount that is executed under it. So it bounds what its maker pays, in every run.
-/

namespace OptionsProtocol

namespace Settler

open Except FloorSum

variable {D : Deployment} {T : TokenProgram} {rent : ℕ → ℕ} {verifies : Ed25519.Signed → Bool}
  {s s' s₀ : State} {tr : List (Transition State Label)} {bidPrice feeBps n premium fee net : ℕ}

/-! ## Splitting a premium -/

/-- **The value of `compute_premium_split`**, and when there is one. -/
theorem computePremiumSplit_eq_ok : computePremiumSplit n bidPrice feeBps = .ok (premium, fee, net) ↔
    (n * bidPrice < 2 ^ 128 ∧ premium < 2 ^ 64 ∧ premium * feeBps < 2 ^ 64) ∧
      premium = scale bidPrice PRICE_SCALE n ∧ fee = scale feeBps 10000 premium ∧
      premium = fee + net := by
  simp only [computePremiumSplit, fromOption_bind_eq_ok, Checked.mul_eq_some, Checked.div_eq_some,
    Checked.cast_eq_some, Checked.sub_eq_some, pure_eq_ok, Prod.mk.injEq]
  constructor
  · rintro ⟨_, ⟨rfl, hprod⟩, _, ⟨-, rfl⟩, _, ⟨rfl, hlt⟩, _, ⟨rfl, hscaled⟩, _, ⟨-, rfl⟩, _, hnet, rfl, rfl,
      rfl⟩
    exact ⟨⟨hprod, hlt, hscaled⟩, rfl, rfl, hnet⟩
  · rintro ⟨⟨hprod, hlt, hscaled⟩, rfl, rfl, hnet⟩
    exact ⟨_, ⟨rfl, hprod⟩, _, ⟨by decide, rfl⟩, _, ⟨rfl, hlt⟩, _, ⟨rfl, hscaled⟩, _, ⟨by decide, rfl⟩, _, hnet,
      rfl, rfl, rfl⟩

theorem premium_splitsDown :
    SplitsDown fun n ↦ (computePremiumSplit n bidPrice feeBps).map Prod.fst := by
  refine splitsDown_of_scale (c := bidPrice) (b := PRICE_SCALE) (by decide) fun {n r} h ↦ ?_
  cases hx : computePremiumSplit n bidPrice feeBps with
  | error e => simp [hx, Except.map] at h
  | ok x =>
    rw [hx] at h
    obtain rfl : x.1 = r := Except.ok.inj h
    exact (computePremiumSplit_eq_ok.mp hx).2.1

/-- Each fill divides its premium into the fee, a share of it, and the rest. -/
theorem fills_divide {amounts : List ℕ} {splits : List (ℕ × ℕ × ℕ)}
    (h : List.Forall₂ (fun n x ↦ computePremiumSplit n bidPrice feeBps = .ok x) amounts splits) :
    ∀ x ∈ splits, x.2.1 = scale feeBps 10000 x.1 ∧ x.1 = x.2.1 + x.2.2 := by
  induction h with
  | nil => exact fun x hx ↦ absurd hx List.not_mem_nil
  | @cons n x _ _ hn _ ih =>
    intro y hy
    rcases List.mem_cons.mp hy with rfl | hy
    · exact (computePremiumSplit_eq_ok.mp hn).2.2
    · exact ih y hy

theorem sum_fees_le {splits : List (ℕ × ℕ × ℕ)} (h : ∀ x ∈ splits, x.2.1 = scale feeBps 10000 x.1) :
    (splits.map fun x ↦ x.2.1).sum ≤ scale feeBps 10000 (splits.map Prod.fst).sum := by
  have hfees : (splits.map fun x ↦ x.2.1) = (splits.map Prod.fst).map (scale feeBps 10000) := by
    rw [List.map_map]
    exact List.map_congr_left h
  have hsum := sum_scale_le (c := feeBps) (b := 10000) (by decide) (splits.map Prod.fst : Multiset ℕ)
  rw [Multiset.map_coe, Multiset.sum_coe, Multiset.sum_coe] at hsum
  rw [hfees]
  exact hsum

/-! ## What an order costs -/

/-- What an order makes its maker pay: the fee, and the user's share. -/
def Order.charge (ord : Order) (feeBps : ℕ) : ℕ :=
  (computePremiumSplit ord.amount.toNat ord.bidPrice.toNat feeBps).toOption.elim 0 fun x ↦ x.2.1 + x.2.2

/-- What a step makes the maker pay under the quote. -/
def paidUnder (maker : Pubkey) (q : Quote) (t : Transition State Label) : ℕ :=
  match t.label with
  | .call (.executeOrder ctx ord _ _) =>
    if ctx.maker = maker ∧ ctx.quote ord = q then
      ord.charge (t.pre.config.elim 0 SettlerConfig.protocolFeeBps) else 0
  | _ => 0

theorem Order.charge_eq {ord : Order}
    (h : computePremiumSplit ord.amount.toNat ord.bidPrice.toNat feeBps = .ok (premium, fee, net)) :
    ord.charge feeBps = fee + net := by
  rw [charge, toOption_eq_some.mpr h]
  rfl

theorem Order.charge_le (ord : Order) (feeBps : ℕ) :
    ord.charge feeBps ≤ scale ord.bidPrice.toNat PRICE_SCALE ord.amount.toNat := by
  cases hx : computePremiumSplit ord.amount.toNat ord.bidPrice.toNat feeBps with
  | error e =>
    rw [charge, hx]
    exact Nat.zero_le _
  | ok x =>
    obtain ⟨-, hpremium, -, hdivided⟩ := computePremiumSplit_eq_ok.mp hx
    rw [charge_eq hx, ← hdivided, hpremium]

/-- An order takes no more than its charge out of the maker's account, and the collateral if it is to come
from there. -/
theorem ExecuteOrder.Effect.maker_amount_le {ctx : ExecuteOrder} {ord : Order} {tx : Transaction} {i : ℕ}
    {r : ExecuteOrder.Course} (h : ExecuteOrder.Effect D T s ctx ord tx i r s') (k : Pubkey) :
    s.ctrl.ledger.amount k ≤ s'.ctrl.ledger.amount k +
      ((if k = ctx.mmPremiumAccount then ord.charge r.config.protocolFeeBps else 0) +
        if k = ctx.userCollateralAccount then ord.collateralAmount.toNat else 0) := by
  obtain ⟨id, hopen⟩ := Controller.openVault_effect h.openVault
  obtain ⟨vault, user, pool, funded, hdeposit⟩ := Controller.depositCollateral_effect h.deposit
  obtain ⟨_, info, dest, minted, hmint⟩ := Controller.mintOtoken_effect h.mint
  obtain ⟨premium, hsplit⟩ := h.split
  obtain ⟨d, hpay⟩ := h.pay
  obtain ⟨d', hfee⟩ := h.payFee
  have hopened : r.opened.ledger = s.ctrl.ledger := by rw [hopen.state_eq]
  have hfunded : r.funded.ledger = funded := by rw [hdeposit.state_eq]
  have hminted : r.minted.ledger = minted := by rw [hmint.state_eq]
  obtain ⟨dd, ht⟩ := hdeposit.transfer
  obtain ⟨credited, hr⟩ := T.transferChecked_spec ht
  have hcollateral := hr.amount_le k
  have hissued := (T.mintTo_spec hmint.mintTo).amount k
  have hnet := Controller.amount_le_of_transferIfPositive hpay k
  have hcharge := Controller.amount_le_of_transferIfPositive hfee k
  rw [hopened] at hcollateral
  rw [hfunded] at hissued
  rw [hminted] at hnet
  rw [h.state_eq, Order.charge_eq hsplit]
  have hdep : (ctx.deposit D).userTokenAccount = ctx.userCollateralAccount := rfl
  rw [hdep] at hcollateral
  dsimp only
  split_ifs at hcollateral hnet hcharge ⊢ <;> omega

/-! ## What a quote costs -/

theorem paidUnder_le (maker : Pubkey) (q : Quote) (t : Transition State Label) :
    paidUnder maker q t ≤ scale q.bidPrice.toNat PRICE_SCALE (t.label.executedOf maker q.message) := by
  rw [paidUnder]
  split
  · rename_i ctx ord tx i hl
    split
    · rename_i hquote
      obtain ⟨hmaker, rfl⟩ := hquote
      have hexecuted : t.label.executedOf maker (ctx.quote ord).message = ord.amount.toNat := by
        rw [hl]
        exact if_pos ⟨hmaker, rfl⟩
      rw [hexecuted]
      exact ord.charge_le _
    · exact Nat.zero_le _
  · exact Nat.zero_le _

theorem history_paidUnder_le (maker : Pubkey) (q : Quote) (tr : List (Transition State Label)) :
    Run.history (paidUnder maker q) tr ≤ scale q.bidPrice.toNat PRICE_SCALE
      (Run.history (fun t ↦ t.label.executedOf maker q.message) tr) := by
  have hsum := sum_scale_le (c := q.bidPrice.toNat) (b := PRICE_SCALE) (by decide)
    (tr.map fun t ↦ t.label.executedOf maker q.message : Multiset ℕ)
  rw [Multiset.map_coe, Multiset.sum_coe, Multiset.sum_coe, List.map_map] at hsum
  exact (List.sum_le_sum fun t _ ↦ paidUnder_le maker q t).trans hsum

/-- **Partial fills never cost the maker more.** Whatever the price and the fee, and however an amount is
split: each fill divides its premium into a fee of at most a fifth and the rest; the premiums add up to at
most the premium of the whole, and to less than one unit less for each fill; and the fees add up to at most
the fee of the whole. So in every run the orders under a quote take at most the premium of its maximum from
its maker, each of them what it is charged. -/
theorem partial_fills_bounded :
    (∀ (bidPrice feeBps : ℕ) (amounts : List ℕ) (splits : List (ℕ × ℕ × ℕ)) (premium fee net : ℕ),
      feeBps ≤ MAX_FEE_BPS → amounts ≠ [] →
      List.Forall₂ (fun n x ↦ computePremiumSplit n bidPrice feeBps = .ok x) amounts splits →
      computePremiumSplit amounts.sum bidPrice feeBps = .ok (premium, fee, net) →
        (∀ x ∈ splits, x.1 = x.2.1 + x.2.2 ∧ x.2.1 ≤ x.1 * 2000 / 10000) ∧
        (splits.map Prod.fst).sum ≤ premium ∧ premium < (splits.map Prod.fst).sum + amounts.length ∧
        (splits.map fun x ↦ x.2.1).sum ≤ fee) ∧
    (∀ (D : Deployment) (T : TokenProgram) (rent : ℕ → ℕ) (verifies : Ed25519.Signed → Bool)
      (s₀ s : State) (tr : List (Transition State Label)), Initial D s₀ →
      Run (Step D T rent verifies) s₀ tr s → ∀ (maker : Pubkey) (q : Quote),
        Run.history (paidUnder maker q) tr ≤ q.maxAmount.toNat * q.bidPrice.toNat / PRICE_SCALE) ∧
    ∀ (D : Deployment) (T : TokenProgram) (rent : ℕ → ℕ) (ctx : ExecuteOrder) (ord : Order)
      (tx : Transaction) (i : ℕ) (s s' : State), executeOrder D T rent ctx ord tx i s = .ok s' →
        s.ctrl.ledger.amount ctx.mmPremiumAccount ≤ s'.ctrl.ledger.amount ctx.mmPremiumAccount +
          (ord.charge (s.config.elim 0 SettlerConfig.protocolFeeBps) +
            if ctx.mmPremiumAccount = ctx.userCollateralAccount then ord.collateralAmount.toNat
            else 0) := by
  refine ⟨?_, ?_, ?_⟩
  · intro bidPrice feeBps amounts splits premium fee net hbps hne hfills htotal
    have hdivide := fills_divide hfills
    have hpremiums : List.Forall₂ (fun n r ↦ (computePremiumSplit n bidPrice feeBps).map Prod.fst = .ok r)
        amounts (splits.map Prod.fst) := by
      rw [List.forall₂_map_right_iff]
      exact hfills.imp fun n x hx ↦ by rw [hx]; rfl
    obtain ⟨hle, hge⟩ := premium_splitsDown.pieces hpremiums (by rw [htotal]; rfl)
    have hlength : 0 < amounts.length := List.length_pos_of_ne_nil hne
    refine ⟨fun x hx ↦ ⟨(hdivide x hx).2, ?_⟩, hle, by omega, ?_⟩
    · rw [(hdivide x hx).1]
      exact Nat.div_le_div_right (Nat.mul_le_mul_left _ hbps)
    · obtain ⟨-, -, rfl, -⟩ := computePremiumSplit_eq_ok.mp htotal
      exact (sum_fees_le fun x hx ↦ (hdivide x hx).1).trans (scale_mono hle)
  · intro D T rent verifies s₀ s tr h₀ hrun maker q
    have hcap := (quotes_not_overfilled hrun h₀).2 maker q.otokenMint q.premiumMint q.bidPrice q.quoteId
      q.maxAmount q.makerNonce q.deadline
    exact (history_paidUnder_le maker q tr).trans (scale_mono hcap)
  · intro D T rent ctx ord tx i s s' h
    obtain ⟨r, he⟩ := executeOrder_effect h
    have hle := he.maker_amount_le ctx.mmPremiumAccount
    rw [if_pos rfl] at hle
    rw [he.config_eq]
    exact hle

/-- At a price of `1.5` two fills of `1` cost `1` each, and `3` at once. The two orders under the sample quote
cost its maker two of the three million it can cost. -/
theorem partial_fills_bounded_sample :
    (([(1, 0, 1), (1, 0, 1)] : List (ℕ × ℕ × ℕ)).map Prod.fst).sum ≤ 3 ∧
    (Run.history (paidUnder otherKey ((sampleExecuteOrder 0).quote sampleOrder))
        (sampleTrace sampleQuotes) = 2000000 ∧
      Run.history (paidUnder otherKey ((sampleExecuteOrder 0).quote sampleOrder))
        (sampleTrace sampleQuotes) ≤ 3000000) := by
  have hfills : List.Forall₂ (fun n x ↦ computePremiumSplit n 150000000 100 = .ok x) [1, 1]
      [(1, 0, 1), (1, 0, 1)] := .cons (by decide) (.cons (by decide) .nil)
  refine ⟨?_, by decide +kernel, ?_⟩
  · exact (partial_fills_bounded.1 150000000 100 [1, 1] _ 3 0 3 (by decide) (by decide) hfills
      (by decide)).2.1
  · exact partial_fills_bounded.2.1 _ _ _ _ _ _ _ sampleState_initial sampleQuotes_run otherKey
      ((sampleExecuteOrder 0).quote sampleOrder)

end Settler

end OptionsProtocol
