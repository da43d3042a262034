import OptionsProtocol.Settler.Exchange
import OptionsProtocol.Settler.Vaults

/-!
# Maker custody

The oTokens of all makers lie in accounts of one address, the settler's, and a record for each maker
and series says how many of them are its own. An order mints into these accounts, a redemption and
an emergency withdrawal burn out of them, and each writes the record by the same amount. The amounts
come from different places: the order's argument, the redeemer's argument, the smaller of two
counters.

Nobody else can take oTokens out of these accounts, but anybody can put some in, so the books
balance up to what came from outside. They rest on one thing the settler does not check: that the
maker of an order is not the settler itself. Its premium would be paid out of custody. No key signs
for that address, so only an order whose signature check was misled can name it.
-/

namespace OptionsProtocol

namespace Settler

open Controller (VaultKey Vault OTokenInfo)

variable {D : Deployment} {T : TokenProgram} {rent : ℕ → ℕ} {verifies : Ed25519.Signed → Bool}
  {s s' s₀ : State} {l : Label} {tr : List (Transition State Label)} {o : Pubkey}

/-! ## The books -/

/-- Selects what the settler's address holds of `o`. -/
def custodyTest (D : Deployment) (o owner mint : Pubkey) : Bool :=
  decide (owner = D.settlerConfig ∧ mint = o)

/-- What the settler's accounts hold of `o`. -/
def custodyHeld (D : Deployment) (s : State) (o : Pubkey) : ℕ :=
  s.ctrl.ledger.balance D.settlerConfig o

/-- What the makers' records of `o` add up to. -/
def custodyOwed (s : State) (o : Pubkey) : ℕ :=
  Store.total (fun k b ↦ if k.otokenMint = o then b.balance else 0) s.makerOtokenBalances

/-- The fee of an order. -/
def Order.fee (ord : Order) (config : SettlerConfig) : ℕ :=
  match computePremiumSplit ord.amount.toNat ord.bidPrice.toNat config.protocolFeeBps with
  | .ok (_, fee, _) => fee
  | .error _ => 0

/-- What reaches the settler's accounts of `o` from outside: what others add to them (donations,
oTokens minted there, collateral of vaults whose beneficiary is the settler) and fees, if the settler
is its own treasury. A loss in somebody else's step would not be made good by it. -/
def creditedBy (D : Deployment) (o : Pubkey) (t : Transition State Label) : ℕ :=
  match t.label with
  | .call (.executeOrder _ ord _ _) => t.pre.config.elim 0 fun config ↦
      if config.treasury = D.settlerConfig ∧ ord.premiumMint = o then ord.fee config else 0
  | .call (.settleVault ..) => custodyHeld D t.post o - custodyHeld D t.pre o
  | .controller _ => custodyHeld D t.post o - custodyHeld D t.pre o
  | _ => 0

/-- The order names the settler's own address as its maker. -/
def Label.InSettlersName (D : Deployment) : Label → Prop
  | .call (.executeOrder ctx _ _ _) => ctx.maker = D.settlerConfig
  | _ => False

/-- The swap leaves the settler's oToken accounts as they are. -/
def Swap.SparesCustody (D : Deployment) (swap : Swap) : Prop :=
  ∀ c c', swap c = .ok c' → ∀ k a, a.owner = D.settlerConfig → D.IsOtokenMint a.mint →
    (c.ledger.accounts.lookup k = some a ↔ c'.ledger.accounts.lookup k = some a)

def Label.SparesCustody (D : Deployment) : Label → Prop
  | .call (.physicalRedeem _ _ _ swap) => swap.SparesCustody D
  | _ => True

/-- The settler's oToken accounts have no delegate. -/
def CustodyUndelegated (D : Deployment) (L : Ledger) : Prop :=
  ∀ k a, L.accounts.lookup k = some a → a.owner = D.settlerConfig → D.IsOtokenMint a.mint →
    a.delegate = none

/-- What the books rest on. -/
structure CustodyOk (D : Deployment) (s : State) : Prop where
  wellFormed : Controller.WellFormed D s.ctrl
  undelegated : CustodyUndelegated D s.ctrl.ledger
  maker_ne : ∀ k b, s.makerOtokenBalances.lookup k = some b → k.maker ≠ D.settlerConfig

theorem custodyHeld_def (D : Deployment) (s : State) (o : Pubkey) :
    custodyHeld D s o = s.ctrl.ledger.held (custodyTest D o) := rfl

theorem custodyTest_settler (D : Deployment) (o mint : Pubkey) :
    custodyTest D o D.settlerConfig mint = decide (mint = o) := by
  simp [custodyTest]

theorem custodyTest_of_ne {owner : Pubkey} (h : owner ≠ D.settlerConfig) (mint : Pubkey) :
    custodyTest D o owner mint = false :=
  decide_eq_false fun hc ↦ h hc.1

theorem custodyTest_of_mint {mint : Pubkey} (h : mint ≠ o) (owner : Pubkey) :
    custodyTest D o owner mint = false :=
  decide_eq_false fun hc ↦ h hc.2

theorem ne_settlerConfig_of_not_isPda {k : Pubkey} (h : ¬D.IsPda k) : k ≠ D.settlerConfig :=
  fun hk ↦ h (hk ▸ D.isPda_settlerConfig)

theorem poolVaultAuth_ne_settlerConfig (D : Deployment) (m : Pubkey) :
    D.poolVaultAuth m ≠ D.settlerConfig :=
  (D.settlerConfig_ne_poolVaultAuth m).symm

theorem custodyOwed_of_spent {k : BalanceKey} {b : MakerOTokenBalance} {n : ℕ}
    (hk : s.makerOtokenBalances.lookup k = some b) (hn : n ≤ b.balance)
    (h : s'.makerOtokenBalances =
      s.makerOtokenBalances.insert k { b with balance := b.balance - n }) :
    custodyOwed s' o + (if k.otokenMint = o then n else 0) = custodyOwed s o := by
  have key := Store.total_insert_of_lookup (fun k b ↦ if k.otokenMint = o then b.balance else 0)
    { b with balance := b.balance - n } hk
  rw [← h] at key
  change custodyOwed s' o + _ = custodyOwed s o + _ at key
  split
  · rename_i hko
    simp only [if_pos hko] at key
    omega
  · rename_i hko
    simp only [if_neg hko] at key
    exact key

theorem custodyOwed_of_gained {k : BalanceKey} {b : MakerOTokenBalance} {n : ℕ}
    (hb : b.balance = s.custody k + n)
    (h : s'.makerOtokenBalances = s.makerOtokenBalances.insert k b) :
    custodyOwed s' o = custodyOwed s o + (if k.otokenMint = o then n else 0) := by
  have key := Store.total_insert (fun k b ↦ if k.otokenMint = o then b.balance else 0)
    s.makerOtokenBalances k b
  have hold : (s.makerOtokenBalances.lookup k).elim 0
      (fun b ↦ if k.otokenMint = o then b.balance else 0) =
        if k.otokenMint = o then s.custody k else 0 := by
    rw [State.custody]
    cases s.makerOtokenBalances.lookup k with
    | none => simp
    | some b => rfl
  rw [hold, ← h, hb] at key
  change custodyOwed s' o + _ = custodyOwed s o + _ at key
  split
  · rename_i hko
    simp only [if_pos hko] at key
    omega
  · rename_i hko
    simp only [if_neg hko] at key
    exact key

/-! ## Conditional transfers -/

section Transfers

variable {L L' : Ledger} {x y src mint dst auth : Pubkey} {n d : ℕ} {p : Pubkey → Pubkey → Bool}

theorem held_add_of_transferIfPositive
    (h : Controller.transferIfPositive T L src mint dst auth n d = .ok L') (hx : L.Owns x src)
    (hy : L.Owns y dst) (hp : p x mint = false) :
    ∃ r, L'.held p = L.held p + (if p y mint then r else 0) := by
  rcases Controller.transferIfPositive_eq_ok.mp h with ⟨-, ht⟩ | ⟨-, rfl⟩
  · obtain ⟨r, hr⟩ := T.transferChecked_spec ht
    exact ⟨r, hr.held_add hx hy hp⟩
  · exact ⟨0, by simp⟩

theorem held_add_of_plain {Q : Pubkey → Prop} (hT : T.PlainOn Q) (hQ : ∀ x, p x mint = true → Q mint)
    (h : Controller.transferIfPositive T L src mint dst auth n d = .ok L') (hx : L.Owns x src)
    (hy : L.Owns y dst) (hp : p x mint = false) :
    L'.held p = L.held p + (if p y mint then n else 0) := by
  rcases Controller.transferIfPositive_eq_ok.mp h with ⟨-, ht⟩ | ⟨rfl, rfl⟩
  · by_cases hy' : p y mint = true
    · exact (hT (hQ y hy') ht).held_add hx hy hp
    · obtain ⟨r, hr⟩ := T.transferChecked_spec ht
      have key := hr.held_add hx hy hp
      rwa [if_neg hy'] at key ⊢
  · simp

theorem held_sub_of_transferIfPositive
    (h : Controller.transferIfPositive T L src mint dst auth n d = .ok L') (hx : L.Owns x src)
    (hy : L.Owns y dst) (hp : p y mint = false) :
    L'.held p + (if p x mint then n else 0) = L.held p := by
  rcases Controller.transferIfPositive_eq_ok.mp h with ⟨-, ht⟩ | ⟨rfl, rfl⟩
  · obtain ⟨r, hr⟩ := T.transferChecked_spec ht
    exact hr.held_sub hx hy hp
  · simp

theorem held_of_transferIfPositive_of_mint
    (h : Controller.transferIfPositive T L src mint dst auth n d = .ok L')
    (hp : ∀ x, p x mint = false) : L'.held p = L.held p := by
  rcases Controller.transferIfPositive_eq_ok.mp h with ⟨-, ht⟩ | ⟨-, rfl⟩
  · obtain ⟨r, hr⟩ := T.transferChecked_spec ht
    exact hr.held_of_mint hp
  · rfl

end Transfers

/-! ## Everybody else

Others cannot take oTokens out of custody, and cannot delegate it. -/

section Others

variable {c c' : Controller.State} {m : Controller.Label}

theorem CustodyUndelegated.kept {L L' : Ledger} (hc : CustodyUndelegated D L) (h : L.Kept L') :
    CustodyUndelegated D L' := by
  intro k a' ha' hown hmint
  obtain ⟨a, ha, hm, ho, hd⟩ := h.back ha'
  exact hd (hc k a ha (ho ▸ hown) (hm ▸ hmint))

theorem CustodyUndelegated.rely {L L' : Ledger} (hc : CustodyUndelegated D L)
    (h : L.Rely D.IsPda D.IsOtokenMint L') : CustodyUndelegated D L' := by
  intro k a' ha' hown hmint
  rcases h.delegate ha' (hown ▸ D.isPda_settlerConfig) with hd | ⟨a, ha, ho, hm, hd⟩
  · exact hd
  · rw [← hd]
    exact hc k a ha (ho.trans hown) (hm ▸ hmint)

theorem custodyTest_of_authorizes {L : Ledger} (hc : CustodyUndelegated D L) (ho : D.IsOtokenMint o)
    {k auth : Pubkey} {a : TokenAccount} {n : ℕ} (ha : L.accounts.lookup k = some a)
    (hauth : a.Authorizes auth n) (hs : ¬D.IsPda auth) : custodyTest D o a.owner a.mint = false := by
  refine decide_eq_false fun ⟨hown, hmint⟩ ↦ ?_
  have hd := hc k a ha hown (hmint ▸ ho)
  exact ne_settlerConfig_of_not_isPda hs ((hauth.owner_eq hd).symm.trans hown)

theorem custody_le_of_payment {L L' : Ledger} {src M dst auth : Pubkey} {n d : ℕ}
    {pool ben : TokenAccount} (hsrc : L.accounts.lookup src = some pool)
    (hown : pool.owner = D.poolVaultAuth M) (hdst : L.accounts.lookup dst = some ben)
    (ht : Controller.transferIfPositive T L src M dst auth n d = .ok L') :
    L.held (custodyTest D o) ≤ L'.held (custodyTest D o) := by
  obtain ⟨r, hr⟩ := held_add_of_transferIfPositive ht ⟨pool, hsrc, hown⟩ ⟨ben, hdst, rfl⟩
    (custodyTest_of_ne (poolVaultAuth_ne_settlerConfig D M) M)
  rw [hr]
  exact Nat.le_add_right _ _

/-- **Others only add to custody.** -/
theorem custody_le_of_others (hc : CustodyUndelegated D c.ledger) (ho : D.IsOtokenMint o)
    (hsigner : ∀ ix, m = .call ix → ¬D.IsPda ix.signer)
    (htoken : m = .token → c.ledger.Rely D.IsPda D.IsOtokenMint c'.ledger)
    (h : Controller.Move D T c m c') :
    c.ledger.held (custodyTest D o) ≤ c'.ledger.held (custodyTest D o) := by
  cases h with
  | administered _ h => rw [h.ledger_eq]
  | opened h => rw [h.state_eq]
  | @deposited ctx n v user pool L _ _ h =>
    obtain ⟨d, ht⟩ := h.transfer
    obtain ⟨r, hr⟩ := T.transferChecked_spec ht
    obtain ⟨a, b, ha, hb, hma, -, -, hauth, -⟩ := hr.cases
    have hp := custodyTest_of_authorizes hc ho ha hauth (hsigner _ rfl)
    rw [hma] at hp
    have key := hr.held_add ⟨a, ha, rfl⟩ ⟨b, hb, rfl⟩ hp
    rw [h.state_eq, key]
    exact Nat.le_add_right _ _
  | minted h =>
    have key := (T.mintTo_spec h.mintTo).held_add (p := custodyTest D o) ⟨_, h.destination_eq, rfl⟩
    rw [h.state_eq, key]
    exact Nat.le_add_right _ _
  | settled h =>
    obtain ⟨d, ht⟩ := h.transfer
    rw [h.state_eq]
    exact custody_le_of_payment h.pool_eq h.pool_owner h.beneficiary_eq ht
  | @redeemed ctx n info otoken coll pool B L _ _ h =>
    obtain ⟨d, hburn⟩ := h.burn
    obtain ⟨d', ht⟩ := h.transfer
    have hB := T.burnChecked_spec hburn
    have hredeemer : ¬D.IsPda ctx.redeemer := hsigner (.redeem ctx n) rfl
    have key := hB.held_sub (p := custodyTest D o) ⟨_, h.otoken_eq, h.otoken_owner⟩
    rw [custodyTest_of_ne (ne_settlerConfig_of_not_isPda hredeemer),
      if_neg Bool.false_ne_true, Nat.add_zero] at key
    obtain ⟨pool', hpool', -, hpo, -⟩ := hB.kept.some h.pool_eq
    obtain ⟨coll', hcoll', -⟩ := hB.kept.some h.collateral_eq
    rw [h.state_eq, ← key]
    exact custody_le_of_payment hpool' (hpo.trans h.pool_owner) hcoll' ht
  | withdrawn h =>
    obtain ⟨d, ht⟩ := h.transfer
    rw [h.state_eq]
    exact custody_le_of_payment h.pool_eq h.pool_owner h.beneficiary_eq ht
  | registered _ h => rw [h.state_eq]
  | priced h => rw [h.state_eq]
  | token _ =>
    refine (htoken rfl).held_le fun {k a} ha hp ↦ ?_
    obtain ⟨hown, hmint⟩ := of_decide_eq_true hp
    exact ⟨hown ▸ D.isPda_settlerConfig, hc k a ha hown (hmint ▸ ho)⟩
  | tick _ => exact le_rfl
  | created _ _ => exact le_rfl

end Others

/-! ## The settler's own steps -/

/-- An order adds what it mints, and its fee if the settler is its own treasury. -/
theorem ExecuteOrder.Effect.custody_eq {ctx : ExecuteOrder} {ord : Order} {tx : Transaction} {i : ℕ}
    {r : ExecuteOrder.Course} (hT : T.PlainOn D.IsOtokenMint) (ho : D.IsOtokenMint o)
    (huser : ¬D.IsPda ctx.user) (hmaker : ctx.maker ≠ D.settlerConfig)
    (h : ExecuteOrder.Effect D T s ctx ord tx i r s') :
    custodyHeld D s' o = custodyHeld D s o + (if ctx.otokenMint = o then ord.amount.toNat else 0) +
      creditedBy D o ⟨s, .call (.executeOrder ctx ord tx i), s'⟩ := by
  obtain ⟨id, hopen⟩ := Controller.openVault_effect h.openVault
  obtain ⟨v, user, pool, L, hdeposit⟩ := Controller.depositCollateral_effect h.deposit
  obtain ⟨v', info, dest, M, hmint⟩ := Controller.mintOtoken_effect h.mint
  obtain ⟨d, ht⟩ := hdeposit.transfer
  obtain ⟨n, hn⟩ := T.transferChecked_spec ht
  have hm := T.mintTo_spec hmint.mintTo
  obtain ⟨dpay, hpay⟩ := h.pay
  obtain ⟨dfee, hfee⟩ := h.payFee
  have hopened : r.opened.ledger = s.ctrl.ledger := by rw [hopen.state_eq]
  have hfunded : r.funded.ledger = L := congrArg Controller.State.ledger hdeposit.state_eq
  have hminted : r.minted.ledger = M := congrArg Controller.State.ledger hmint.state_eq
  rw [hopened] at hn
  rw [hfunded] at hm
  rw [hminted] at hpay
  -- the accounts are the same throughout
  have hkept : s.ctrl.ledger.Kept M := hn.kept.trans hm.kept
  have hkept' : s.ctrl.ledger.Kept r.paid := hkept.trans (Controller.kept_of_transferIfPositive hpay)
  have huser' : ctx.user ≠ D.settlerConfig := ne_settlerConfig_of_not_isPda huser
  have howns : ∀ {k m x : Pubkey}, (∃ a, s.ctrl.ledger.accounts.lookup k = some a ∧ a.mint = m ∧
      a.owner = x) → s.ctrl.ledger.Owns x k := fun ⟨a, ha, _, hx⟩ ↦ ⟨a, ha, hx⟩
  have hstep₁ : L.held (custodyTest D o) = s.ctrl.ledger.held (custodyTest D o) := by
    have key := hn.held_add (p := custodyTest D o) h.userCollateral
      ⟨pool, hopened ▸ hdeposit.pool_eq, hdeposit.pool_owner⟩ (custodyTest_of_ne huser' _)
    rw [key, custodyTest_of_ne (poolVaultAuth_ne_settlerConfig D _), if_neg Bool.false_ne_true,
      Nat.add_zero]
  have hstep₂ : M.held (custodyTest D o) =
      L.held (custodyTest D o) + (if ctx.otokenMint = o then ord.amount.toNat else 0) := by
    have key : M.held (custodyTest D o) = L.held (custodyTest D o) +
        (if custodyTest D o D.settlerConfig ctx.otokenMint then ord.amount.toNat else 0) :=
      hm.held_add (hn.kept.owns (howns h.settlerOtoken))
    simpa only [custodyTest_settler, decide_eq_true_eq] using key
  have hstep₃ : r.paid.held (custodyTest D o) = M.held (custodyTest D o) := by
    obtain ⟨n', key⟩ := held_add_of_transferIfPositive (p := custodyTest D o) hpay
      (hkept.owns (howns h.mmPremium)) (hkept.owns (howns h.userPremium))
      (custodyTest_of_ne hmaker _)
    rw [key, custodyTest_of_ne huser', if_neg Bool.false_ne_true, Nat.add_zero]
  have hstep₄ : r.ledger.held (custodyTest D o) = r.paid.held (custodyTest D o) +
      (if custodyTest D o r.config.treasury ord.premiumMint then r.fee else 0) :=
    held_add_of_plain hT (fun x hx ↦ (of_decide_eq_true hx).2 ▸ ho) hfee
      (hkept'.owns (howns h.mmPremium)) (hkept'.owns (howns h.treasury))
      (custodyTest_of_ne hmaker _)
  have hfee' : ord.fee r.config = r.fee := by
    obtain ⟨premium, hsplit⟩ := h.split
    rw [Order.fee, hsplit]
  have hledger : s'.ctrl.ledger = r.ledger := by rw [h.state_eq]
  rw [custodyHeld_def, custodyHeld_def, hledger, hstep₄, hstep₃, hstep₂, hstep₁]
  simp only [creditedBy, h.config_eq, Option.elim_some, hfee', custodyTest, decide_eq_true_eq]

theorem EmergencyWithdrawOrder.Effect.custody_eq {ctx : EmergencyWithdrawOrder} {v : Vault}
    {vaultMM : VaultMM} {b : MakerOTokenBalance} {L : Ledger} {c : Controller.State}
    (hsigner : ¬D.IsPda ctx.beneficiary)
    (h : EmergencyWithdrawOrder.Effect D T s ctx v vaultMM b L c s') :
    custodyHeld D s' o + (if ctx.otokenMint = o then burned vaultMM b else 0) =
      custodyHeld D s o := by
  obtain ⟨v', pool, ben, L', hw⟩ := Controller.emergencyWithdrawVault_effect h.withdraw
  obtain ⟨d, ht⟩ := hw.transfer
  obtain rfl : v = v' := by
    have := hw.vault_eq
    rwa [show (ctx.withdraw D).vault = ctx.vault from rfl, h.vault_eq, Option.some.injEq] at this
  have hben : ben.owner ≠ D.settlerConfig := by
    rw [hw.beneficiary_owner, ← h.beneficiary_eq]
    exact ne_settlerConfig_of_not_isPda hsigner
  have hburned : L.held (custodyTest D o) + (if ctx.otokenMint = o then burned vaultMM b else 0) =
      s.ctrl.ledger.held (custodyTest D o) := by
    obtain ⟨a, ha, -, hown⟩ := h.settlerOtoken
    rcases h.burn with ⟨-, d, hb⟩ | ⟨h0, rfl⟩
    · have key := (T.burnChecked_spec hb).held_sub (p := custodyTest D o) ⟨a, ha, hown⟩
      simpa only [custodyTest_settler, decide_eq_true_eq] using key
    · simp [h0]
  have hpaid : L'.held (custodyTest D o) = L.held (custodyTest D o) := by
    obtain ⟨r, key⟩ := held_add_of_transferIfPositive (p := custodyTest D o) ht
      ⟨pool, hw.pool_eq, hw.pool_owner⟩ ⟨ben, hw.beneficiary_eq, rfl⟩
      (custodyTest_of_ne (poolVaultAuth_ne_settlerConfig D _) _)
    rw [key, custodyTest_of_ne hben, if_neg Bool.false_ne_true, Nat.add_zero]
  have hledger : s'.ctrl.ledger = L' := by rw [h.state_eq, hw.state_eq]
  rw [custodyHeld_def, custodyHeld_def, hledger, hpaid, hburned]

theorem redeem_amount_le {c c' : Controller.State} {ctx : Controller.Redeem} {n : ℕ}
    (h : Controller.redeem D T ctx n c = .ok c') {k : Pubkey}
    (hk : k ≠ ctx.redeemerCollateralAccount) : c'.ledger.amount k ≤ c.ledger.amount k := by
  obtain ⟨info, otoken, coll, pool, B, L, he⟩ := Controller.redeem_effect h
  obtain ⟨d, hburn⟩ := he.burn
  obtain ⟨d', ht⟩ := he.transfer
  have hburned := (T.burnChecked_spec hburn).amount k
  have hL : L.amount k ≤ B.amount k := by
    rcases Controller.transferIfPositive_eq_ok.mp ht with ⟨-, ht⟩ | ⟨-, rfl⟩
    · obtain ⟨r, hr⟩ := T.transferChecked_spec ht
      by_cases hsd : ctx.poolTokenAccount = ctx.redeemerCollateralAccount
      · obtain ⟨-, -, -, -, -, -, -, -, -, ⟨-, -, rfl⟩ | ⟨hne, -⟩⟩ := hr.cases
        · exact le_rfl
        · exact absurd hsd hne
      · have key := hr.amount_of_ne hsd k
        rw [if_neg hk] at key
        omega
    · exact le_rfl
  rw [he.state_eq]
  exact hL.trans (by omega)

/-- A redemption takes from two accounts only: the one it burns from and the pool's. -/
theorem redeem_le_amount {c c' : Controller.State} {ctx : Controller.Redeem} {n : ℕ}
    (h : Controller.redeem D T ctx n c = .ok c') {k : Pubkey} (hk : k ≠ ctx.redeemerOtokenAccount)
    (hpool : k ≠ ctx.poolTokenAccount) : c.ledger.amount k ≤ c'.ledger.amount k := by
  obtain ⟨info, otoken, coll, pool, B, L, he⟩ := Controller.redeem_effect h
  obtain ⟨d, hburn⟩ := he.burn
  obtain ⟨d', ht⟩ := he.transfer
  have hburned := (T.burnChecked_spec hburn).amount k
  rw [if_neg hk, Nat.add_zero] at hburned
  rw [he.state_eq, ← hburned]
  rcases Controller.transferIfPositive_eq_ok.mp ht with ⟨-, ht⟩ | ⟨-, rfl⟩
  · obtain ⟨r, hr⟩ := T.transferChecked_spec ht
    exact hr.le_amount hpool
  · exact le_rfl

/-- A redemption burns out of custody. Were the collateral another oToken, what the collateral
account gained would be custody, too. -/
theorem redeem_custody_eq {ctx : RedeemForMM} {acc : Custody} {n payout : ℕ} {c : Controller.State}
    (hw : Controller.WellFormed D s.ctrl) (hloaded : acc.Loaded D s ctx)
    (h : Controller.redeem D T (ctx.redeem D) n s.ctrl = .ok c)
    (hpayout : c.ledger.amount ctx.settlerCollateralAccount
      = acc.settlerCollateral.amount + payout) :
    s.ctrl.ledger.Kept c.ledger ∧ ctx.collateralMintAccount = acc.info.collateralMint ∧
    c.ledger.held (custodyTest D o) + (if ctx.otokenMint = o then n else 0) =
      s.ctrl.ledger.held (custodyTest D o) +
        (if acc.info.collateralMint = o then payout else 0) := by
  obtain ⟨info, otoken, coll, pool, B, L, he⟩ := Controller.redeem_effect h
  obtain ⟨d, hburn⟩ := he.burn
  obtain ⟨d', ht⟩ := he.transfer
  have hB := T.burnChecked_spec hburn
  have hledger : c.ledger = L := congrArg Controller.State.ledger he.state_eq
  have hinfo : s.ctrl.otokenInfos.lookup ctx.otokenMint = some info := he.info_eq
  obtain rfl : acc.info = info :=
    Option.some.inj ((hloaded.info_eq_of_seed he.info_seed).symm.trans hinfo)
  obtain ⟨a, ha, -, haown⟩ := hloaded.settlerOtoken
  have hne : ctx.settlerCollateralAccount ≠ ctx.settlerOtokenAccount :=
    hloaded.collateral_ne_otoken (hw.info hinfo).2.2
  have hburned : B.held (custodyTest D o) + (if ctx.otokenMint = o then n else 0) =
      s.ctrl.ledger.held (custodyTest D o) := by
    have key : B.held (custodyTest D o) +
        (if custodyTest D o D.settlerConfig ctx.otokenMint then n else 0) = _ :=
      hB.held_sub ⟨a, ha, haown⟩
    simpa only [custodyTest_settler, decide_eq_true_eq] using key
  have hbefore : B.amount ctx.settlerCollateralAccount = acc.settlerCollateral.amount := by
    have key : B.amount ctx.settlerCollateralAccount +
        (if ctx.settlerCollateralAccount = ctx.settlerOtokenAccount then n else 0) = _ :=
      hB.amount ctx.settlerCollateralAccount
    rw [if_neg hne, Nat.add_zero] at key
    rw [key, Ledger.amount_eq hloaded.settlerCollateral_eq]
  have hpool : B.Owns (D.poolVaultAuth acc.info.collateralMint) ctx.poolTokenAccount :=
    hB.kept.owns ⟨pool, he.pool_eq, he.pool_owner⟩
  have hcoll : B.Owns D.settlerConfig ctx.settlerCollateralAccount :=
    hB.kept.owns ⟨_, hloaded.settlerCollateral_eq, hloaded.settlerCollateral_owner⟩
  refine ⟨?_, he.collateralMint_eq, ?_⟩
  · rw [hledger]
    exact hB.kept.trans (Controller.kept_of_transferIfPositive ht)
  · rw [hledger] at hpayout ⊢
    rcases Controller.transferIfPositive_eq_ok.mp ht with ⟨-, ht⟩ | ⟨-, rfl⟩
    · obtain ⟨r, hr⟩ := T.transferChecked_spec ht
      have hsd := hpool.ne hcoll (poolVaultAuth_ne_settlerConfig D _)
      have hgain : L.amount ctx.settlerCollateralAccount =
        B.amount ctx.settlerCollateralAccount + r := hr.amount_dst hsd
      have key : L.held (custodyTest D o) = B.held (custodyTest D o) +
          (if custodyTest D o D.settlerConfig acc.info.collateralMint then r else 0) :=
        hr.held_add hpool hcoll (custodyTest_of_ne (poolVaultAuth_ne_settlerConfig D _) _)
      simp only [custodyTest_settler, decide_eq_true_eq] at key
      obtain rfl : payout = r := by omega
      omega
    · obtain rfl : payout = 0 := by omega
      simpa using hburned

theorem RedeemForMM.Effect.custody_eq {ctx : RedeemForMM} {n payout : ℕ} {acc : Custody}
    {c : Controller.State} {L : Ledger} (hok : CustodyOk D s)
    (h : RedeemForMM.Effect D T s ctx n acc c payout L s') :
    custodyHeld D s' o + (if ctx.otokenMint = o then n else 0) = custodyHeld D s o := by
  obtain ⟨hkept, hmint, hredeemed⟩ :=
    redeem_custody_eq (o := o) hok.wellFormed h.loaded h.redeem h.payout_eq
  obtain ⟨d, hpay⟩ := h.pay
  have hmaker : ctx.makerOtokenBalance.maker ≠ D.settlerConfig :=
    hok.maker_ne _ _ h.loaded.balance_eq
  have hpaid : L.held (custodyTest D o) +
      (if custodyTest D o D.settlerConfig ctx.collateralMintAccount then payout else 0) =
        c.ledger.held (custodyTest D o) :=
    held_sub_of_transferIfPositive hpay
      (hkept.owns ⟨_, h.loaded.settlerCollateral_eq, h.loaded.settlerCollateral_owner⟩)
      (hkept.owns ⟨_, h.loaded.mmCollateral_eq, h.mmCollateral_owner⟩)
      (custodyTest_of_ne hmaker _)
  have hledger : s'.ctrl.ledger = L := by rw [h.state_eq]
  simp only [hmint, custodyTest_settler, decide_eq_true_eq] at hpaid
  rw [custodyHeld_def, custodyHeld_def, hledger]
  omega

theorem Swap.SparesCustody.held_eq {swap : Swap} (h : swap.SparesCustody D) {c c' : Controller.State}
    (hc : swap c = .ok c') (ho : D.IsOtokenMint o) :
    c'.ledger.held (custodyTest D o) = c.ledger.held (custodyTest D o) := by
  have hsel : ∀ {a : TokenAccount}, 0 < a.part (custodyTest D o) →
      a.owner = D.settlerConfig ∧ D.IsOtokenMint a.mint := fun {a} hpos ↦ by
    rw [TokenAccount.part] at hpos
    by_cases hp : custodyTest D o a.owner a.mint = true
    · obtain ⟨hown, hmint⟩ := of_decide_eq_true hp
      exact ⟨hown, hmint ▸ ho⟩
    · rw [if_neg hp] at hpos
      exact absurd hpos (Nat.lt_irrefl 0)
  refine Store.total_eq_of_lookup (fun k a ha hpos ↦ ?_) fun k a ha hpos ↦ ?_
  · obtain ⟨hown, hmint⟩ := hsel hpos
    exact ⟨(h c c' hc k a hown hmint).mpr ha, rfl⟩
  · obtain ⟨hown, hmint⟩ := hsel hpos
    exact ⟨(h c c' hc k a hown hmint).mp ha, rfl⟩

/-- A physical delivery takes away what it burns. A swap that spares custody can be neither out of
nor into an oToken. -/
theorem PhysicalRedeem.Effect.custody_eq {ctx : PhysicalRedeem} {n m : ℕ} {swap : Swap}
    {r : PhysicalRedeem.Course} (hok : CustodyOk D s) (ho : D.IsOtokenMint o)
    (hswap : swap.SparesCustody D) (h : PhysicalRedeem.Effect D T s ctx n m swap r s') :
    custodyHeld D s' o + (if ctx.otokenMint = o then n else 0) = custodyHeld D s o := by
  obtain ⟨hkept, hmint, hredeemed⟩ :=
    redeem_custody_eq (o := o) hok.wellFormed h.loaded h.redeem h.received
  have hspared : ∀ {k : Pubkey} {a : TokenAccount}, s.ctrl.ledger.accounts.lookup k = some a →
      a.owner = D.settlerConfig → D.IsOtokenMint a.mint →
      r.swapped.ledger.amount k = r.redeemed.ledger.amount k := fun {k a} ha hown hmint ↦ by
    obtain ⟨a', ha', hm, ho', -⟩ := hkept.some ha
    have hlater := (hswap _ _ h.swap k a' (ho'.trans hown) (hm ▸ hmint)).mp ha'
    rw [Ledger.amount_eq ha', Ledger.amount_eq hlater]
  have hcollateral : ¬D.IsOtokenMint r.acc.info.collateralMint := fun hc ↦ by
    have hsame := hspared h.loaded.settlerCollateral_eq h.loaded.settlerCollateral_owner
      (h.loaded.settlerCollateral_mint ▸ hc)
    have hused := h.used
    have hpos := h.received_pos
    cases hside : r.acc.info.isPut with
    | true => have := (h.put hside).2.2.1; omega
    | false => have := (h.call hside).1; omega
  have hne : r.acc.info.collateralMint ≠ o := fun heq ↦ hcollateral (heq ▸ ho)
  have hswapped := hswap.held_eq h.swap ho
  have hfinal : r.ledger.held (custodyTest D o) = r.swapped.ledger.held (custodyTest D o) := by
    cases hside : r.acc.info.isPut with
    | true =>
      obtain ⟨-, -, -, surplus, d, -, hpay⟩ := h.put hside
      exact held_of_transferIfPositive_of_mint hpay (custodyTest_of_mint (hmint ▸ hne))
    | false =>
      obtain ⟨-, -, surplus, paid, d, hdelta, hdeliver, hpay⟩ := h.call hside
      have hcontra : ctx.contraMint ≠ o := by
        rintro rfl
        have hsame := hspared h.settlerContra_eq h.settlerContra_owner (h.settlerContra_mint ▸ ho)
        have hdistinct : ctx.settlerContraAccount ≠ ctx.settlerCollateralAccount := by
          intro heq
          have ha := h.settlerContra_eq
          rw [heq, h.loaded.settlerCollateral_eq, Option.some.injEq] at ha
          have hm := h.settlerContra_mint
          rw [← ha, h.loaded.settlerCollateral_mint] at hm
          exact hne hm
        have hle := redeem_amount_le h.redeem hdistinct
        rw [Ledger.amount_eq h.settlerContra_eq] at hle
        have hgain := h.settlerContra_delta
        have hpos := (computeContraAmount_eq_ok.mp h.contraAmount_eq).2.2
        omega
      obtain ⟨_, ht⟩ := T.transferChecked_spec hdeliver
      rw [held_of_transferIfPositive_of_mint hpay (custodyTest_of_mint hcontra),
        ht.held_of_mint (custodyTest_of_mint hcontra)]
  have hledger : s'.ctrl.ledger = r.ledger := by rw [h.state_eq]
  rw [if_neg hne, Nat.add_zero] at hredeemed
  rw [custodyHeld_def, custodyHeld_def, hledger, hfinal, hswapped, hredeemed]

/-! ## A step -/

theorem Move.maker_ne (h : Move D T verifies s l s') (hname : ¬l.InSettlersName D)
    (hs : ∀ k b, s.makerOtokenBalances.lookup k = some b → k.maker ≠ D.settlerConfig)
    (k : BalanceKey) (b : MakerOTokenBalance) (hb : s'.makerOtokenBalances.lookup k = some b) :
    k.maker ≠ D.settlerConfig := by
  rcases h.makerOtokenBalances with heq | ⟨k₁, b₁, n, hk₁, -, heq⟩ | ⟨ctx, ord, tx, i, r, rfl, he⟩
  · exact hs k b (heq ▸ hb)
  · rw [heq] at hb
    rcases Store.lookup_insert_eq_some.mp hb with ⟨rfl, -⟩ | ⟨-, hb⟩
    · exact hs _ _ hk₁
    · exact hs k b hb
  · rw [he.state_eq] at hb
    rcases Store.lookup_insert_eq_some.mp hb with ⟨rfl, -⟩ | ⟨-, hb⟩
    · exact hname
    · exact hs k b hb

theorem Move.custodyUndelegated (h : Move D T verifies s l s') (hspares : l.SparesCustody D)
    (hc : CustodyUndelegated D s.ctrl.ledger) : CustodyUndelegated D s'.ctrl.ledger := by
  have hcall : ∀ {c c' : Controller.State} (ix : Controller.Instruction),
      ix.signer = D.settlerConfig → ix.Genuine D → Controller.exec D T ix c = .ok c' →
      c.ledger.Kept c'.ledger :=
    fun ix hsigner hgenuine hx ↦ (step_of_exec (T := T) ix hsigner hgenuine hx).move.kept nofun
  cases h with
  | configured _ h => rwa [h.ctrl_eq]
  | @counted _ _ _ ctrl h =>
    exact hc.kept (hcall (.initializeCounter D.settlerConfig) rfl trivial h)
  | listed => exact hc
  | bumped _ => exact hc
  | cancelled => exact hc
  | @executed ctx ord _ _ r _ _ _ h =>
    obtain ⟨d, hpay⟩ := h.pay
    obtain ⟨d', hfee⟩ := h.payFee
    have hopened : s.ctrl.ledger.Kept r.opened.ledger :=
      hcall (.openVault D.settlerConfig ord.collateralMint ctx.user) rfl trivial h.openVault
    have hfunded : r.opened.ledger.Kept r.funded.ledger :=
      hcall (.depositCollateral (ctx.deposit D) _) rfl trivial h.deposit
    have hminted : r.funded.ledger.Kept r.minted.ledger :=
      hcall (.mintOtoken (ctx.mint D) _) rfl trivial h.mint
    rw [h.state_eq]
    exact ((((hc.kept hopened).kept hfunded).kept hminted).kept
      (Controller.kept_of_transferIfPositive hpay)).kept (Controller.kept_of_transferIfPositive hfee)
  | settled hsigner h => exact hc.kept ((step_of_settleVault hsigner h).move.kept (by simp))
  | @withdrawn ctx _ _ _ ledger _ _ _ h =>
    have hburned : s.ctrl.ledger.Kept ledger := by
      rcases h.burn with ⟨-, d, hb⟩ | ⟨-, rfl⟩
      · exact (T.burnChecked_spec hb).kept
      · exact Ledger.Kept.refl _
    rw [h.state_eq]
    exact (hc.kept hburned).kept
      (hcall (.emergencyWithdrawVault (ctx.withdraw D)) rfl trivial h.withdraw)
  | @redeemed _ ctx n _ _ _ _ _ _ h =>
    obtain ⟨d, hpay⟩ := h.pay
    rw [h.state_eq]
    exact (hc.kept (hcall (.redeem (ctx.redeem D) n) rfl trivial h.redeem)).kept
      (Controller.kept_of_transferIfPositive hpay)
  | @delivered ctx n _ swap r _ _ h =>
    have hredeemed : CustodyUndelegated D r.redeemed.ledger :=
      hc.kept (hcall (.redeem (ctx.redeem D) n) rfl trivial h.redeem)
    have hswapped : CustodyUndelegated D r.swapped.ledger := fun k a ha hown hmint ↦
      hredeemed k a ((hspares _ _ h.swap k a hown hmint).mpr ha) hown hmint
    rw [h.state_eq]
    cases hside : r.acc.info.isPut with
    | true =>
      obtain ⟨-, -, -, surplus, d, -, hpay⟩ := h.put hside
      exact hswapped.kept (Controller.kept_of_transferIfPositive hpay)
    | false =>
      obtain ⟨-, -, surplus, paid, d, -, hdeliver, hpay⟩ := h.call hside
      obtain ⟨_, ht⟩ := T.transferChecked_spec hdeliver
      exact (hswapped.kept ht.kept).kept (Controller.kept_of_transferIfPositive hpay)
  | @controller m c _ htoken h =>
    by_cases hm : m = .token
    · exact hc.rely (htoken hm)
    · exact hc.kept (h.move.kept hm)
  | lamports _ => exact hc

theorem Move.custodyOk (h : Move D T verifies s l s') (hname : ¬l.InSettlersName D)
    (hspares : l.SparesCustody D) (hok : CustodyOk D s) : CustodyOk D s' where
  wellFormed := h.ctrl_invariant (fun _ _ _ hw hs ↦ hs.move.wellFormed hw)
    hok.wellFormed.undelegated hok.wellFormed
  undelegated := h.custodyUndelegated hspares hok.undelegated
  maker_ne := h.maker_ne hname hok.maker_ne

/-- **A step moves held and owed oTokens by the same amount**, up to what comes from outside. -/
theorem Move.custody_balance (hT : T.PlainOn D.IsOtokenMint) (h : Move D T verifies s l s')
    (ho : D.IsOtokenMint o) (hname : ¬l.InSettlersName D) (hspares : l.SparesCustody D)
    (hok : CustodyOk D s) :
    custodyHeld D s' o + custodyOwed s o =
      custodyHeld D s o + custodyOwed s' o + creditedBy D o ⟨s, l, s'⟩ := by
  -- steps that touch neither the books nor the tokens
  have hquiet : s'.ctrl.ledger = s.ctrl.ledger → s'.makerOtokenBalances = s.makerOtokenBalances →
      creditedBy D o ⟨s, l, s'⟩ = 0 → custodyHeld D s' o + custodyOwed s o =
        custodyHeld D s o + custodyOwed s' o + creditedBy D o ⟨s, l, s'⟩ := by
    intro hledger hbalances hcredit
    rw [hcredit, Nat.add_zero, custodyHeld, custodyOwed, hledger, custodyHeld, custodyOwed, hbalances]
  cases h with
  | @configured ix _ hix h =>
    refine hquiet (by rw [h.ctrl_eq]) h.makerOtokenBalances_eq ?_
    cases ix <;> first | rfl | exact absurd hix id
  | @counted _ _ _ ctrl h =>
    have hexec : Controller.exec D T (.initializeCounter D.settlerConfig) s.ctrl = .ok ctrl := h
    exact hquiet (Controller.administered_of_exec hexec trivial).ledger_eq rfl rfl
  | listed => exact hquiet rfl rfl rfl
  | bumped _ => exact hquiet rfl rfl rfl
  | cancelled => exact hquiet rfl rfl rfl
  | lamports _ => exact hquiet rfl rfl rfl
  | @executed ctx ord tx i r _ huser _ h =>
    have hheld := h.custody_eq hT ho huser hname
    have howed : custodyOwed s' o =
        custodyOwed s o + (if ctx.otokenMint = o then ord.amount.toNat else 0) :=
      custodyOwed_of_gained (k := ctx.balanceKey) rfl
        (congrArg State.makerOtokenBalances h.state_eq)
    omega
  | @settled operator ctx ctrl hsigner h =>
    have hle : custodyHeld D s o ≤ custodyHeld D { s with ctrl } o := by
      refine custody_le_of_others hok.undelegated ho ?_ ?_ (step_of_settleVault hsigner h).move
      · intro ix hix
        obtain rfl := Controller.Label.call.inj hix
        exact hsigner
      · exact nofun
    have hcredit : creditedBy D o ⟨s, .call (.settleVault operator ctx), { s with ctrl }⟩ =
      custodyHeld D { s with ctrl } o - custodyHeld D s o := rfl
    have howed : custodyOwed { s with ctrl } o = custodyOwed s o := rfl
    omega
  | @controller m c hsigner htoken h =>
    have hle : custodyHeld D s o ≤ custodyHeld D { s with ctrl := c } o :=
      custody_le_of_others hok.undelegated ho hsigner htoken h.move
    have hcredit : creditedBy D o ⟨s, .controller m, { s with ctrl := c }⟩ =
      custodyHeld D { s with ctrl := c } o - custodyHeld D s o := rfl
    have howed : custodyOwed { s with ctrl := c } o = custodyOwed s o := rfl
    omega
  | @withdrawn ctx v vaultMM b L c _ hsigner h =>
    have hheld := h.custody_eq (o := o) hsigner
    have howed := custodyOwed_of_spent (o := o) h.balance_eq (Nat.min_le_right _ _)
      (congrArg State.makerOtokenBalances h.state_eq)
    have hcredit : creditedBy D o ⟨s, .call (.emergencyWithdraw ctx), s'⟩ = 0 := rfl
    rw [hcredit, ← hheld, ← howed]
    dsimp only [EmergencyWithdrawOrder.burned]
    omega
  | @redeemed ix ctx n acc c payout L _ hix h =>
    have hheld := h.custody_eq (o := o) hok
    have howed := custodyOwed_of_spent (o := o) h.loaded.balance_eq h.covered
      (congrArg State.makerOtokenBalances h.state_eq)
    have hcredit : creditedBy D o ⟨s, .call ix, s'⟩ = 0 := by
      rcases hix with rfl | rfl <;> rfl
    rw [hcredit, ← hheld, ← howed, h.key_mint]
    omega
  | @delivered ctx n m swap r _ hswap h =>
    have hheld := h.custody_eq hok ho hspares
    have howed := custodyOwed_of_spent (o := o) h.loaded.balance_eq h.covered
      (congrArg State.makerOtokenBalances h.state_eq)
    have hcredit : creditedBy D o ⟨s, .call (.physicalRedeem ctx n m swap), s'⟩ = 0 := rfl
    have hkey : ctx.makerOtokenBalance.otokenMint = ctx.otokenMint := by rw [h.key_eq]
    rw [hcredit, ← hheld, ← howed, hkey]
    omega

/-! ## Over a run -/

theorem Initial.custodyOk (h : Initial D s) : CustodyOk D s where
  wellFormed := h.ctrl.wellFormed
  undelegated _ _ ha hown _ := h.undelegated _ _ ha (hown ▸ D.isPda_settlerConfig)
  maker_ne k b hb := by
    rw [h.makerOtokenBalances] at hb
    exact absurd hb (by simp)

theorem Initial.custodyHeld_eq (h : Initial D s) (ho : D.IsOtokenMint o) : custodyHeld D s o = 0 := by
  have hsupply : s.ctrl.ledger.circulating o ≤ 0 :=
    (h.ctrl.conserved o).1.trans_eq (Ledger.supply_eq_zero (h.ctrl.mint_absent o ho))
  exact Nat.le_zero.mp ((Ledger.balance_le_circulating _ _ _).trans hsupply)

/-- **Maker custody is backed.** In a run in which no order names the settler's own address as its
maker, the settler holds of every series what the makers' records add up to and what came from
outside. -/
theorem custody_backed (hT : T.PlainOn D.IsOtokenMint) (hrun : Run (Step D T rent verifies) s₀ tr s)
    (h₀ : Initial D s₀) (hspares : ∀ t ∈ tr, t.label.SparesCustody D)
    (hname : ∀ t ∈ tr, ¬t.label.InSettlersName D) (ho : D.IsOtokenMint o) :
    custodyHeld D s o = custodyOwed s o + Run.history (creditedBy D o) tr ∧
      custodyOwed s o ≤ custodyHeld D s o := by
  have key := Run.accounting (custodyHeld D · o) (custodyOwed · o) (creditedBy D o) (fun _ ↦ 0)
    (I := CustodyOk D) (Q := fun t ↦ ¬t.label.InSettlersName D ∧ t.label.SparesCustody D)
    h₀.custodyOk (fun _ _ _ hok hs hQ ↦ hs.move.custodyOk hQ.1 hQ.2 hok)
    (fun _ _ _ hok hs hQ ↦ hs.move.custody_balance hT ho hQ.1 hQ.2 hok) hrun
    fun t ht ↦ ⟨hname t ht, hspares t ht⟩
  have howed : custodyOwed s₀ o = 0 := by rw [custodyOwed, h₀.makerOtokenBalances, Store.total_empty]
  rw [Run.history_zero, h₀.custodyHeld_eq ho, howed] at key
  omega

theorem custody_backed_sample :
    custodyHeld sampleDeployment (sampleRun sampleFirst) 20 =
      custodyOwed (sampleRun sampleFirst) 20 +
        Run.history (creditedBy sampleDeployment 20) (sampleTrace sampleFirst) ∧
    custodyOwed (sampleRun sampleFirst) 20 ≤
      custodyHeld sampleDeployment (sampleRun sampleFirst) 20 := by
  have hrun : Run (Step sampleDeployment splToken id sampleScheme) sampleState
      (sampleTrace sampleFirst) (sampleRun sampleFirst) :=
    sampleRun_run (by decide +kernel) (by decide +kernel)
  have hspares : ∀ a ∈ sampleFirst, a.label.SparesCustody sampleDeployment := by
    simp [sampleFirst, sampleSetup, sampleExecute, Action.label, Label.SparesCustody]
  have hmaker : (sampleExecuteOrder 0).maker ≠ sampleDeployment.settlerConfig := by decide
  have hname : ∀ a ∈ sampleFirst, ¬a.label.InSettlersName sampleDeployment := by
    simpa [sampleFirst, sampleSetup, sampleExecute, Action.label, Label.InSettlersName] using hmaker
  exact custody_backed (splToken_plain.on _) hrun sampleState_initial
    (fun _ ht ↦ Run.label_of_mem_playTrace _ _ hspares ht)
    (fun _ ht ↦ Run.label_of_mem_playTrace (P := fun l ↦ ¬l.InSettlersName sampleDeployment) _ _
      hname ht) ⟨by decide, by decide⟩

/-! ## The settler as a maker -/

section SelfDeal

open Bytes

/-- An order whose premium is paid in oTokens of its own series. -/
def selfDealOrder : Order := { sampleOrder with premiumMint := 20 }

/-- It names the settler as its maker, and custody as the premium account. -/
def selfDealExecuteOrder : ExecuteOrder := { sampleExecuteOrder 1 with
  premiumMintAccount := 20
  mmPremiumAccount := 41
  userPremiumAccount := 31
  treasuryAccount := 51
  maker := sampleDeployment.settlerConfig }

/-- Somebody else's signature over that quote. -/
def selfDealSignature : List UInt8 :=
  leBytes 64 0x6a385cd874d00a4470996814979c51f5f556a32f8dbf2c879a280f2f5776a18a771e8d0eb234ee01a6953f7da87719ab9ad562b456ee5dfa9f45135f344e043

/-- The scheme, on the two triples the transactions of the run ask about. -/
def selfDealScheme (x : Ed25519.Signed) : Bool :=
  sampleScheme x || decide (x = ⟨otherKey.toBytes, selfDealOrder.message 20, selfDealSignature⟩)

/-- The precompile reads the other key from the second instruction, the settler reads its own address
from the first. -/
def selfDealTransaction : Transaction :=
  [⟨Ed25519.ID, precompileData 1 selfDealSignature sampleDeployment.settlerConfig.toBytes
    (selfDealOrder.message 20)⟩, ⟨0, List.replicate 80 0 ++ otherKey.toBytes⟩]

/-- After an order of the maker, user `1` has the settler listed and sells to it, for the maker's
oTokens; account `51` is the treasury's. -/
def selfDeal : List Action := sampleFirst ++ [.call (.whitelistMaker 1 4 true),
  .controller (.openAccount 51 20 2),
  .call (.executeOrder selfDealExecuteOrder selfDealOrder selfDealTransaction 2)]

/-- **Custody can be short.** The maker's million is still on record, and so is the settler's own, but
only one of them is left. -/
theorem custody_not_backed :
    Initial sampleDeployment sampleState ∧
    Run (Step sampleDeployment splToken id selfDealScheme) sampleState (sampleTrace selfDeal)
      (sampleRun selfDeal) ∧
    (∀ t ∈ sampleTrace selfDeal, t.label.SparesCustody sampleDeployment) ∧
    custodyHeld sampleDeployment (sampleRun selfDeal) 20 = 1000000 ∧
    custodyOwed (sampleRun selfDeal) 20 = 2000000 :=
  ⟨sampleState_initial, sampleRun_run (by decide +kernel) (by decide +kernel),
    fun _ ht ↦ Run.label_of_mem_playTrace _ _
      (by simp [selfDeal, sampleFirst, sampleSetup, sampleExecute, Action.label,
        Label.SparesCustody]) ht,
    by decide +kernel, by decide +kernel⟩

end SelfDeal

end Settler

end OptionsProtocol
