import OptionsProtocol.Controller.Issuance
import OptionsProtocol.Settler.Funding
import OptionsProtocol.Settler.Premium
import OptionsProtocol.Settler.Vaults

/-!
# Orders that go through

An order is one instruction of the settler, and three of the controller, two creations of accounts and two
transfers within it. In every state of every run it goes through if what it was given is in order: no guard
of the controller, no address and no overflow is left to chance. When it does go through, the four parties
exchange exactly what the quote says.

The account that pays the premium takes part in nothing before that, so that what may be spent from it at
the beginning may still be spent at the end.
-/

namespace OptionsProtocol

/-! ## Accounts that can be spent from -/

namespace TokenAccount

variable {a : TokenAccount} {auth : Pubkey} {n m : ℕ}

theorem Authorizes.mono (h : a.Authorizes auth n) (hm : m ≤ n) : a.Authorizes auth m := by
  rw [Authorizes] at h ⊢
  split
  · rename_i hd
    rw [if_pos hd] at h
    exact hm.trans h
  · rename_i hd
    rwa [if_neg hd] at h

theorem Authorizes.debit (h : a.Authorizes auth (n + m)) (hm : 0 < m) :
    (a.debit auth n).Authorizes auth m := by
  by_cases hd : a.delegate = some auth
  · rw [Authorizes, if_pos hd] at h
    have hne : a.delegatedAmount ≠ n := by omega
    rw [TokenAccount.debit, if_pos hd, Authorizes, if_neg hne, if_pos hd]
    exact Nat.le_sub_of_add_le (by omega)
  · rw [authorizes_of_ne hd] at h
    rwa [TokenAccount.debit, if_neg hd, Authorizes, if_neg hd]

end TokenAccount

namespace Ledger

variable {L L' : Ledger} {k src dst mint mint' auth auth' : Pubkey} {n m r : ℕ}

/-- `auth` may spend `n` of the tokens in the account. -/
def Spendable (L : Ledger) (k mint auth : Pubkey) (n : ℕ) : Prop :=
  ∃ a, L.accounts.lookup k = some a ∧ a.mint = mint ∧ n ≤ a.amount ∧ a.Authorizes auth n

theorem Spendable.mono (h : L.Spendable k mint auth n) (hm : m ≤ n) : L.Spendable k mint auth m := by
  obtain ⟨a, ha, hmint, hn, hauth⟩ := h
  exact ⟨a, ha, hmint, hm.trans hn, hauth.mono hm⟩

theorem Spendable.credited (h : L.Spendable k mint auth n)
    (hcredit : ∀ a, L.accounts.lookup k = some a → ∃ m, L'.accounts.lookup k = some (a.credit m)) :
    L'.Spendable k mint auth n := by
  obtain ⟨a, ha, hmint, hn, hauth⟩ := h
  obtain ⟨m, ha'⟩ := hcredit a ha
  exact ⟨a.credit m, ha', hmint, hn.trans (Nat.le_add_right _ _), hauth⟩

theorem Transferred.credited (h : L.Transferred L' src mint dst auth n r) (hk : k ≠ src) {a : TokenAccount}
    (ha : L.accounts.lookup k = some a) : ∃ m, L'.accounts.lookup k = some (a.credit m) := by
  obtain ⟨-, b, -, hb, -, -, -, -, -, ⟨-, -, rfl⟩ | ⟨-, rfl⟩⟩ := h.cases
  · exact ⟨0, ha⟩
  · by_cases hd : k = dst
    · subst hd
      obtain rfl := Option.some.inj (ha.symm.trans hb)
      exact ⟨r, Finmap.lookup_insert _⟩
    · refine ⟨0, ?_⟩
      dsimp only
      rw [Finmap.lookup_insert_of_ne _ hd, Finmap.lookup_insert_of_ne _ hk, ha]
      rfl

theorem Minted.credited (h : L.Minted L' mint dst auth n) {a : TokenAccount}
    (ha : L.accounts.lookup k = some a) : ∃ m, L'.accounts.lookup k = some (a.credit m) := by
  obtain ⟨-, b, -, -, hb, -, -, rfl⟩ := h
  by_cases hd : k = dst
  · subst hd
    obtain rfl := Option.some.inj (ha.symm.trans hb)
    exact ⟨n, Finmap.lookup_insert _⟩
  · refine ⟨0, ?_⟩
    dsimp only
    rw [Finmap.lookup_insert_of_ne _ hd, ha]
    rfl

theorem Spendable.rest (h : L.Spendable src mint auth (n + m)) (ht : L.Transferred L' src mint dst auth n r)
    (hm : 0 < m) : L'.Spendable src mint auth m := by
  obtain ⟨a, b, ha, -, -, -, -, -, -, ⟨-, -, rfl⟩ | ⟨hsd, rfl⟩⟩ := ht.cases
  · exact h.mono (Nat.le_add_left _ _)
  · obtain ⟨a', ha', hmint, hn, hauth⟩ := h
    obtain rfl := Option.some.inj (ha.symm.trans ha')
    refine ⟨a.debit auth n, ?_, by simpa using hmint, ?_, hauth.debit hm⟩
    · dsimp only
      rw [Finmap.lookup_insert_of_ne _ hsd, Finmap.lookup_insert]
    · rw [TokenAccount.debit_amount]
      exact Nat.le_sub_of_add_le (by omega)

end Ledger

namespace Controller

variable {T : TokenProgram} {L L' : Ledger} {src mint dst auth : Pubkey} {n m : ℕ}

theorem transferIfPositive_of_spendable (hlive : T.Live) (hc : L.Conserved)
    (hs : 0 < n → L.Spendable src mint auth n) {b : TokenAccount} (hb : L.accounts.lookup dst = some b)
    (hbm : b.mint = mint) {x : Mint} (hx : L.mints.lookup mint = some x) :
    ∃ L', transferIfPositive T L src mint dst auth n x.decimals = .ok L' := by
  rcases Nat.eq_zero_or_pos n with hzero | hpos
  · exact ⟨L, transferIfPositive_eq_ok.mpr (.inr ⟨hzero, rfl⟩)⟩
  · obtain ⟨a, ha, ham, hn, hauth⟩ := hs hpos
    have hroom : src ≠ dst → b.amount + n < 2 ^ 64 := by
      intro hne
      have htwo := Ledger.amount_add_le_circulating ha hb hne ham hbm
      have hsupply := hc mint
      omega
    obtain ⟨L', ht⟩ := Option.isSome_iff_exists.mp (hlive ha hb hx ham hbm rfl hn hauth hroom)
    exact ⟨L', transferIfPositive_eq_ok.mpr (.inl ⟨hpos, ht⟩)⟩

theorem spendable_of_transferIfPositive {d : ℕ} (h : transferIfPositive T L src mint dst auth n d = .ok L')
    (hs : L.Spendable src mint auth (n + m)) (hm : 0 < m) : L'.Spendable src mint auth m := by
  rcases transferIfPositive_eq_ok.mp h with ⟨-, ht⟩ | ⟨rfl, rfl⟩
  · obtain ⟨r, hr⟩ := T.transferChecked_spec ht
    exact hs.rest hr hm
  · exact hs.mono (Nat.le_add_left _ _)

end Controller

namespace Settler

open Except SystemProgram
open Controller (VaultKey Vault OTokenInfo)

variable {D : Deployment} {T : TokenProgram} {rent : ℕ → ℕ} {verifies : Ed25519.Signed → Bool}
  {s s' s₀ : State} {tr : List (Transition State Label)} {ctx : ExecuteOrder} {ord : Order}
  {tx : Transaction} {i fee net : ℕ} {config : SettlerConfig} {info : OTokenInfo}

/-! ## What an order needs -/

/-- The quote is the maker's and has not been used up or called off, and its premium can be computed. -/
structure ExecuteOrder.Quoted (s : State) (ctx : ExecuteOrder) (ord : Order) (tx : Transaction)
    (i : ℕ) (config : SettlerConfig) (fee net : ℕ) : Prop where
  config_eq : s.config = some config
  unpaused : config.paused = false
  maker_eq : s.makerStates.lookup ctx.maker = some ⟨ctx.maker, ord.makerNonce.toNat, true⟩
  signed : verifyEd25519Signature tx i ctx.maker.toBytes (ord.message ctx.otokenMint) = .ok ()
  in_time : s.ctrl.clock ≤ ord.deadline.toInt
  amount_ge : MIN_EXECUTE_AMOUNT ≤ ord.amount.toNat
  bid_pos : 0 < ord.bidPrice.toNat
  not_cancelled : s.isCancelled (ctx.quoteKey ord) = false
  filled_le : s.filledAmount (ctx.quoteKey ord) + ord.amount.toNat ≤ ord.maxAmount.toNat
  split : ∃ premium, computePremiumSplit ord.amount.toNat ord.bidPrice.toNat config.protocolFeeBps =
    .ok (premium, fee, net)

/-- The controller can open the vault, and the collateral covers the oTokens of an unexpired series. -/
structure ExecuteOrder.Writable (D : Deployment) (s : State) (ctx : ExecuteOrder) (ord : Order)
    (info : OTokenInfo) : Prop where
  unpaused : s.ctrl.Open
  counter_eq : ctx.vaultCounter = D.settlerConfig
  vault_eq : ∃ counter, s.ctrl.vaultCounters.lookup D.settlerConfig = some counter ∧
    ctx.vault = ⟨D.settlerConfig, counter.nextId⟩ ∧ counter.nextId + 1 < 2 ^ 64
  vault_free : ¬s.ctrl.CounterAt ctx.vault
  user_ne : ctx.user ≠ Pubkey.default
  info_eq : s.ctrl.otokenInfos.lookup ctx.otokenMint = some info
  info_seed : ctx.otokenInfo = ctx.otokenMint
  collateral_eq : info.collateralMint = ord.collateralMint
  unexpired : s.ctrl.clock < info.expiry
  collateral_pos : 0 < ord.collateralAmount.toNat
  computable : info.Computable ord.amount.toNat
  covered : info.required ord.amount.toNat ≤ ord.collateralAmount.toNat
  mint : ∃ x, s.ctrl.ledger.mints.lookup ctx.otokenMint = some x ∧
    x.mintAuthority = some D.controllerConfig ∧ x.supply + ord.amount.toNat < 2 ^ 64
  custody_fits : s.custody ctx.balanceKey + ord.amount.toNat < 2 ^ 64

/-- The accounts are those of the parties, and the settler may take the collateral and the premium. -/
structure ExecuteOrder.Funded (D : Deployment) (s : State) (ctx : ExecuteOrder) (ord : Order)
    (config : SettlerConfig) (fee net : ℕ) : Prop where
  collateral_key : ctx.collateralMintAccount = ord.collateralMint
  premium_key : ctx.premiumMintAccount = ord.premiumMint
  authority : ctx.poolVaultAuthority = D.poolVaultAuth ord.collateralMint
  premium_mint : ∃ x, s.ctrl.ledger.mints.lookup ord.premiumMint = some x
  user : s.ctrl.ledger.Owns ctx.user ctx.userCollateralAccount
  collateral : s.ctrl.ledger.Spendable ctx.userCollateralAccount ord.collateralMint D.settlerConfig
    ord.collateralAmount.toNat
  pool : ∃ p, s.ctrl.ledger.accounts.lookup ctx.poolTokenAccount = some p ∧
    p.mint = ord.collateralMint ∧ p.owner = D.poolVaultAuth ord.collateralMint
  settlerOtoken : ∃ a, s.ctrl.ledger.accounts.lookup ctx.settlerOtokenAccount = some a ∧
    a.mint = ctx.otokenMint ∧ a.owner = D.settlerConfig
  maker : s.ctrl.ledger.Owns ctx.maker ctx.mmPremiumAccount
  premium : s.ctrl.ledger.Spendable ctx.mmPremiumAccount ord.premiumMint D.settlerConfig (net + fee)
  userPremium : ∃ a, s.ctrl.ledger.accounts.lookup ctx.userPremiumAccount = some a ∧
    a.mint = ord.premiumMint ∧ a.owner = ctx.user
  treasury : ∃ a, s.ctrl.ledger.accounts.lookup ctx.treasuryAccount = some a ∧
    a.mint = ord.premiumMint ∧ a.owner = config.treasury
  pool_apart : ctx.userCollateralAccount ≠ ctx.poolTokenAccount
  premium_apart : ctx.mmPremiumAccount ≠ ctx.userCollateralAccount

/-- What was given to the order is in order, and the reserve covers the rent. -/
structure ExecuteOrder.Ready (D : Deployment) (rent : ℕ → ℕ) (s : State) (ctx : ExecuteOrder) (ord : Order)
    (tx : Transaction) (i : ℕ) (config : SettlerConfig) (info : OTokenInfo) (fee net : ℕ) : Prop where
  quoted : ctx.Quoted s ord tx i config fee net
  writable : ctx.Writable D s ord info
  funded : ctx.Funded D s ord config fee net
  covers : ctx.due rent ord s ≤ (s.system.get .rentReserve).lamports

/-! ## The calls to the controller -/

/-- The vault of an order before anything is minted against it. -/
def ExecuteOrder.fundedVault (ctx : ExecuteOrder) (ord : Order) : Vault :=
  { Vault.fresh ctx.vault ord.collateralMint ctx.user with
    collateralAmount := ord.collateralAmount.toNat }

theorem ExecuteOrder.Writable.opens (h : ctx.Writable D s ord info) (hn : Controller.Numbered s.ctrl) :
    ∃ c, Controller.openVault D.settlerConfig ord.collateralMint ctx.user s.ctrl = .ok c ∧
      s.ctrl.vaults.lookup ctx.vault = none ∧
      c.vaults.lookup ctx.vault = some (Vault.fresh ctx.vault ord.collateralMint ctx.user) ∧
      c.ledger = s.ctrl.ledger ∧ c.otokenInfos = s.ctrl.otokenInfos ∧ c.clock = s.ctrl.clock ∧ c.Open := by
  obtain ⟨counter, hcounter, hvault, hlt⟩ := h.vault_eq
  have hready : Controller.OpenVault.Ready s.ctrl D.settlerConfig ctx.user :=
    ⟨h.unpaused, ⟨counter, hcounter, hlt, hvault ▸ h.vault_free⟩, h.user_ne⟩
  obtain ⟨c, hc⟩ := hready.succeeds (M := ord.collateralMint) hn
  obtain ⟨id, he⟩ := Controller.openVault_effect hc
  obtain rfl : counter = ⟨D.settlerConfig, id⟩ := Option.some.inj (hcounter.symm.trans he.counter)
  refine ⟨c, hc, hvault ▸ he.fresh, ?_, by rw [he.state_eq], by rw [he.state_eq], by rw [he.state_eq], ?_⟩
  · rw [he.state_eq, hvault, Finmap.lookup_insert]
    rfl
  · rw [he.state_eq]
    exact h.unpaused

theorem ExecuteOrder.Funded.deposits (hT : T.Plain) (hlive : T.Live) {c : Controller.State}
    (h : ctx.Funded D s ord config fee net) (hpos : 0 < ord.collateralAmount.toNat)
    (hw : Controller.WellFormed D c) (hopen : c.Open) (hledger : c.ledger = s.ctrl.ledger)
    (howner : ctx.vault.owner = D.settlerConfig)
    (hv : c.vaults.lookup ctx.vault = some (Vault.fresh ctx.vault ord.collateralMint ctx.user)) :
    ∃ c', Controller.depositCollateral D T (ctx.deposit D) ord.collateralAmount.toNat c = .ok c' ∧
      c'.vaults.lookup ctx.vault = some (ctx.fundedVault ord) ∧
      (∃ r, s.ctrl.ledger.Transferred c'.ledger ctx.userCollateralAccount ord.collateralMint
        ctx.poolTokenAccount D.settlerConfig ord.collateralAmount.toNat r) ∧
      c'.otokenInfos = c.otokenInfos ∧ c'.clock = c.clock ∧ c'.Open := by
  have hready : (ctx.deposit D).Ready D c (Vault.fresh ctx.vault ord.collateralMint ctx.user)
      ord.collateralAmount.toNat :=
    { unpaused := hopen
      vault_eq := hv
      owner_eq := howner
      unsettled := rfl
      amount_pos := hpos
      fits := by
        rw [Vault.fresh, Nat.zero_add]
        exact ord.collateralAmount.toNat_lt
      user := hledger ▸ h.collateral
      pool := hledger ▸ h.pool
      apart := h.pool_apart
      mint_key := h.collateral_key
      authority := h.authority }
  obtain ⟨c', hc'⟩ := hready.succeeds hT hlive hw
  obtain ⟨v, user, pool, L, he⟩ := Controller.depositCollateral_effect hc'
  obtain rfl := Option.some.inj (hv.symm.trans he.vault_eq)
  obtain ⟨d, ht⟩ := he.transfer
  refine ⟨c', hc', ?_, ?_, by rw [he.state_eq], by rw [he.state_eq], ?_⟩
  · rw [he.state_eq]
    dsimp only
    rw [ExecuteOrder.deposit, Finmap.lookup_insert, ExecuteOrder.fundedVault, Vault.fresh, Nat.zero_add]
  · rw [he.state_eq]
    exact ⟨_, hledger ▸ hT ht⟩
  · rw [he.state_eq]
    exact hopen

theorem ExecuteOrder.Writable.mints (hmint : T.MintLive) {c : Controller.State}
    (h : ctx.Writable D s ord info) (hw : Controller.WellFormed D c) (hopen : c.Open)
    (hamount : 0 < ord.amount.toNat) (hv : c.vaults.lookup ctx.vault = some (ctx.fundedVault ord))
    (howner : ctx.vault.owner = D.settlerConfig) (hinfos : c.otokenInfos = s.ctrl.otokenInfos)
    (hclock : c.clock = s.ctrl.clock) (hmints : c.ledger.mints = s.ctrl.ledger.mints)
    (hdest : ∃ b, c.ledger.accounts.lookup ctx.settlerOtokenAccount = some b ∧ b.mint = ctx.otokenMint) :
    ∃ c', Controller.mintOtoken D T (ctx.mint D) ord.amount.toNat c = .ok c' ∧
      c.ledger.Minted c'.ledger ctx.otokenMint ctx.settlerOtokenAccount D.controllerConfig
        ord.amount.toNat := by
  have hready : (ctx.mint D).Ready D c (ctx.fundedVault ord) info ord.amount.toNat :=
    { unpaused := hopen
      vault_eq := hv
      owner_eq := howner
      unsettled := rfl
      bound := .inl rfl
      info_eq := hinfos ▸ h.info_eq
      info_seed := h.info_seed
      collateral_eq := h.collateral_eq
      unexpired := hclock ▸ h.unexpired
      amount_pos := hamount
      fits := by
        rw [ExecuteOrder.fundedVault, Vault.fresh, Nat.zero_add]
        exact ord.amount.toNat_lt
      computable := by
        rw [ExecuteOrder.fundedVault, Vault.fresh, Nat.zero_add]
        exact h.computable
      covered := by
        rw [ExecuteOrder.fundedVault, Vault.fresh, Nat.zero_add]
        exact h.covered
      destination := hdest
      mint := hmints ▸ h.mint }
  obtain ⟨c', hc'⟩ := hready.succeeds hmint hw
  obtain ⟨_, _, _, L, he⟩ := Controller.mintOtoken_effect hc'
  refine ⟨c', hc', ?_⟩
  rw [he.state_eq]
  exact T.mintTo_spec he.mintTo

/-! ## The balance of the maker -/

/-- A balance is stored under its series, too. -/
def Keyed (s : State) : Prop :=
  ∀ k b, s.makerOtokenBalances.lookup k = some b → b.otokenMint = k.otokenMint

theorem Move.keyed {l : Label} (h : Move D T verifies s l s') (hk : Keyed s) : Keyed s' := by
  intro k b hb
  rcases h.makerOtokenBalances with heq | ⟨k₁, b₁, n, hk₁, -, heq⟩ | ⟨ctx, ord, tx, i, r, rfl, he⟩
  · exact hk k b (heq ▸ hb)
  · rw [heq] at hb
    rcases Store.lookup_insert_eq_some.mp hb with ⟨rfl, rfl⟩ | ⟨-, hb⟩
    · exact hk _ b₁ hk₁
    · exact hk k b hb
  · rw [he.state_eq] at hb
    rcases Store.lookup_insert_eq_some.mp hb with ⟨rfl, rfl⟩ | ⟨-, hb⟩
    · rfl
    · exact hk k b hb

theorem keyed_of_run (hrun : Run (Step D T rent verifies) s₀ tr s) (h₀ : Initial D s₀) : Keyed s := by
  refine Run.invariant (I := Keyed) ?_ (fun _ _ _ hk hs ↦ hs.move.keyed hk) hrun
  intro k b hb
  rw [h₀.makerOtokenBalances] at hb
  exact absurd hb (by simp)

/-- What an order makes of the balance it loads. -/
def ExecuteOrder.named (ctx : ExecuteOrder) (b : MakerOTokenBalance) : MakerOTokenBalance :=
  if b.maker = Pubkey.default then { b with maker := ctx.maker, otokenMint := ctx.otokenMint } else b

theorem ExecuteOrder.named_eq (hr : Recorded D s) (hk : Keyed s) (ctx : ExecuteOrder) :
    ctx.named ((s.makerOtokenBalances.lookup ctx.balanceKey).getD
        { maker := Pubkey.default, otokenMint := Pubkey.default, balance := 0 }) =
      ⟨ctx.maker, ctx.otokenMint, s.custody ctx.balanceKey⟩ := by
  rw [State.custody]
  cases hb : s.makerOtokenBalances.lookup ctx.balanceKey with
  | none => rfl
  | some b =>
    have hmaker := hr.balance _ b hb
    have hmint := hk _ b hb
    rw [balanceKey] at hmaker hmint
    rw [Option.getD_some, Option.elim_some, named]
    split
    · rfl
    · obtain ⟨maker, otokenMint, balance⟩ := b
      exact MakerOTokenBalance.mk.injEq .. ▸ ⟨hmaker, hmint, rfl⟩

/-! ## Going through -/

/-- **An order that is ready goes through.** -/
theorem ExecuteOrder.Ready.succeeds (hT : T.Plain) (hlive : T.Live) (hmint : T.MintLive)
    (hn : Controller.Numbered s.ctrl) (hr : Recorded D s) (hk : Keyed s) (hshaped : s.Shaped D)
    (h : ctx.Ready D rent s ord tx i config info fee net) :
    ∃ s', executeOrder D T rent ctx ord tx i s = .ok s' := by
  have hq := h.quoted
  have hf := h.funded
  obtain ⟨counter, hcounter, hvault, -⟩ := h.writable.vault_eq
  have howner : ctx.vault.owner = D.settlerConfig := by rw [hvault]
  have hamount : 0 < ord.amount.toNat := lt_of_lt_of_le (by decide) hq.amount_ge
  -- the controller
  obtain ⟨c₁, h₁, hfresh, hv₁, hledger, hinfos₁, hclock₁, hopen₁⟩ := h.writable.opens hn
  have hw₁ : Controller.WellFormed D c₁ :=
    (step_of_exec (T := T) (.openVault D.settlerConfig ord.collateralMint ctx.user) rfl trivial
      h₁).move.wellFormed hr.wellFormed
  obtain ⟨c₂, h₂, hv₂, ⟨r, ht⟩, hinfos₂, hclock₂, hopen₂⟩ := hf.deposits hT hlive
    h.writable.collateral_pos hw₁ hopen₁ hledger howner hv₁
  have hw₂ : Controller.WellFormed D c₂ :=
    (step_of_exec (.depositCollateral (ctx.deposit D) _) rfl trivial h₂).move.wellFormed hw₁
  obtain ⟨so, hso, hsom, hsoo⟩ := hf.settlerOtoken
  obtain ⟨so', hso', hsom', -⟩ := ht.kept.some hso
  obtain ⟨c₃, h₃, hm⟩ := h.writable.mints hmint hw₂ hopen₂ hamount hv₂ howner
    (hinfos₂.trans hinfos₁) (hclock₂.trans hclock₁) ht.mints_eq ⟨so', hso', hsom'.trans hsom⟩
  have hw₃ : Controller.WellFormed D c₃ :=
    (step_of_exec (.mintOtoken (ctx.mint D) _) rfl trivial h₃).move.wellFormed hw₂
  -- the addresses
  have hnew : s.vaultMMs.lookup ctx.vault = none := by
    rw [Option.eq_none_iff_forall_ne_some]
    intro vm hvm
    obtain ⟨v, hv, -⟩ := hr.vault _ vm hvm
    exact nomatch hfresh.symm.trans hv
  obtain ⟨S₁, S₂, S₃, hs₁, hs₂, hs₃, hs₄⟩ := (hshaped.sponsored h.covers).creates (D := D)
  obtain ⟨S₄, hs₄, -⟩ := hs₄ hnew
  -- the premium
  obtain ⟨x, hx⟩ := hf.premium_mint
  obtain ⟨up, hup, hupm, hupo⟩ := hf.userPremium
  obtain ⟨tr, htr, htrm, htro⟩ := hf.treasury
  have hkept : s.ctrl.ledger.Kept c₃.ledger := ht.kept.trans hm.kept
  have hpremium : c₃.ledger.Spendable ctx.mmPremiumAccount ord.premiumMint D.settlerConfig (net + fee) :=
    (hf.premium.credited fun _ ↦ ht.credited hf.premium_apart).credited fun _ ↦ hm.credited
  obtain ⟨supply, hx₃⟩ := hm.mint_kept (m := ord.premiumMint) (ht.mints_eq ▸ hx)
  obtain ⟨up', hup', hupm', -⟩ := hkept.some hup
  obtain ⟨L₁, hpay⟩ := Controller.transferIfPositive_of_spendable hlive hw₃.conserved
    (fun _ ↦ hpremium.mono (Nat.le_add_right _ _)) hup' (hupm'.trans hupm) hx₃
  have hkept' := hkept.trans (Controller.kept_of_transferIfPositive hpay)
  obtain ⟨tr', htr', htrm', -⟩ := hkept'.some htr
  obtain ⟨L₂, hfee⟩ := Controller.transferIfPositive_of_spendable hlive
    (Controller.conserved_of_transferIfPositive hpay hw₃.conserved)
    (Controller.spendable_of_transferIfPositive hpay hpremium) htr' (htrm'.trans htrm)
    (by rw [Controller.mints_of_transferIfPositive hpay, hx₃])
  -- the accounts of the order
  have hreserve : (s.system.get .rentReserve).IsPlain := hshaped.isPlain trivial rfl
  obtain ⟨uc, huc, huco⟩ := hf.user
  obtain ⟨uc', huc', hucm, hucn, -⟩ := hf.collateral
  obtain rfl := Option.some.inj (huc.symm.trans huc')
  obtain ⟨y, hy, -⟩ := hr.wellFormed.conserved.mint huc (h.writable.collateral_pos.trans_le hucn)
  obtain ⟨mp, hmp, hmpo⟩ := hf.maker
  obtain ⟨mp', hmp', hmpm, -⟩ := hf.premium
  obtain rfl := Option.some.inj (hmp.symm.trans hmp')
  obtain ⟨pool, hpool, hpoolm, hpoolo⟩ := hf.pool
  obtain ⟨z, hz, -⟩ := h.writable.mint
  obtain ⟨premium, hsplit⟩ := hq.split
  have hfill : updateFill ((s.quoteFills.lookup (ctx.quoteKey ord)).getD .zeroed) ord.amount.toNat
      ord.maxAmount.toNat = .ok ⟨s.filledAmount (ctx.quoteKey ord) + ord.amount.toNat, false⟩ := by
    have hcancelled := hq.not_cancelled
    have hle := hq.filled_le
    have hmax := ord.maxAmount.toNat_lt
    rw [State.isCancelled] at hcancelled
    rw [State.filledAmount] at hle ⊢
    rw [updateFill_eq_ok]
    cases hl : s.quoteFills.lookup (ctx.quoteKey ord) with
    | none =>
      rw [hl, Option.elim_none] at hle
      exact ⟨rfl, (hle.trans_lt hmax), hle, rfl⟩
    | some fill =>
      rw [hl, Option.elim_some] at hcancelled hle
      refine ⟨hcancelled, hle.trans_lt hmax, hle, ?_⟩
      rw [Option.getD_some, Option.elim_some, ← hcancelled]
  apply Exists.intro
  simp only [executeOrder, loadConfig, loadMakerState, loadMint, loadTokenAccount,
    fromOption_bind_eq_ok, require_bind_eq_ok]
  refine ⟨config, hq.config_eq, hreserve.1, _, hq.maker_eq, z, hz, y,
    hf.collateral_key ▸ hucm ▸ hy, hf.collateral_key, x, hf.premium_key ▸ hx, hf.premium_key, uc, huc,
    pool, hpool, so, hso, mp, hmp, up, hup, tr, htr, hamount, hq.amount_ge, hq.bid_pos, hq.unpaused, rfl,
    huco, hpoolm, hf.authority, hpoolo, hsom, hsoo, hmpo, hmpm, hupo, hupm, htro, htrm, ?_⟩
  rw [bind_eq_ok]
  refine ⟨(), validateMaker_eq_ok.mpr ⟨rfl, rfl⟩, ?_⟩
  rw [bind_eq_ok]
  refine ⟨(), hq.signed, ?_⟩
  rw [require_bind_eq_ok, bind_eq_ok]
  refine ⟨hq.in_time, _, hs₁, ?_⟩
  rw [bind_eq_ok]
  refine ⟨_, hfill, ?_⟩
  rw [bind_eq_ok]
  refine ⟨_, hsplit, ?_⟩
  rw [fromOption_bind_eq_ok]
  refine ⟨S₂, hs₂, ?_⟩
  rw [bind_eq_ok]
  refine ⟨c₁, cpiOpenVault_eq_ok.mpr ⟨h.writable.counter_eq, ⟨counter, hcounter, hvault⟩, h₁⟩, ?_⟩
  rw [lift_bind_eq_ok]
  refine ⟨c₂, h₂, ?_⟩
  rw [lift_bind_eq_ok]
  refine ⟨c₃, h₃, ?_⟩
  rw [bind_eq_ok]
  refine ⟨_, hs₃, ?_⟩
  have hnamed := ExecuteOrder.named_eq hr hk ctx
  rw [ExecuteOrder.named] at hnamed
  dsimp only
  rw [hnamed]
  simp only [require_bind_eq_ok, fromOption_bind_eq_ok, Checked.add_eq_some]
  refine ⟨trivial, trivial, _, ⟨rfl, h.writable.custody_fits⟩, ?_⟩
  rw [bind_eq_ok]
  refine ⟨S₄, hs₄, ?_⟩
  rw [bind_eq_ok]
  refine ⟨L₁, lift_eq_ok.mpr (hf.premium_key ▸ hpay), ?_⟩
  rw [bind_eq_ok]
  exact ⟨L₂, lift_eq_ok.mpr (hf.premium_key ▸ hfee), rfl⟩

/-! ## What an order does -/

/-- What the parties exchange, and what is on record afterwards. -/
structure ExecuteOrder.Fulfilled (s : State) (ctx : ExecuteOrder) (ord : Order) (fee net : ℕ)
    (s' : State) : Prop where
  /-- The user gives the collateral to the pool, and the maker the premium to the user and its fee to the
  treasury, for oTokens that the settler keeps. -/
  amount : ∀ k, s'.ctrl.ledger.amount k +
      (if k = ctx.userCollateralAccount then ord.collateralAmount.toNat else 0) +
      (if k = ctx.mmPremiumAccount then net + fee else 0) =
    s.ctrl.ledger.amount k + (if k = ctx.poolTokenAccount then ord.collateralAmount.toNat else 0) +
      (if k = ctx.settlerOtokenAccount then ord.amount.toNat else 0) +
      (if k = ctx.userPremiumAccount then net else 0) + (if k = ctx.treasuryAccount then fee else 0)
  supply : ∀ m, s'.ctrl.ledger.supply m =
    s.ctrl.ledger.supply m + (if m = ctx.otokenMint then ord.amount.toNat else 0)
  vault : s.ctrl.vaults.lookup ctx.vault = none ∧ s'.ctrl.vaults =
    s.ctrl.vaults.insert ctx.vault { ctx.fundedVault ord with
      otokenMint := ctx.otokenMint
      shortAmount := ord.amount.toNat }
  custody : ∀ k, s'.custody k = s.custody k + (if k = ctx.balanceKey then ord.amount.toNat else 0)
  remaining : s.vaultMMs.lookup ctx.vault = none ∧ s'.vaultMMs =
    s.vaultMMs.insert ctx.vault ⟨ctx.maker, ctx.vault, ctx.otokenMint, ord.amount.toNat⟩
  filled : ∀ q, s'.filledAmount q =
    s.filledAmount q + (if q = ctx.quoteKey ord then ord.amount.toNat else 0)

theorem ExecuteOrder.Effect.fulfilled {r : ExecuteOrder.Course} (hT : T.Plain)
    (h : ExecuteOrder.Effect D T s ctx ord tx i r s') : ctx.Fulfilled s ord r.fee r.net s' := by
  obtain ⟨id, hopen⟩ := Controller.openVault_effect h.openVault
  obtain ⟨v, user, pool, L, hdeposit⟩ := Controller.depositCollateral_effect h.deposit
  obtain ⟨v', info, dest, M, hmint⟩ := Controller.mintOtoken_effect h.mint
  obtain ⟨d, ht⟩ := hdeposit.transfer
  have ht := hT ht
  have hm := T.mintTo_spec hmint.mintTo
  obtain ⟨dpay, hpay⟩ := h.pay
  obtain ⟨dfee, hfee⟩ := h.payFee
  have hopened : r.opened.ledger = s.ctrl.ledger := by rw [hopen.state_eq]
  have hfunded : r.funded.ledger = L := congrArg Controller.State.ledger hdeposit.state_eq
  have hminted : r.minted.ledger = M := congrArg Controller.State.ledger hmint.state_eq
  have hledger : s'.ctrl.ledger = r.ledger := by rw [h.state_eq]
  rw [hopened] at ht
  rw [hfunded] at hm
  rw [hminted] at hpay
  refine ⟨fun k ↦ ?_, fun m ↦ ?_, h.vaults_eq, fun k ↦ ?_, ⟨h.fresh, by rw [h.state_eq]⟩, fun q ↦ ?_⟩
  · have h₁ : L.amount k +
          (if k = ctx.userCollateralAccount then ord.collateralAmount.toNat else 0) =
        s.ctrl.ledger.amount k +
          (if k = ctx.poolTokenAccount then ord.collateralAmount.toNat else 0) := ht.amount_eq k
    have h₂ : M.amount k = L.amount k +
        (if k = ctx.settlerOtokenAccount then ord.amount.toNat else 0) := hm.amount k
    have h₃ := Controller.amount_of_transferIfPositive hT hpay k
    have h₄ := Controller.amount_of_transferIfPositive hT hfee k
    rw [hledger]
    by_cases hk : k = ctx.mmPremiumAccount
    · rw [if_pos hk] at h₃ h₄ ⊢
      omega
    · rw [if_neg hk] at h₃ h₄ ⊢
      omega
  · have h₂ := hm.supply m
    have h₁ : L.supply m = s.ctrl.ledger.supply m := by rw [Ledger.supply, ht.mints_eq, Ledger.supply]
    have h₃ : r.ledger.supply m = M.supply m := by
      rw [Ledger.supply, Controller.mints_of_transferIfPositive hfee,
        Controller.mints_of_transferIfPositive hpay, Ledger.supply]
    rw [hledger, h₃, h₂, h₁]
    rfl
  · have hbalances : s'.makerOtokenBalances = s.makerOtokenBalances.insert ctx.balanceKey
        ⟨ctx.maker, ctx.otokenMint, s.custody ctx.balanceKey + ord.amount.toNat⟩ := by rw [h.state_eq]
    rw [custody_of_insert hbalances]
    split
    · rename_i hk
      rw [hk]
    · rw [Nat.add_zero]
  · rw [h.state_eq, State.filledAmount, State.filledAmount]
    dsimp only
    by_cases hq : q = ctx.quoteKey ord
    · rw [hq, if_pos rfl, Finmap.lookup_insert, Option.elim_some, State.filledAmount]
    · rw [if_neg hq, Finmap.lookup_insert_of_ne _ hq, Nat.add_zero, State.filledAmount]

/-- **Orders are fulfilled.** In every reachable state an order that is ready goes through, whatever
happened before; and whenever one goes through, the parties exchange exactly the collateral, the premium
and the oTokens of the order, the vault it opens is as the order says, and the maker's custody and what is
filled of the quote grow by its amount. -/
theorem orders_fulfilled (hT : T.Plain) (hlive : T.Live) (hmint : T.MintLive)
    (hrun : Run (Step D T rent verifies) s₀ tr s) (h₀ : Initial D s₀) (ctx : ExecuteOrder) (ord : Order)
    (tx : Transaction) (i : ℕ) :
    (∀ config info fee net, ctx.Ready D rent s ord tx i config info fee net →
      ∃ s', executeOrder D T rent ctx ord tx i s = .ok s') ∧
    ∀ s', executeOrder D T rent ctx ord tx i s = .ok s' → ∃ config premium fee net,
      s.config = some config ∧ computePremiumSplit ord.amount.toNat ord.bidPrice.toNat
        config.protocolFeeBps = .ok (premium, fee, net) ∧ premium = net + fee ∧
      ctx.Fulfilled s ord fee net s' := by
  constructor
  · intro config info fee net h
    obtain ⟨tr', hctrl⟩ := run_ctrl hrun h₀
    exact h.succeeds hT hlive hmint (Controller.numbered_of_run hctrl h₀.ctrl) (recorded_of_run hrun h₀)
      (keyed_of_run hrun h₀) (shaped_of_run hrun h₀)
  · intro s' h
    obtain ⟨r, he⟩ := executeOrder_effect h
    obtain ⟨premium, hsplit⟩ := he.split
    have hpremium := (computePremiumSplit_eq_ok.mp hsplit).2.2.2
    exact ⟨r.config, premium, r.fee, r.net, he.config_eq, hsplit, by omega, he.fulfilled hT⟩

section Sample

/-- The sample order is ready: it sells a million oTokens for a premium of a million, of which a
hundredth is the fee. -/
theorem sampleOrder_ready : (sampleExecuteOrder 0).Ready sampleDeployment id (sampleRun sampleSetup)
    sampleOrder sampleTransaction 1 ⟨1, 1, 2, 100, false, 259200, 7⟩
    ⟨20, 10, 15, 10, 500000000, 100, false, 6, 0⟩ 10000 990000 where
  quoted :=
    { config_eq := by decide +kernel
      unpaused := rfl
      maker_eq := by decide +kernel
      signed := by decide +kernel
      in_time := by decide +kernel
      amount_ge := by decide
      bid_pos := by decide
      not_cancelled := by decide +kernel
      filled_le := by decide +kernel
      split := ⟨1000000, by decide +kernel⟩ }
  writable :=
    { unpaused := ⟨⟨1, 0, false, false⟩, by decide +kernel, rfl, rfl⟩
      counter_eq := rfl
      vault_eq := ⟨⟨4, 0⟩, by decide +kernel, rfl, by decide⟩
      vault_free := by decide +kernel
      user_ne := by decide
      info_eq := by decide +kernel
      info_seed := rfl
      collateral_eq := rfl
      unexpired := by decide +kernel
      collateral_pos := by decide
      computable := Or.inl (by decide)
      covered := by decide
      mint := ⟨⟨some sampleDeployment.controllerConfig, 0, 8⟩, by decide +kernel, rfl, by decide⟩
      custody_fits := by decide +kernel }
  funded :=
    { collateral_key := rfl
      premium_key := rfl
      authority := rfl
      premium_mint := ⟨⟨none, 6000000, 6⟩, by decide +kernel⟩
      user := ⟨⟨10, 1, 1000000, some 4, 1000000⟩, by decide +kernel, rfl⟩
      collateral := ⟨⟨10, 1, 1000000, some 4, 1000000⟩, by decide +kernel, rfl, by decide, by decide⟩
      pool := ⟨⟨10, sampleDeployment.poolVaultAuth 10, 0, none, 0⟩, by decide +kernel, rfl, rfl⟩
      settlerOtoken := ⟨⟨20, 4, 0, none, 0⟩, by decide +kernel, rfl, rfl⟩
      maker := ⟨⟨10, otherKey, 5000000, some 4, 5000000⟩, by decide +kernel, rfl⟩
      premium := ⟨⟨10, otherKey, 5000000, some 4, 5000000⟩, by decide +kernel, rfl, by decide, by decide⟩
      userPremium := ⟨⟨10, 1, 1000000, some 4, 1000000⟩, by decide +kernel, rfl, rfl⟩
      treasury := ⟨⟨10, 2, 0, none, 0⟩, by decide +kernel, rfl, rfl⟩
      pool_apart := by decide
      premium_apart := by decide }
  covers := by decide +kernel

/-- So it goes through, and the maker pays that premium. -/
theorem orders_fulfilled_sample : ∃ s', executeOrder sampleDeployment splToken id (sampleExecuteOrder 0)
      sampleOrder sampleTransaction 1 (sampleRun sampleSetup) = .ok s' ∧
    s'.ctrl.ledger.amount 14 + 1000000 = (sampleRun sampleSetup).ctrl.ledger.amount 14 := by
  have hrun : Run (Step sampleDeployment splToken id sampleScheme) sampleState (sampleTrace sampleSetup)
      (sampleRun sampleSetup) := sampleRun_run (by decide +kernel) (by decide +kernel)
  obtain ⟨hready, hdone⟩ := orders_fulfilled splToken_plain splToken_live splToken_mintLive hrun
    sampleState_initial (sampleExecuteOrder 0) sampleOrder sampleTransaction 1
  obtain ⟨s', hs'⟩ := hready _ _ _ _ sampleOrder_ready
  obtain ⟨config, premium, fee, net, -, hsplit, hpremium, hfulfilled⟩ := hdone s' hs'
  refine ⟨s', hs', ?_⟩
  have hvalue : premium = 1000000 := (computePremiumSplit_eq_ok.mp hsplit).2.1
  have hamount := hfulfilled.amount 14
  rw [if_neg (by decide), if_pos (by decide), if_neg (by decide), if_neg (by decide), if_neg (by decide),
    if_neg (by decide)] at hamount
  omega

end Sample

end Settler

end OptionsProtocol
