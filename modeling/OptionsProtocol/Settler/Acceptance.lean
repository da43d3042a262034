import OptionsProtocol.Settler.Balances
import OptionsProtocol.Settler.Exit

/-!
# When a delivery is accepted

A delivery redeems, hands the settler's signature to a route, and then looks at three balances. So far as the
accounts are in order before it, the route is all that is left to decide: the delivery goes through if what
the route did to the three balances is what the settler asks of them, and then only.

That takes a route that leaves the accounts where they are, as token transfers do; the last transfers of the
delivery need them.
-/

namespace OptionsProtocol

namespace Settler

open Except
open Controller (OTokenInfo amount_of_transferIfPositive)

variable {D : Deployment} {T : TokenProgram} {s s' : State} {c c' : Controller.State} {L : Ledger}

/-! ## What a delivery needs besides its route -/

/-- Everything but the route of the delivery of `n` oTokens is in order: the settler and the controller are
not paused, the series has expired in the money, the accounts are those of the parties and hold enough, and
the user is owed `owed`. -/
structure PhysicalRedeem.Ready (D : Deployment) (s : State) (ctx : PhysicalRedeem) (acc : Custody)
    (n owed : ℕ) : Prop where
  operator : ∃ config, s.config = some config ∧ ctx.signer = config.operator ∧ config.paused = false ∧
    ctx.jupiterProgram = config.jupiterProgram
  unpaused : ∃ c, s.ctrl.config = some c ∧ c.fullyPaused = false
  loaded : acc.Loaded D s ctx.toRedeemForMM
  key_eq : ctx.makerOtokenBalance = ⟨acc.balance.maker, ctx.otokenMint⟩
  info_seed : ctx.otokenInfo = ctx.otokenMint
  mint_key : ctx.collateralMintAccount = acc.info.collateralMint
  authority : ctx.poolVaultAuthority = D.poolVaultAuth acc.info.collateralMint
  settlerOtoken : ∀ a, s.ctrl.ledger.accounts.lookup ctx.settlerOtokenAccount = some a →
    n ≤ a.amount ∧ a.Authorizes D.settlerConfig n
  settlerCollateral : acc.settlerCollateral.delegate = none
  settlerContra : ∃ a, s.ctrl.ledger.accounts.lookup ctx.settlerContraAccount = some a ∧
    a.mint = ctx.contraMint ∧ a.owner = D.settlerConfig ∧ a.delegate = none
  userContra : ∃ a, s.ctrl.ledger.accounts.lookup ctx.userContraAccount = some a ∧
    a.mint = ctx.contraMint ∧ a.owner = ctx.user
  mmCollateral_mint : acc.mmCollateral.mint =
    if acc.info.isPut then acc.info.collateralMint else expectedContra acc.info
  mmCollateral_owner : acc.mmCollateral.owner = acc.balance.maker
  pool : ∃ p, s.ctrl.ledger.accounts.lookup ctx.poolTokenAccount = some p ∧
    p.mint = acc.info.collateralMint ∧ p.owner = D.poolVaultAuth acc.info.collateralMint ∧
      acc.info.payout n ≤ p.amount
  vault : ∃ v, s.ctrl.vaults.lookup ctx.vault = some v ∧ v.otokenMint = ctx.otokenMint ∧
    v.beneficiary = ctx.user
  vaultMM : ∃ vm, s.vaultMMs.lookup ctx.vault = some vm ∧ vm.maker = acc.balance.maker ∧
    vm.otokenMint = ctx.otokenMint ∧ n ≤ vm.remainingAmount
  amount_pos : 0 < n
  covered : n ≤ acc.balance.balance
  expired : acc.info.expiry ≤ s.ctrl.clock
  priced : 0 < acc.info.expiryPrice
  itm : Controller.IsItm acc.info.strikePrice acc.info.expiryPrice acc.info.isPut
  contra_eq : ctx.contraMint = expectedContra acc.info
  owed_eq : ∃ x, s.ctrl.ledger.mints.lookup ctx.contraMint = some x ∧
    computeContraAmount n acc.info.strikePrice acc.info.isPut x.decimals = .ok owed

/-- What the settler asks of the balances after the swap: of what the redemption brought in some was used, and
no more than `m`; a put pays the user and leaves the settler's other account alone, a call pays the settler
for all of it and leaves the user's account alone. -/
def PhysicalRedeem.Accepts (s : State) (ctx : PhysicalRedeem) (isPut : Bool) (payout owed m : ℕ)
    (L : Ledger) : Prop :=
  ∃ used, 0 < used ∧ used ≤ m ∧ L.amount ctx.settlerCollateralAccount + used =
      s.ctrl.ledger.amount ctx.settlerCollateralAccount + payout ∧
    if isPut then used ≤ payout ∧
      s.ctrl.ledger.amount ctx.userContraAccount + owed ≤ L.amount ctx.userContraAccount ∧
      L.amount ctx.settlerContraAccount = s.ctrl.ledger.amount ctx.settlerContraAccount
    else used = payout ∧
      s.ctrl.ledger.amount ctx.settlerContraAccount + owed ≤ L.amount ctx.settlerContraAccount ∧
      L.amount ctx.userContraAccount = s.ctrl.ledger.amount ctx.userContraAccount

section Ready

variable {ctx : PhysicalRedeem} {acc : Custody} {n m owed : ℕ} {swap : Swap}

theorem Custody.Loaded.unique {ctx : RedeemForMM} {acc' : Custody} (h : acc.Loaded D s ctx)
    (h' : acc'.Loaded D s ctx) : acc' = acc := by
  obtain ⟨balance, info, mint, settler, maker⟩ := acc
  obtain ⟨balance', info', mint', settler', maker'⟩ := acc'
  obtain rfl := Option.some.inj (h.balance_eq.symm.trans h'.balance_eq)
  obtain rfl := Option.some.inj (h.info_eq.symm.trans h'.info_eq)
  obtain rfl := Option.some.inj (h.collateralMint_eq.symm.trans h'.collateralMint_eq)
  obtain rfl := Option.some.inj (h.settlerCollateral_eq.symm.trans h'.settlerCollateral_eq)
  obtain rfl := Option.some.inj (h.mmCollateral_eq.symm.trans h'.mmCollateral_eq)
  rfl

theorem PhysicalRedeem.Ready.redeems (hlive : T.Live) (hburn : T.BurnLive)
    (hw : Controller.WellFormed D s.ctrl) {k : ℕ} (hk : acc.info.Computable k) (h : ctx.Ready D s acc n owed) :
    ∃ c, Controller.redeem D T (ctx.redeem D) n s.ctrl = .ok c := by
  obtain ⟨a, ha, ham, hao⟩ := h.loaded.settlerOtoken
  obtain ⟨hn, hauth⟩ := h.settlerOtoken a ha
  have hready : (ctx.redeem D).Ready D s.ctrl acc.info n :=
    { config := h.unpaused
      info_eq := h.loaded.info_eq_of_seed h.info_seed
      info_seed := h.info_seed
      otoken := ⟨a, ha, ham, hao, hn, hauth⟩
      collateral := ⟨_, h.loaded.settlerCollateral_eq, h.loaded.settlerCollateral_mint,
        h.loaded.settlerCollateral_owner⟩
      pool := h.pool
      mint := ⟨_, h.mint_key ▸ h.loaded.collateralMint_eq⟩
      mint_key := h.mint_key
      authority := h.authority
      amount_pos := h.amount_pos
      expired := h.expired
      priced := h.priced }
  exact Controller.redeem_succeeds hlive hburn hw hk hready

theorem PhysicalRedeem.Ready.redeemed (hT : T.Plain) (hw : Controller.WellFormed D s.ctrl)
    (h : ctx.Ready D s acc n owed) (hc : Controller.redeem D T (ctx.redeem D) n s.ctrl = .ok c) :
    ctx.toRedeemForMM.Redeemed D T s acc n c (acc.info.payout n) (acc.info.payout n) := by
  obtain ⟨payout, received, hr⟩ := h.loaded.redeemed hw hc
  obtain ⟨-, rfl⟩ := Controller.getPayout_eq_ok.mp hr.payout_eq
  obtain rfl := hr.plain fun _ ht ↦ hT ht
  exact hr

/-- **A delivery that went through had its swap accepted.** -/
theorem PhysicalRedeem.Ready.accepts (hT : T.Plain) (hw : Controller.WellFormed D s.ctrl)
    (h : ctx.Ready D s acc n owed) (hok : physicalRedeem D T ctx n m swap s = .ok s') :
    ∃ c c', Controller.redeem D T (ctx.redeem D) n s.ctrl = .ok c ∧ swap c = .ok c' ∧
      ctx.Accepts s acc.info.isPut (acc.info.payout n) owed m c'.ledger := by
  obtain ⟨r, he⟩ := physicalRedeem_effect hok
  obtain rfl := h.loaded.unique he.loaded
  have hr := h.redeemed hT hw he.redeem
  have hsource := hr.settlerCollateral
  have howed : r.contraAmount = owed := by
    obtain ⟨x, hx, hx'⟩ := h.owed_eq
    obtain rfl := Option.some.inj (hx.symm.trans he.contraMint_eq)
    exact Except.ok.inj (he.contraAmount_eq.symm.trans hx')
  have hcollateral : s.ctrl.ledger.amount ctx.settlerCollateralAccount = r.acc.settlerCollateral.amount :=
    Ledger.amount_eq he.loaded.settlerCollateral_eq
  have huser : s.ctrl.ledger.amount ctx.userContraAccount = r.userContra.amount :=
    Ledger.amount_eq he.userContra_eq
  have hcontra : s.ctrl.ledger.amount ctx.settlerContraAccount = r.settlerContra.amount :=
    Ledger.amount_eq he.settlerContra_eq
  have hreceived := he.received
  have hpos := he.received_pos
  have hused := he.used
  have hmax := he.used_le
  have huserDelta := he.userContra_delta
  have hcontraDelta := he.settlerContra_delta
  refine ⟨r.redeemed, r.swapped, he.redeem, he.swap, r.collateralUsed, ?_⟩
  cases hside : r.acc.info.isPut with
  | true =>
    obtain ⟨hle, hzero, hsome, surplus, d, hsurplus, -⟩ := he.put hside
    rw [if_pos rfl]
    omega
  | false =>
    obtain ⟨hall, hzero, surplus, paid, d, hsurplus, -, -⟩ := he.call hside
    rw [if_neg Bool.false_ne_true]
    omega

theorem PhysicalRedeem.Ready.pays (hT : T.Plain) (hlive : T.Live) (h : ctx.Ready D s acc n owed)
    (hne : ctx.userContraAccount ≠ ctx.settlerContraAccount) (hkept : s.ctrl.ledger.Kept L)
    (hc : L.Conserved) {x : Mint} (hcoll : L.mints.lookup ctx.collateralMintAccount = some acc.collateralMint)
    (hcontra : L.mints.lookup ctx.contraMint = some x) :
    (acc.info.isPut = true → ∀ surplus ≤ L.amount ctx.settlerCollateralAccount, ∃ L',
      transferIfPositive D T L ctx.settlerCollateralAccount ctx.collateralMintAccount
        ctx.mmCollateralAccount surplus acc.collateralMint.decimals = .ok L') ∧
    (acc.info.isPut = false → ∀ surplus, owed + surplus ≤ L.amount ctx.settlerContraAccount → ∃ paid L',
      T.transferChecked L ctx.settlerContraAccount ctx.contraMint ctx.userContraAccount D.settlerConfig
        owed x.decimals = some paid ∧
      transferIfPositive D T paid ctx.settlerContraAccount ctx.contraMint ctx.mmCollateralAccount
        surplus x.decimals = .ok L') := by
  obtain ⟨e, he, hem, -, -⟩ := hkept.some h.loaded.mmCollateral_eq
  constructor
  · intro hside surplus hle
    obtain ⟨a, ha, ham, hao, had⟩ := hkept.some h.loaded.settlerCollateral_eq
    rw [Ledger.amount_eq ha] at hle
    have hmaker : acc.mmCollateral.mint = acc.info.collateralMint := by
      rw [h.mmCollateral_mint, if_pos hside]
    obtain ⟨L', hL'⟩ := Controller.transferIfPositive_succeeds hlive hc ha he hcoll
      (ham.trans (h.loaded.settlerCollateral_mint.trans h.mint_key.symm))
      (hem.trans (hmaker.trans h.mint_key.symm)) hle (had h.settlerCollateral)
    refine ⟨L', lift_eq_ok.mpr ?_⟩
    rw [← h.loaded.settlerCollateral_owner, ← hao]
    exact hL'
  · intro hside surplus hle
    obtain ⟨a, ha, ham, hao, had⟩ := h.settlerContra
    obtain ⟨b, hb, hbm, hbo⟩ := h.userContra
    obtain ⟨a₁, ha₁, ham₁, hao₁, had₁⟩ := hkept.some ha
    obtain ⟨b₁, hb₁, hbm₁, -, -⟩ := hkept.some hb
    rw [Ledger.amount_eq ha₁] at hle
    have hfit : ctx.settlerContraAccount ≠ ctx.userContraAccount → b₁.amount + owed < 2 ^ 64 := by
      intro hne
      have htwo := Ledger.amount_add_le_circulating ha₁ hb₁ hne (ham₁.trans ham) (hbm₁.trans hbm)
      have hsupply := hc ctx.contraMint
      omega
    have hauth : a₁.Authorizes D.settlerConfig owed := by
      rw [← hao, ← hao₁]
      exact TokenAccount.authorizes_owner (had₁ had)
    obtain ⟨paid, hpaid⟩ := Option.isSome_iff_exists.mp (hlive (d := x.decimals) ha₁ hb₁ hcontra
      (ham₁.trans ham) (hbm₁.trans hbm) rfl (Nat.le_of_add_right_le hle) hauth hfit)
    have hplain := hT hpaid
    obtain ⟨a₂, ha₂, ham₂, hao₂, had₂⟩ := hplain.kept.some ha₁
    obtain ⟨e₂, he₂, hem₂, -, -⟩ := hplain.kept.some he
    have hleft := hplain.amount_eq ctx.settlerContraAccount
    rw [if_pos rfl, if_neg hne.symm, Ledger.amount_eq ha₁, Ledger.amount_eq ha₂] at hleft
    have hmaker : acc.mmCollateral.mint = ctx.contraMint := by
      rw [h.mmCollateral_mint, hside, if_neg Bool.false_ne_true, h.contra_eq]
    obtain ⟨L', hL'⟩ := Controller.transferIfPositive_succeeds hlive (hplain.conserved hc) ha₂ he₂
      (by rw [hplain.mints_eq, hcontra]) (ham₂.trans (ham₁.trans ham)) (hem₂.trans (hem.trans hmaker))
      (n := surplus) (by omega) (had₂ (had₁ had))
    refine ⟨paid, L', hpaid, lift_eq_ok.mpr ?_⟩
    rw [← hao, ← hao₁, ← hao₂]
    exact hL'

/-- The user of a vault with a record is not the settler. -/
theorem PhysicalRedeem.Ready.userContra_ne (hrec : Recorded D s) (h : ctx.Ready D s acc n owed) :
    ctx.userContraAccount ≠ ctx.settlerContraAccount := by
  obtain ⟨v, hv, -, huser⟩ := h.vault
  obtain ⟨vm, hvm, -⟩ := h.vaultMM
  obtain ⟨v', hv', hok⟩ := hrec.vault _ _ hvm
  obtain rfl := Option.some.inj (hv.symm.trans hv')
  obtain ⟨a, ha, -, hao, -⟩ := h.settlerContra
  obtain ⟨b, hb, -, hbo⟩ := h.userContra
  have howns : s.ctrl.ledger.Owns ctx.user ctx.userContraAccount := ⟨b, hb, hbo⟩
  refine howns.ne ⟨a, ha, hao⟩ ?_
  rw [← huser]
  exact ne_settlerConfig_of_not_isPda hok.beneficiary

/-- **A delivery whose swap is accepted goes through.** -/
theorem PhysicalRedeem.Ready.succeeds (hT : T.Plain) (hlive : T.Live) (hrec : Recorded D s)
    (hbook : Booked s) (h : ctx.Ready D s acc n owed)
    (hredeem : Controller.redeem D T (ctx.redeem D) n s.ctrl = .ok c) (hswap : swap c = .ok c')
    (hkept : c.ledger.Kept c'.ledger) (hcons : c'.ledger.Conserved) (hmints : c'.ledger.mints = c.ledger.mints)
    (haccepts : ctx.Accepts s acc.info.isPut (acc.info.payout n) owed m c'.ledger) :
    ∃ s', physicalRedeem D T ctx n m swap s = .ok s' := by
  have hw := hrec.wellFormed
  obtain ⟨config, hconfig, hop, hpaused, hjupiter⟩ := h.operator
  obtain ⟨v, hv, hvmint, hvuser⟩ := h.vault
  obtain ⟨vm, hvm, hvmaker, hvmmint, hremaining⟩ := h.vaultMM
  obtain ⟨sc, hsc, hscm, hsco, -⟩ := h.settlerContra
  obtain ⟨uc, huc, hucm, huco⟩ := h.userContra
  obtain ⟨x, hx, howed⟩ := h.owed_eq
  obtain ⟨o, ho, hom, -⟩ := h.loaded.settlerOtoken
  obtain ⟨y, hy, -⟩ := hw.conserved.mint ho (h.amount_pos.trans_le (h.settlerOtoken o ho).1)
  rw [hom] at hy
  have hr := h.redeemed hT hw hredeem
  obtain ⟨-, -, hcollNe⟩ := hw.info hr.info_eq
  -- the accounts that are read again, after the redemption and after the swap
  obtain ⟨a₁, ha₁, -⟩ := hr.kept.some h.loaded.settlerCollateral_eq
  obtain ⟨a₂, ha₂, -⟩ := hkept.some ha₁
  obtain ⟨uc₁, huc₁, -⟩ := (hr.kept.trans hkept).some huc
  obtain ⟨sc₁, hsc₁, -⟩ := (hr.kept.trans hkept).some hsc
  have hbefore := Ledger.amount_eq h.loaded.settlerCollateral_eq
  have hsource := hr.settlerCollateral
  rw [Ledger.amount_eq ha₁, hbefore] at hsource
  obtain ⟨used, hused, hmax, hbalance, hside⟩ := haccepts
  rw [Ledger.amount_eq ha₂, hbefore] at hbalance
  rw [Ledger.amount_eq huc, Ledger.amount_eq huc₁, Ledger.amount_eq hsc, Ledger.amount_eq hsc₁] at hside
  have hcollMint : c'.ledger.mints.lookup ctx.collateralMintAccount = some acc.collateralMint := by
    rw [hmints, redeem_mint_of_ne hredeem (by rw [h.mint_key]; exact hcollNe), h.loaded.collateralMint_eq]
  obtain ⟨supply, hcontraMint⟩ : ∃ supply, c'.ledger.mints.lookup ctx.contraMint =
      some { x with supply } := by
    rw [hmints]
    exact (step_of_exec (.redeem (ctx.redeem D) n) rfl trivial hredeem).move.mint_kept (by simp) hx
  obtain ⟨hput, hcall⟩ := h.pays hT hlive (h.userContra_ne hrec) (hr.kept.trans hkept) hcons hcollMint
    hcontraMint
  rw [Ledger.amount_eq ha₂] at hput
  rw [Ledger.amount_eq hsc₁] at hcall
  -- the last transfers
  obtain ⟨ledger, hput, hcall⟩ : ∃ ledger,
      (acc.info.isPut = true → transferIfPositive D T c'.ledger ctx.settlerCollateralAccount
        ctx.collateralMintAccount ctx.mmCollateralAccount (acc.info.payout n - used)
        acc.collateralMint.decimals = .ok ledger) ∧
      (acc.info.isPut = false → ∃ paid, T.transferChecked c'.ledger ctx.settlerContraAccount ctx.contraMint
          ctx.userContraAccount D.settlerConfig owed x.decimals = some paid ∧
        transferIfPositive D T paid ctx.settlerContraAccount ctx.contraMint ctx.mmCollateralAccount
          (sc₁.amount - sc.amount - owed) x.decimals = .ok ledger) := by
    cases hisPut : acc.info.isPut with
    | true =>
      obtain ⟨ledger, hledger⟩ := hput hisPut (acc.info.payout n - used) (by omega)
      exact ⟨ledger, fun _ ↦ hledger, by simp⟩
    | false =>
      rw [hisPut, if_neg Bool.false_ne_true] at hside
      obtain ⟨paid, ledger, hpaid, hledger⟩ := hcall hisPut (sc₁.amount - sc.amount - owed) (by omega)
      exact ⟨ledger, by simp, fun _ ↦ ⟨paid, hpaid, hledger⟩⟩
  apply Exists.intro
  simp only [physicalRedeem, loadConfig, fromOption_bind_eq_ok, require_bind_eq_ok]
  refine ⟨config, hconfig, hop, ?_⟩
  rw [bind_eq_ok]
  refine ⟨acc, loadCustody_ok h.loaded ⟨y, hy⟩, ?_⟩
  simp only [loadMint, loadTokenAccount, loadVaultMM, fromOption_bind_eq_ok, require_bind_eq_ok]
  refine ⟨h.key_eq, x, hx, sc, hsc, hscm, hsco, v, hv, hvmint, hvuser, vm, hvm, hbook.vault _ _ hvm,
    hvmaker, hvmmint, uc, huc, hucm, huco, h.mmCollateral_owner, h.amount_pos, hpaused, ?_⟩
  rw [bind_eq_ok]
  refine ⟨(), validateItm_eq_ok.mpr ⟨h.expired, h.priced, h.itm⟩, ?_⟩
  rw [require_bind_eq_ok]
  refine ⟨h.contra_eq, ?_⟩
  rw [bind_eq_ok]
  refine ⟨owed, howed, ?_⟩
  simp only [fromOption_bind_eq_ok, require_bind_eq_ok, lift_bind_eq_ok, Checked.sub_eq_some]
  refine ⟨h.mmCollateral_mint, h.covered, hremaining, _, (Nat.add_sub_of_le hremaining).symm, _,
    (Nat.add_sub_of_le h.covered).symm, c, hredeem, a₁, ha₁, acc.info.payout n, hsource, ?_, hjupiter, ?_⟩
  · cases hisPut : acc.info.isPut <;> simp [hisPut] at hside <;> omega
  rw [bind_eq_ok]
  refine ⟨c', hswap, ?_⟩
  simp only [fromOption_bind_eq_ok, require_bind_eq_ok, Checked.sub_eq_some]
  refine ⟨a₂, ha₂, uc₁, huc₁, sc₁, hsc₁, used, by omega, hmax, uc₁.amount - uc.amount, ?_,
    sc₁.amount - sc.amount, ?_, ?_⟩
  · cases hisPut : acc.info.isPut <;> simp [hisPut] at hside <;> omega
  · cases hisPut : acc.info.isPut <;> simp [hisPut] at hside <;> omega
  cases hisPut : acc.info.isPut with
  | true =>
    rw [hisPut, if_pos rfl] at hside
    simp only [if_true, require_bind_eq_ok, fromOption_bind_eq_ok, Checked.sub_eq_some]
    refine ⟨by omega, by omega, hused, _, (Nat.add_sub_of_le hside.1).symm, ?_⟩
    rw [bind_eq_ok]
    exact ⟨ledger, hput hisPut, rfl⟩
  | false =>
    rw [hisPut, if_neg Bool.false_ne_true] at hside
    obtain ⟨paid, hpaid, hledger⟩ := hcall hisPut
    have hsurplus : sc₁.amount - sc.amount = owed + (sc₁.amount - sc.amount - owed) := by omega
    simp only [Bool.false_eq_true, if_false, require_bind_eq_ok, fromOption_bind_eq_ok, Checked.sub_eq_some]
    refine ⟨hside.1, by omega, by omega, paid, hpaid, _, hsurplus, ?_⟩
    rw [bind_eq_ok]
    exact ⟨ledger, hledger, rfl⟩

end Ready

end Settler

end OptionsProtocol
