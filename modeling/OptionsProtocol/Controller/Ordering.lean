import OptionsProtocol.Controller.Machine
import OptionsProtocol.Runtime.Movement

/-!
# Settlement in any order

`settle_vault` and `redeem` compute what they pay from the terms and the price of the series and from the
vault alone. None of this changes while a series is settled, so the order of the calls decides only when
the tokens are there. If no call pays an account that another takes from, it does not decide that either.

Each call is a block of movements of tokens, and what else it does is to close a vault and to emit an
event. Calls commute because their movements do.

The one account whose spending depends on the order is one that is delegated to its own owner: the token
program then holds the owner to the allowance until that is used up.
-/

namespace OptionsProtocol

namespace Controller

open Except

/-- A call of `settle_vault` or of `redeem`. -/
inductive Settlement where
  | settleVault (ctx : SettleVault)
  | redeem (ctx : Redeem) (amount : ℕ)

namespace Settlement

/-! ## What a call moves -/

def instruction : Settlement → Instruction
  | .settleVault ctx => .settleVault ctx
  | .redeem ctx amount => .redeem ctx amount

/-- The series it settles. -/
def series : Settlement → Pubkey
  | .settleVault ctx => ctx.otokenInfo
  | .redeem ctx _ => ctx.otokenInfo

/-- The vault it closes. -/
def vault : Settlement → Option VaultKey
  | .settleVault ctx => some ctx.vault
  | .redeem _ _ => none

def decimals (s : State) (mint : Pubkey) : ℕ := (s.ledger.mints.lookup mint).elim 0 Mint.decimals

/-- A payment, if there is anything to pay. -/
def payment (src mint dst auth : Pubkey) (amount decimals : ℕ) : List Movement :=
  if 0 < amount then [{ src, mint, auth, amount, decimals, dst := some dst }] else []

/-- The movements of tokens it makes. -/
def movements (s : State) : Settlement → List Movement
  | .settleVault ctx =>
    (s.vaults.lookup ctx.vault).elim [] fun vault ↦
      (s.otokenInfos.lookup ctx.otokenInfo).elim [] fun info ↦
        payment ctx.poolTokenAccount ctx.collateralMintAccount ctx.beneficiaryTokenAccount
          ctx.poolVaultAuthority (vault.collateralAmount - info.payout vault.shortAmount)
          (decimals s ctx.collateralMintAccount)
  | .redeem ctx amount =>
    (s.otokenInfos.lookup ctx.otokenInfo).elim [] fun info ↦
      { src := ctx.redeemerOtokenAccount, mint := ctx.otokenMint, auth := ctx.redeemer, amount
        decimals := decimals s ctx.otokenMint, dst := none } ::
      payment ctx.poolTokenAccount ctx.collateralMintAccount ctx.redeemerCollateralAccount
        ctx.poolVaultAuthority (info.payout amount) (decimals s ctx.collateralMintAccount)

/-- It takes tokens from the account. -/
def Debits (s : State) (c : Settlement) (k : Pubkey) : Prop := ∃ x ∈ c.movements s, x.src = k

/-- It pays tokens into the account. -/
def Credits (s : State) (c : Settlement) (k : Pubkey) : Prop := ∃ x ∈ c.movements s, x.dst = some k

/-- No account credited by one of the calls is debited by the other. -/
def Separate (s : State) (c d : Settlement) : Prop :=
  ∀ k, ¬(c.Credits s k ∧ d.Debits s k) ∧ ¬(c.Debits s k ∧ d.Credits s k)

/-- Close a vault. -/
def close (vaults : Store VaultKey Vault) : Option VaultKey → Store VaultKey Vault
  | some k => (vaults.lookup k).elim vaults fun v ↦ vaults.insert k { v with settled := true }
  | none => vaults

/-- The state after a call, apart from the tokens it moved and the event it emitted. -/
def finish (c : Settlement) (s : State) (ledger : Ledger) (e : Event) : State :=
  { s with ledger, vaults := close s.vaults c.vault, log := s.log ++ [e] }

end Settlement

/-! ## What does not change -/

/-- The terms of a vault: all but whether it is still open. -/
def Vault.terms (v : Vault) : Vault := { v with settled := false }

/-- The states differ only in balances, in which vaults are settled, in the log and in the clock. -/
structure Akin (s u : State) : Prop where
  config : u.config = s.config
  otokenInfos : u.otokenInfos = s.otokenInfos
  ledger : s.ledger.SameShape u.ledger
  vaults : ∀ k, (u.vaults.lookup k).map Vault.terms = (s.vaults.lookup k).map Vault.terms

variable {D : Deployment} {T : TokenProgram} {s s' t u v : State} {c d : Settlement} {e : Event}
  {received : Pubkey → ℕ → ℕ}

theorem Akin.refl (s : State) : Akin s s := ⟨rfl, rfl, .refl _, fun _ ↦ rfl⟩

theorem Akin.symm (h : Akin s u) : Akin u s :=
  ⟨h.config.symm, h.otokenInfos.symm, h.ledger.symm, fun k ↦ (h.vaults k).symm⟩

theorem Akin.trans (h : Akin s u) (h' : Akin u v) : Akin s v :=
  ⟨h'.config.trans h.config, h'.otokenInfos.trans h.otokenInfos, h.ledger.trans h'.ledger,
    fun k ↦ (h'.vaults k).trans (h.vaults k)⟩

theorem Akin.setClock (h : Akin s u) (a b : ℤ) : Akin { s with clock := a } { u with clock := b } :=
  ⟨h.config, h.otokenInfos, h.ledger, h.vaults⟩

theorem Akin.movements (h : Akin s u) (c : Settlement) : c.movements u = c.movements s := by
  have hdecimals : ∀ m, Settlement.decimals u m = Settlement.decimals s m := by
    intro m
    have hm := congrArg (fun o ↦ o.elim 0 id) (h.ledger.mint m)
    rw [Option.elim_map, Option.elim_map] at hm
    exact hm.symm
  cases c with
  | settleVault ctx =>
    have hvault := h.vaults ctx.vault
    simp only [Settlement.movements, h.otokenInfos, hdecimals]
    cases hu : u.vaults.lookup ctx.vault with
    | none =>
      rw [hu, Option.map_none, eq_comm, Option.map_eq_none_iff] at hvault
      rw [hvault]
    | some v =>
      rw [hu, Option.map_some, eq_comm] at hvault
      obtain ⟨w, hw, hwv⟩ := Option.map_eq_some_iff.mp hvault
      have hshort : w.terms.shortAmount = v.terms.shortAmount := by rw [hwv]
      have hcollateral : w.terms.collateralAmount = v.terms.collateralAmount := by rw [hwv]
      simp only [Vault.terms] at hshort hcollateral
      rw [hw, Option.elim_some, Option.elim_some, hshort, hcollateral]
  | redeem ctx amount => simp only [Settlement.movements, h.otokenInfos, hdecimals]

/-! ## What a call does -/

/-- What a successful call establishes: the series it read was expired and the vault it closes open, it
carried out its movements under the owners of the accounts they take from, and wherever these can be
carried out and the vault is the same, it does the same again. -/
structure Settlement.Effect (D : Deployment) (T : TokenProgram) (c : Settlement) (s s' : State)
    (e : Event) : Prop where
  expired : ∀ info, s.otokenInfos.lookup c.series = some info → info.expiry ≤ s.clock
  unsettled : ∀ k, c.vault = some k → ∃ v, s.vaults.lookup k = some v ∧ v.settled = false
  owner : ∀ x ∈ c.movements s, ∃ a, s.ledger.accounts.lookup x.src = some a ∧ a.owner = x.auth
  moved : (c.movements s).foldlM (Movement.run T) s.ledger = .ok s'.ledger
  again : ∀ u L, Akin s u →
    (∀ info, u.otokenInfos.lookup c.series = some info → info.expiry ≤ u.clock) →
    (∀ k, c.vault = some k → u.vaults.lookup k = s.vaults.lookup k) →
    (c.movements s).foldlM (Movement.run T) u.ledger = .ok L →
    exec D T c.instruction u = .ok (c.finish u L e)

theorem Settlement.Effect.state_eq (h : c.Effect D T s s' e)
    (hs : exec D T c.instruction s = .ok s') : s' = c.finish s s'.ledger e := by
  have heq := h.again s s'.ledger (.refl s) h.expired (fun _ _ ↦ rfl) h.moved
  rw [hs, Except.ok.injEq] at heq
  exact heq

/-- The movement of a payment is the transfer the handlers make. -/
theorem Settlement.payment_run {L L' : Ledger} {src mint dst auth : Pubkey} {n d : ℕ} :
    (payment src mint dst auth n d).foldlM (Movement.run T) L = .ok L' ↔
      transferIfPositive T L src mint dst auth n d = .ok L' := by
  rw [payment, transferIfPositive]
  split
  · rw [List.foldlM_cons, bind_eq_ok, fromOption_eq_ok]
    constructor
    · rintro ⟨M, hM, hL⟩
      rw [List.foldlM_nil, pure_eq_ok] at hL
      exact hL ▸ fromOption_eq_ok.mp hM
    · intro h
      exact ⟨L', fromOption_eq_ok.mpr h, rfl⟩
  · rw [List.foldlM_nil, pure_eq_ok, Except.ok.injEq]

theorem Settlement.mem_payment {x : Movement} {src mint dst auth : Pubkey} {n d : ℕ}
    (hx : x ∈ payment src mint dst auth n d) : x.src = src ∧ x.auth = auth := by
  rw [payment] at hx
  split at hx
  · rw [List.mem_singleton.mp hx]
    exact ⟨rfl, rfl⟩
  · exact absurd hx List.not_mem_nil

theorem settleVault_settlement {ctx : SettleVault} (h : settleVault D T ctx s = .ok s') :
    ∃ e, (Settlement.settleVault ctx).Effect D T s s' e := by
  simp only [settleVault, loadConfig, loadVault, loadOtokenInfo, loadTokenAccount, loadMint,
    fromOption_bind_eq_ok, require_bind_eq_ok] at h
  obtain ⟨c, hc, v, hv, info, hi, pool, hp, mint, hm, ben, hb, hadmin, hk, him, hseed, hpm, hpo, hcm,
    hbo, hbm, hpa, hfull, hset, hshort, hexp, hprice, h⟩ := h
  obtain ⟨r, hr, h⟩ := bind_eq_ok.mp h
  obtain ⟨-, hrp⟩ := getPayout_eq_ok.mp hr
  obtain ⟨ret, hret, h⟩ := fromOption_bind_eq_ok.mp h
  obtain ⟨ledger, ht, hs⟩ := bind_eq_ok.mp h
  rw [pure_eq_ok] at hs
  -- the subtraction was checked
  have hpaid : ret = v.collateralAmount - info.payout v.shortAmount := by
    rw [Checked.sub_eq_some] at hret
    rw [OTokenInfo.payout, ← hrp]
    omega
  have hmovements : (Settlement.settleVault ctx).movements s =
      Settlement.payment ctx.poolTokenAccount ctx.collateralMintAccount ctx.beneficiaryTokenAccount
        ctx.poolVaultAuthority ret mint.decimals := by
    rw [Settlement.movements, hv, Option.elim_some, hi, Option.elim_some, Settlement.decimals, hm,
      Option.elim_some, hpaid]
  refine ⟨.vaultSettled v.owner v.vaultId ret r, ⟨?_, ?_, ?_, ?_, ?_⟩⟩
  · intro info' hi'
    obtain rfl := Option.some.inj (hi.symm.trans hi')
    exact hexp
  · intro k hk'
    obtain rfl := Option.some.inj hk'
    exact ⟨v, hv, hset⟩
  · intro x hx
    rw [hmovements] at hx
    obtain ⟨hsrc, hauth⟩ := Settlement.mem_payment hx
    exact ⟨pool, hsrc ▸ hp, hpo.trans hauth.symm⟩
  · rw [hmovements, Settlement.payment_run, ht, ← hs]
  -- the guards read nothing that other settlements change
  · intro u L hu hexp' hvault hrun
    rw [hmovements, Settlement.payment_run] at hrun
    have hv' := (hvault ctx.vault rfl).trans hv
    have hi' : u.otokenInfos.lookup ctx.otokenInfo = some info := by rw [hu.otokenInfos, hi]
    obtain ⟨pool', hp', hpm', hpo'⟩ := hu.ledger.account_some hp
    obtain ⟨ben', hb', hbm', hbo'⟩ := hu.ledger.account_some hb
    obtain ⟨mint', hm', hdec⟩ := hu.ledger.mint_some hm
    have hexp'' := hexp' info hi'
    rw [Settlement.instruction, exec]
    simp only [settleVault, loadConfig, loadVault, loadOtokenInfo, loadTokenAccount, loadMint,
      fromOption_bind_eq_ok, require_bind_eq_ok]
    refine ⟨c, hu.config.trans hc, v, hv', info, hi', pool', hp', mint', hm', ben', hb', hadmin, hk,
      him, hseed, hpm'.trans hpm, hpo'.trans hpo, hcm, hbo'.trans hbo, hbm'.trans hbm, hpa, hfull,
      hset, hshort, hexp'', hprice, ?_⟩
    refine bind_eq_ok.mpr ⟨r, hr, fromOption_bind_eq_ok.mpr ⟨ret, hret, bind_eq_ok.mpr ⟨L, ?_, ?_⟩⟩⟩
    · rw [hdec]
      exact hrun
    · rw [pure_eq_ok, Settlement.finish, Settlement.vault, Settlement.close, hv', Option.elim_some]

theorem redeem_settlement {ctx : Redeem} {amount : ℕ}
    (h : redeem D T ctx amount s = .ok s') :
    ∃ e, (Settlement.redeem ctx amount).Effect D T s s' e := by
  simp only [redeem, loadConfig, loadOtokenInfo, loadTokenAccount, loadMint,
    fromOption_bind_eq_ok, require_bind_eq_ok] at h
  obtain ⟨c, hc, info, hi, om, hom, otoken, hot, coll, hco, pool, hp, mint, hm, hseed, him, hotm,
    hoto, hcom, hcoo, hpm, hpo, hcm, hpa, hfull, hpos, hexp, hprice, h⟩ := h
  obtain ⟨r, hr, h⟩ := bind_eq_ok.mp h
  obtain ⟨-, hrp⟩ := getPayout_eq_ok.mp hr
  obtain ⟨burned, hburn, h⟩ := fromOption_bind_eq_ok.mp h
  obtain ⟨ledger, ht, hs⟩ := bind_eq_ok.mp h
  rw [pure_eq_ok] at hs
  have hmovements : (Settlement.redeem ctx amount).movements s =
      { src := ctx.redeemerOtokenAccount, mint := ctx.otokenMint, auth := ctx.redeemer, amount
        decimals := om.decimals, dst := none } ::
      Settlement.payment ctx.poolTokenAccount ctx.collateralMintAccount ctx.redeemerCollateralAccount
        ctx.poolVaultAuthority r mint.decimals := by
    rw [Settlement.movements, hi, Option.elim_some, Settlement.decimals, Settlement.decimals, hm, hom,
      Option.elim_some, Option.elim_some, OTokenInfo.payout, hrp]
  refine ⟨.redeemed ctx.otokenMint ctx.redeemer amount r, ⟨?_, ?_, ?_, ?_, ?_⟩⟩
  · intro info' hi'
    obtain rfl := Option.some.inj (hi.symm.trans hi')
    exact hexp
  · intro k hk
    exact absurd hk (by simp [Settlement.vault])
  · intro x hx
    rw [hmovements] at hx
    rcases List.mem_cons.mp hx with rfl | hx
    · exact ⟨otoken, hot, hoto⟩
    · obtain ⟨hsrc, hauth⟩ := Settlement.mem_payment hx
      exact ⟨pool, hsrc ▸ hp, hpo.trans hauth.symm⟩
  · rw [hmovements, Reorder.foldlM_cons_eq_ok]
    refine ⟨burned, fromOption_eq_ok.mpr hburn, ?_⟩
    rw [Settlement.payment_run, ht, ← hs]
  -- likewise, and the burn comes before the payment
  · intro u L hu hexp' _ hrun
    rw [hmovements, Reorder.foldlM_cons_eq_ok] at hrun
    obtain ⟨M, hM, hrun⟩ := hrun
    rw [Settlement.payment_run] at hrun
    have hi' : u.otokenInfos.lookup ctx.otokenInfo = some info := by rw [hu.otokenInfos, hi]
    obtain ⟨om', hom', hodec⟩ := hu.ledger.mint_some hom
    obtain ⟨otoken', hot', hotm', hoto'⟩ := hu.ledger.account_some hot
    obtain ⟨coll', hco', hcom', hcoo'⟩ := hu.ledger.account_some hco
    obtain ⟨pool', hp', hpm', hpo'⟩ := hu.ledger.account_some hp
    obtain ⟨mint', hm', hdec⟩ := hu.ledger.mint_some hm
    have hexp'' := hexp' info hi'
    rw [Settlement.instruction, exec]
    simp only [redeem, loadConfig, loadOtokenInfo, loadTokenAccount, loadMint,
      fromOption_bind_eq_ok, require_bind_eq_ok]
    refine ⟨c, hu.config.trans hc, info, hi', om', hom', otoken', hot', coll', hco', pool', hp', mint',
      hm', hseed, him, hotm'.trans hotm, hoto'.trans hoto, hcom'.trans hcom, hcoo'.trans hcoo,
      hpm'.trans hpm, hpo'.trans hpo, hcm, hpa, hfull, hpos, hexp'', hprice, ?_⟩
    refine bind_eq_ok.mpr ⟨r, hr, fromOption_bind_eq_ok.mpr ⟨M, ?_, bind_eq_ok.mpr ⟨L, ?_, ?_⟩⟩⟩
    · rw [hodec]
      exact fromOption_eq_ok.mp hM
    · rw [hdec]
      exact hrun
    · rw [pure_eq_ok, Settlement.finish, Settlement.vault, Settlement.close]

theorem Settlement.effect (h : exec D T c.instruction s = .ok s') : ∃ e, c.Effect D T s s' e := by
  cases c with
  | settleVault ctx => exact settleVault_settlement h
  | redeem ctx amount => exact redeem_settlement h

/-! ## Closing vaults -/

theorem Settlement.close_lookup (vaults : Store VaultKey Vault) (o : Option VaultKey) (k : VaultKey) :
    (close vaults o).lookup k =
      (vaults.lookup k).map fun v ↦ if o = some k then { v with settled := true } else v := by
  cases o with
  | none => simp [close]
  | some l =>
    rw [close]
    cases hl : vaults.lookup l with
    | none =>
      by_cases hk : l = k
      · subst hk
        rw [Option.elim_none, hl, Option.map_none]
      · simp [hk]
    | some v =>
      by_cases hk : l = k
      · subst hk
        rw [Option.elim_some, Finmap.lookup_insert, hl, Option.map_some, if_pos rfl]
      · rw [Option.elim_some, Finmap.lookup_insert_of_ne _ (Ne.symm hk)]
        simp [hk]

theorem Settlement.close_of_ne {vaults : Store VaultKey Vault} {o : Option VaultKey} {k : VaultKey}
    (h : o ≠ some k) : (close vaults o).lookup k = vaults.lookup k := by
  rw [close_lookup]
  simp [h]

theorem Settlement.close_comm (vaults : Store VaultKey Vault) (o o' : Option VaultKey) :
    close (close vaults o) o' = close (close vaults o') o := by
  refine Finmap.ext_lookup fun k ↦ ?_
  rw [close_lookup, close_lookup, close_lookup, close_lookup, Option.map_map, Option.map_map]
  congr 1
  funext v
  by_cases h : o = some k
  · by_cases h' : o' = some k
    · simp [h, h']
    · simp [h, h']
  · by_cases h' : o' = some k
    · simp [h, h']
    · simp [h, h']

theorem Settlement.akin (hT : T.Steady received) (h : exec D T c.instruction s = .ok s') :
    Akin s s' := by
  obtain ⟨e, he⟩ := effect h
  have hshape : s.ledger.SameShape s'.ledger :=
    Reorder.foldlM_keeps (fun _ _ _ hL hrun ↦ hL.trans (Movement.run_sameShape hT hrun)) (.refl _)
      he.moved
  rw [he.state_eq h] at hshape ⊢
  refine ⟨rfl, rfl, hshape, fun k ↦ ?_⟩
  rw [finish, close_lookup, Option.map_map]
  congr 1
  funext v
  rw [Function.comp_apply]
  split
  · rfl
  · rfl

/-! ## Exchanging two calls -/

/-- The states differ only in the clock and in the order of the log. -/
structure SameBooks (s u : State) : Prop where
  config : u.config = s.config
  vaultCounters : u.vaultCounters = s.vaultCounters
  otokenInfos : u.otokenInfos = s.otokenInfos
  vaults : u.vaults = s.vaults
  ledger : u.ledger = s.ledger
  log : u.log.Perm s.log

theorem SameBooks.refl (s : State) : SameBooks s s := ⟨rfl, rfl, rfl, rfl, rfl, .refl _⟩

theorem SameBooks.trans (h : SameBooks s u) (h' : SameBooks u v) : SameBooks s v :=
  ⟨h'.config.trans h.config, h'.vaultCounters.trans h.vaultCounters,
    h'.otokenInfos.trans h.otokenInfos, h'.vaults.trans h.vaults, h'.ledger.trans h.ledger,
    h'.log.trans h.log⟩

variable (D T) in
/-- Make the call `p.2` at the time `p.1`. -/
def settleAt (s : State) (p : ℤ × Settlement) : Except Error State :=
  exec D T p.2.instruction { s with clock := p.1 }

/-- A call that went through goes through at any time at which its series is expired. -/
theorem SameBooks.call {p : ℤ × Settlement} {b : ℤ} (h : SameBooks s u)
    (hp : settleAt D T s p = .ok s')
    (hexp : ∀ info, s.otokenInfos.lookup p.2.series = some info → info.expiry ≤ b) :
    ∃ u', settleAt D T u (b, p.2) = .ok u' ∧ SameBooks s' u' := by
  obtain ⟨e, he⟩ := Settlement.effect hp
  have hakin : Akin { s with clock := p.1 } { u with clock := b } := by
    refine ⟨h.config, h.otokenInfos, ?_, fun k ↦ ?_⟩
    · rw [h.ledger]
      exact .refl _
    · rw [h.vaults]
  have hu := he.again { u with clock := b } s'.ledger hakin
    (fun info hi ↦ hexp info (h.otokenInfos ▸ hi)) (fun k _ ↦ by rw [h.vaults])
    (by rw [h.ledger]; exact he.moved)
  refine ⟨_, hu, ?_⟩
  rw [he.state_eq hp]
  refine ⟨h.config, h.vaultCounters, h.otokenInfos, ?_, rfl, h.log.append_right [e]⟩
  simp only [Settlement.finish, h.vaults]

/-- The account is delegated to its own owner. -/
def SelfDelegated (L : Ledger) (k : Pubkey) : Prop :=
  ∃ a ∈ L.accounts.lookup k, a.delegate = some a.owner

instance (L : Ledger) (k : Pubkey) : Decidable (SelfDelegated L k) :=
  inferInstanceAs (Decidable (∃ a ∈ L.accounts.lookup k, _))

/-- The address owns the account, which is not delegated to it. -/
def Ordinary (L : Ledger) (k auth : Pubkey) : Prop :=
  ∃ a, L.accounts.lookup k = some a ∧ a.owner = auth ∧ a.delegate ≠ some auth

theorem undelegated_ordinary (L : Ledger) : Movement.Undelegated (Ordinary L) L := by
  rintro k auth b ⟨a, ha, -, hd⟩ hb
  rwa [Option.some.inj (hb.symm.trans ha)]

theorem Settlement.Effect.ordinary {x : Movement} {L : Ledger} (h : c.Effect D T s s' e)
    (hx : x ∈ c.movements s) (hL : s.ledger.SameShape L) (hd : ¬SelfDelegated L x.src) :
    Ordinary L x.src x.auth := by
  obtain ⟨a, ha, ho⟩ := h.owner x hx
  obtain ⟨b, hb, -, ho'⟩ := hL.account_some ha
  have howner : b.owner = x.auth := ho'.trans ho
  exact ⟨b, hb, howner, fun hself ↦ hd ⟨b, hb, howner ▸ hself⟩⟩

/-- The calls can be exchanged: neither pays an account that the other takes from, and they share no
account that is delegated to its own owner. -/
structure Settlement.Independent (s : State) (c d : Settlement) : Prop where
  separate : c.Separate s d
  shared : ∀ k, c.Debits s k → d.Debits s k → ¬SelfDelegated s.ledger k

theorem Settlement.Independent.symm (h : c.Independent s d) : d.Independent s c :=
  ⟨fun k ↦ ⟨fun hk ↦ (h.separate k).2 hk.symm, fun hk ↦ (h.separate k).1 hk.symm⟩,
    fun k hd hc ↦ h.shared k hc hd⟩

theorem Settlement.separate_iff : c.Separate s d ↔
    ∀ x ∈ c.movements s, ∀ y ∈ d.movements s, x.dst ≠ some y.src ∧ y.dst ≠ some x.src := by
  constructor
  · intro h x hx y hy
    exact ⟨fun hdst ↦ (h y.src).1 ⟨⟨x, hx, hdst⟩, ⟨y, hy, rfl⟩⟩,
      fun hdst ↦ (h x.src).2 ⟨⟨x, hx, rfl⟩, ⟨y, hy, hdst⟩⟩⟩
  · intro h k
    constructor
    · rintro ⟨⟨x, hx, hdst⟩, ⟨y, hy, rfl⟩⟩
      exact (h x hx y hy).1 hdst
    · rintro ⟨⟨x, hx, rfl⟩, ⟨y, hy, hdst⟩⟩
      exact (h x hx y hy).2 hdst

theorem Settlement.independent_iff : c.Independent s d ↔ c.Separate s d ∧
    ∀ x ∈ c.movements s, ∀ y ∈ d.movements s, x.src = y.src → ¬SelfDelegated s.ledger x.src := by
  constructor
  · intro h
    exact ⟨h.separate, fun x hx y hy hsrc ↦ h.shared x.src ⟨x, hx, rfl⟩ ⟨y, hy, hsrc.symm⟩⟩
  · rintro ⟨hsep, hshared⟩
    refine ⟨hsep, ?_⟩
    rintro k ⟨x, hx, rfl⟩ ⟨y, hy, hsrc⟩
    exact hshared x hx y hy hsrc.symm

instance (s : State) (c d : Settlement) : Decidable (c.Separate s d) :=
  decidable_of_iff _ Settlement.separate_iff.symm

instance (s : State) (c d : Settlement) : Decidable (c.Independent s d) :=
  decidable_of_iff _ Settlement.independent_iff.symm

theorem Settlement.Independent.movements {s₀ : State} {f : Event} (h : c.Independent s₀ d)
    (hc : c.Effect D T s s' e) (hd : d.Effect D T u v f) (hs : Akin s₀ s) (hu : Akin s₀ u) :
    ∀ x ∈ c.movements s₀, ∀ y ∈ d.movements s₀,
      Movement.Independent (Ordinary s₀.ledger) x y := by
  intro x hx y hy
  have hx' : x ∈ c.movements s := (hs.movements c).symm ▸ hx
  have hy' : y ∈ d.movements u := (hu.movements d).symm ▸ hy
  obtain ⟨hsep, hshared⟩ := independent_iff.mp h
  obtain ⟨hleft, hright⟩ := separate_iff.mp hsep x hx y hy
  refine ⟨hleft, hright, fun hsrc ↦ ?_⟩
  have hself := hshared x hx y hy hsrc
  exact ⟨hc.ordinary hx' hs.symm.ledger hself, hd.ordinary hy' hu.symm.ledger (hsrc ▸ hself)⟩

/-- **Independent calls can be exchanged.** -/
theorem Settlement.exchange (hT : T.Steady received) {s₀ : State} {p q : ℤ × Settlement}
    (hs : Akin s₀ s) (hQ : Movement.Undelegated (Ordinary s₀.ledger) s.ledger)
    (hind : p.2.Independent s₀ q.2) (hp : settleAt D T s p = .ok u) (hq : settleAt D T u q = .ok t) :
    ∃ v t', settleAt D T s q = .ok v ∧ settleAt D T v p = .ok t' ∧ SameBooks t t' := by
  obtain ⟨a, c⟩ := p
  obtain ⟨b, d⟩ := q
  have hc : exec D T c.instruction { s with clock := a } = .ok u := hp
  have hd : exec D T d.instruction { u with clock := b } = .ok t := hq
  obtain ⟨e, he⟩ := effect hc
  obtain ⟨f, hf⟩ := effect hd
  have hsu : Akin s u := (akin hT hc).setClock s.clock u.clock
  have hu := he.state_eq hc
  have ht := hf.state_eq hd
  have hvaults : u.vaults = close s.vaults c.vault := by rw [hu, finish]
  have hinfos : t.otokenInfos = s.otokenInfos := by rw [ht, finish, hsu.otokenInfos]
  -- the vault that the second call closes was not closed by the first
  have hne : ∀ k, d.vault = some k → c.vault ≠ some k := by
    intro k hdk hck
    obtain ⟨v, hv, hopen⟩ := hf.unsettled k hdk
    rw [hvaults, close_lookup] at hv
    obtain ⟨w, -, rfl⟩ := Option.map_eq_some_iff.mp hv
    rw [if_pos hck] at hopen
    exact absurd hopen (by simp)
  have hsa : Akin s₀ { s with clock := a } := hs.setClock s₀.clock a
  have hub : Akin s₀ { u with clock := b } := (hs.trans hsu).setClock s₀.clock b
  have hmc := hsa.movements c
  have hmd := hub.movements d
  -- so the tokens can be moved the other way round
  obtain ⟨L, hdL, hcL⟩ : ∃ L, (d.movements s₀).foldlM (Movement.run T) s.ledger = .ok L ∧
      (c.movements s₀).foldlM (Movement.run T) L = .ok t.ledger :=
    Reorder.foldlM_exchange (fun _ _ _ hL hrun ↦ hL.run hT hrun)
      (fun _ _ _ _ _ hL hxy hx hy ↦ Movement.exchange hT hL hxy hx hy) hQ
      (hind.movements he hf hsa hub) (hmc ▸ he.moved) (hmd ▸ hf.moved)
  have hfirst : settleAt D T s (b, d) = .ok (d.finish { s with clock := b } L f) := by
    refine hf.again { s with clock := b } L (hsu.symm.setClock b b) (fun info hi ↦ ?_)
      (fun k hk ↦ ?_) (hmd ▸ hdL)
    · exact hf.expired info ((congrArg (fun i ↦ i.lookup d.series) hsu.otokenInfos).trans hi)
    · exact ((congrArg (fun i ↦ i.lookup k) hvaults).trans (close_of_ne (hne k hk))).symm
  obtain ⟨v, hv⟩ : ∃ v, v = d.finish { s with clock := b } L f := ⟨_, rfl⟩
  have hsv : Akin s v := hv ▸ (akin hT hfirst).setClock s.clock b
  have hsecond : settleAt D T v (a, c) = .ok (c.finish { v with clock := a } t.ledger e) := by
    refine he.again { v with clock := a } t.ledger (hsv.setClock a a) (fun info hi ↦ ?_)
      (fun k hk ↦ ?_) (hmc ▸ (hv ▸ hcL))
    · exact he.expired info ((congrArg (fun i ↦ i.lookup c.series) hsv.otokenInfos).symm.trans hi)
    · have hdk : d.vault ≠ some k := fun hdk ↦ hne k hdk hk
      rw [hv]
      exact close_of_ne hdk
  refine ⟨v, _, hv ▸ hfirst, hsecond, ?_⟩
  rw [ht, hu, hv]
  refine ⟨rfl, rfl, rfl, close_comm _ _ _, rfl, ?_⟩
  simp only [finish, List.append_assoc]
  exact (List.Perm.swap e f []).append_left s.log

/-! ## Every order -/

theorem settleAt_akin (hT : T.Steady received) {p : ℤ × Settlement} (h : settleAt D T s p = .ok s') :
    Akin s s' := (Settlement.akin hT h).setClock s.clock s'.clock

theorem settleAt_undelegated (hT : T.Steady received) {p : ℤ × Settlement}
    {Q : Pubkey → Pubkey → Prop} (h : settleAt D T s p = .ok s')
    (hQ : Movement.Undelegated Q s.ledger) : Movement.Undelegated Q s'.ledger := by
  obtain ⟨e, he⟩ := Settlement.effect h
  exact Reorder.foldlM_keeps (fun _ _ _ hL hrun ↦ hL.run hT hrun) hQ he.moved

theorem SameBooks.calls (hT : T.Steady received) {ps qs : List (ℤ × Settlement)}
    (hcalls : ps.map Prod.snd = qs.map Prod.snd) (hsu : SameBooks s u)
    (hexp : ∀ q ∈ qs, ∀ info, s.otokenInfos.lookup q.2.series = some info → info.expiry ≤ q.1)
    (h : ps.foldlM (settleAt D T) s = .ok t) :
    ∃ t', qs.foldlM (settleAt D T) u = .ok t' ∧ SameBooks t t' := by
  induction ps generalizing qs s u with
  | nil =>
    rw [List.map_nil, eq_comm, List.map_eq_nil_iff] at hcalls
    rw [List.foldlM_nil, pure_eq_ok] at h
    subst hcalls
    exact ⟨u, rfl, h ▸ hsu⟩
  | cons p ps ih =>
    cases qs with
    | nil => exact absurd hcalls (by simp)
    | cons q qs =>
      obtain ⟨hpq, hrest⟩ := List.cons.inj hcalls
      obtain ⟨w, hw, hps⟩ := Reorder.foldlM_cons_eq_ok.mp h
      obtain ⟨w', hw', hbooks⟩ := hsu.call hw fun info hi ↦
        hexp q List.mem_cons_self info (hpq ▸ hi)
      have hinfos := (settleAt_akin hT hw).otokenInfos
      obtain ⟨t', ht', htt'⟩ := ih hrest hbooks
        (fun r hr info hi ↦ hexp r (List.mem_cons_of_mem q hr) info (hinfos ▸ hi)) hps
      rw [hpq] at hw'
      exact ⟨t', Reorder.foldlM_cons_eq_ok.mpr ⟨w', hw', ht'⟩, htt'⟩

/-- **Settlement does not depend on the order**, or on when the calls are made once their series are
expired: calls that all succeed in one order all succeed in every order, with the same vaults, balances and
supplies at the end. -/
theorem settlement_order_independent (hT : T.Steady received) {ps qs : List (ℤ × Settlement)}
    (hexp : ∀ p ∈ ps, ∀ info,
      s.otokenInfos.lookup p.2.series = some info → info.expiry ≤ s.clock)
    (hlater : ∀ q ∈ qs, s.clock ≤ q.1) (hperm : (ps.map Prod.snd).Perm (qs.map Prod.snd))
    (hind : (ps.map Prod.snd).Pairwise (Settlement.Independent s))
    (h : ps.foldlM (settleAt D T) s = .ok t) :
    ∃ t', qs.foldlM (settleAt D T) s = .ok t' ∧ t'.vaults = t.vaults ∧ t'.ledger = t.ledger ∧
      t'.log.Perm t.log := by
  have hnow : ∀ l : List Settlement, (l.map (s.clock, ·)).map Prod.snd = l := fun l ↦ by
    rw [List.map_map]
    exact List.map_id l
  -- make all calls at once, in the first order
  have hexp' : ∀ p ∈ (ps.map Prod.snd).map (s.clock, ·), ∀ info,
      s.otokenInfos.lookup p.2.series = some info → info.expiry ≤ p.1 := by
    intro q hq info hi
    obtain ⟨c, hc, rfl⟩ := List.mem_map.mp hq
    obtain ⟨p, hp, rfl⟩ := List.mem_map.mp hc
    exact hexp p hp info hi
  obtain ⟨t₁, ht₁, hbooks₁⟩ := SameBooks.calls hT (hnow _).symm (.refl s) hexp' h
  -- reorder them
  have hpairs : ((ps.map Prod.snd).map (s.clock, ·)).Pairwise
      fun p q ↦ Settlement.Independent s p.2 q.2 := List.pairwise_map.mpr hind
  have hkeeps : ∀ u p u', (Akin s u ∧ Movement.Undelegated (Ordinary s.ledger) u.ledger) →
      settleAt D T u p = .ok u' →
      Akin s u' ∧ Movement.Undelegated (Ordinary s.ledger) u'.ledger := fun u p u' hu hp ↦
    ⟨hu.1.trans (settleAt_akin hT hp), settleAt_undelegated hT hp hu.2⟩
  have hrespects : ∀ u v p u', SameBooks u v → settleAt D T u p = .ok u' →
      ∃ v', settleAt D T v p = .ok v' ∧ SameBooks u' v' := by
    intro u v p u' huv hp
    obtain ⟨e, he⟩ := Settlement.effect hp
    exact huv.call hp he.expired
  obtain ⟨t₂, ht₂, hbooks₂⟩ := Reorder.foldlM_perm (fun _ _ hpq ↦ hpq.symm) SameBooks.refl
    (fun _ _ _ ↦ SameBooks.trans) hkeeps hrespects
    (fun u p q v w hu hpq hp hq ↦ Settlement.exchange hT hu.1 hu.2 hpq hp hq)
    (hperm.map (s.clock, ·)) hpairs ⟨.refl s, undelegated_ordinary s.ledger⟩ ht₁
  -- and make them at their own times
  have hexp'' : ∀ q ∈ qs, ∀ info,
      s.otokenInfos.lookup q.2.series = some info → info.expiry ≤ q.1 := by
    intro q hq info hi
    have hmem : q.2 ∈ ps.map Prod.snd := hperm.mem_iff.mpr (List.mem_map_of_mem hq)
    obtain ⟨p, hp, hpq⟩ := List.mem_map.mp hmem
    exact (hexp p hp info (hpq ▸ hi)).trans (hlater q hq)
  obtain ⟨t₃, ht₃, hbooks₃⟩ := SameBooks.calls hT (hnow _) (.refl s) hexp'' ht₂
  have hbooks := (hbooks₁.trans hbooks₂).trans hbooks₃
  exact ⟨t₃, ht₃, hbooks.vaults, hbooks.ledger, hbooks.log⟩

section Sample

/-- User `1` deposits, mints, and the series expires in the money. -/
def samplePriced : List Action :=
  sampleSetup ++ [sampleDeposit 0 12 6, sampleMint 0 300, .tick 100,
    .call (.setExpiryPrice ⟨20, ⟨10, 100, 7, true⟩, 1⟩)]

/-- User `1` redeems oTokens. -/
def sampleRedeem (amount : ℕ) : Settlement :=
  .redeem ⟨20, 20, 31, 11, 12, 10, sampleDeployment.poolVaultAuth 10, 1⟩ amount

/-- The vault is settled out of the same account of the pool. -/
def sampleSettle : Settlement :=
  .settleVault ⟨⟨1, 0⟩, 20, 12, 10, 11, sampleDeployment.poolVaultAuth 10, 1⟩

/-- The vault is settled before its oTokens are redeemed, in two parts. -/
def sampleFirst : List (ℤ × Settlement) :=
  [(100, sampleSettle), (100, sampleRedeem 100), (100, sampleRedeem 200)]

/-- The other way round, and later. -/
def sampleOther : List (ℤ × Settlement) :=
  [(130, sampleRedeem 200), (150, sampleSettle), (140, sampleRedeem 100)]

theorem settlement_order_independent_sample : ∃ t t',
    sampleFirst.foldlM (settleAt sampleDeployment splToken) (sampleRun samplePriced) = .ok t ∧
    sampleOther.foldlM (settleAt sampleDeployment splToken) (sampleRun samplePriced) = .ok t' ∧
    t'.vaults = t.vaults ∧ t'.ledger = t.ledger ∧ t'.log.Perm t.log := by
  obtain ⟨t, ht⟩ := exists_of_isSome
    (x := sampleFirst.foldlM (settleAt sampleDeployment splToken) (sampleRun samplePriced))
    (by decide +kernel)
  have hexp : ∀ p ∈ sampleFirst, ∀ info,
      (sampleRun samplePriced).otokenInfos.lookup p.2.series = some info →
      info.expiry ≤ (sampleRun samplePriced).clock := by
    intro p hp info hi
    have hall : ∀ p ∈ sampleFirst, ((sampleRun samplePriced).otokenInfos.lookup p.2.series).all
        fun info ↦ decide (info.expiry ≤ (sampleRun samplePriced).clock) := by decide +kernel
    have hinfo := hall p hp
    rw [hi, Option.all_some] at hinfo
    exact of_decide_eq_true hinfo
  have hlater : ∀ q ∈ sampleOther, (sampleRun samplePriced).clock ≤ q.1 := by decide +kernel
  have hperm : ([sampleSettle, sampleRedeem 100] ++ [sampleRedeem 200]).Perm
      ([sampleRedeem 200] ++ [sampleSettle, sampleRedeem 100]) := List.perm_append_comm
  obtain ⟨t', ht', heq⟩ := settlement_order_independent splToken_steady hexp hlater hperm
    (by decide +kernel) ht
  exact ⟨t, t', ht, ht', heq⟩

/-- User `1` approves itself for `100` of its oTokens. -/
def sampleApproved : State :=
  { sampleRun samplePriced with
    ledger := { (sampleRun samplePriced).ledger with
      accounts := (sampleRun samplePriced).ledger.accounts.insert 31 ⟨20, 1, 300, some 1, 100⟩ } }

/-- A delegate can redeem `100` before `200`, but not after: the larger amount exceeds the allowance until
that has been used up. -/
theorem settlement_order_matters :
    (∃ tr, Run (Step sampleDeployment splToken) sampleState tr sampleApproved) ∧
    [sampleRedeem 100, sampleRedeem 200].Pairwise (Settlement.Separate sampleApproved) ∧
    (∃ t, [(100, sampleRedeem 100), (100, sampleRedeem 200)].foldlM
      (settleAt sampleDeployment splToken) sampleApproved = .ok t) ∧
    ¬∃ t, [(100, sampleRedeem 200), (100, sampleRedeem 100)].foldlM
      (settleAt sampleDeployment splToken) sampleApproved = .ok t := by
  have hrun : Run (Step sampleDeployment splToken) sampleState (sampleTrace samplePriced)
      (sampleRun samplePriced) := sampleRun_run (by decide +kernel) (by decide +kernel)
  have hone : ¬sampleDeployment.IsControllerPda 1 :=
    sampleDeployment_not_isControllerPda (by decide) (by decide)
  have haccount : (sampleRun samplePriced).ledger.accounts.lookup 31 = some ⟨20, 1, 300, none, 0⟩ := by
    decide +kernel
  refine ⟨⟨_, hrun.snoc (.token (Ledger.Rely.approve 1 100 haccount hone))⟩, by decide +kernel,
    exists_of_isSome (by decide +kernel), ?_⟩
  rintro ⟨t, ht⟩
  have hnone : ([(100, sampleRedeem 200), (100, sampleRedeem 100)].foldlM
      (settleAt sampleDeployment splToken) sampleApproved).toOption.isSome = false := by
    decide +kernel
  rw [ht] at hnone
  exact absurd hnone (by simp [Except.toOption])

end Sample

end Controller

end OptionsProtocol
