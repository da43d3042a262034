import OptionsProtocol.Controller.Pause
import OptionsProtocol.Controller.Replay
import OptionsProtocol.Runtime.System

/-!
# Writing options

An owner opens a vault, deposits collateral and mints against it. In a state that the controller can reach,
each of the three calls succeeds exactly if the accounts passed to it fit: the counter is the owner's own, no
token account overflows, and what a transfer moved is what the pool received. No vault is at the address of the
next one. A counter can be; then the owner opens no more vaults.

Between the calls nobody can touch what was opened. A vault whose owner signs nothing stays as it is, unless
it has minted and its series expires; then it may be settled.
-/

namespace OptionsProtocol

namespace Controller

open Except

variable {D : Deployment} {T : TokenProgram} {s s' s₀ : State} {l : Label} {n : ℕ}
  {tr tr' : List (Transition State Label)} {k : VaultKey} {v : Vault}

/-! ## The numbers of vaults -/

/-- Every counter is stored under its owner, and counts the vaults of the owner. -/
structure Numbered (s : State) : Prop where
  counter : ∀ {o c}, s.vaultCounters.lookup o = some c → c.owner = o
  vault : ∀ {k v}, s.vaults.lookup k = some v → k.vaultId < s.nextIdOf k.owner

theorem Initial.numbered (h : Initial D s) : Numbered s where
  counter hc := by
    rw [h.vaultCounters] at hc
    exact absurd hc (by simp)
  vault hv := by
    rw [h.vaults] at hv
    exact absurd hv (by simp)

theorem counter_of_administrative {ix : Instruction} (h : exec D T ix s = .ok s')
    (hix : ix.IsAdministrative) {o : Pubkey} {c : VaultCounter} (hc : s'.vaultCounters.lookup o = some c) :
    s.vaultCounters.lookup o = some c ∨ c.owner = o := by
  cases ix with
  | initializeCounter owner =>
    simp only [exec, initializeCounter, require_bind_eq_ok, pure_eq_ok] at h
    obtain ⟨-, -, rfl⟩ := h
    rcases Store.lookup_insert_eq_some.mp hc with ⟨rfl, rfl⟩ | ⟨-, hold⟩
    · exact .inr rfl
    · exact .inl hold
  | initializeConfig payer admin =>
    simp only [exec, initializeConfig, require_bind_eq_ok, pure_eq_ok] at h
    obtain ⟨-, -, rfl⟩ := h
    exact .inl hc
  | setPartialPauser _ _ | setPartiallyPaused _ _ =>
    obtain ⟨_, -, h⟩ := bind_eq_ok.mp h
    obtain ⟨-, h⟩ := require_bind_eq_ok.mp h
    rw [pure_eq_ok] at h
    subst h
    exact .inl hc
  | setFullyPaused _ _ =>
    obtain ⟨_, -, h⟩ := bind_eq_ok.mp h
    rw [pure_eq_ok] at h
    subst h
    exact .inl hc
  | _ => exact absurd hix (by simp [Instruction.IsAdministrative])

theorem Step.counter (h : Step D T s l s') (hn : Numbered s) {o : Pubkey} {c : VaultCounter}
    (hc : s'.vaultCounters.lookup o = some c) : c.owner = o := by
  have hmove := h.move
  cases h with
  | token _ | tick _ | createOtoken _ _ => exact hn.counter hc
  | call _ _ hx =>
    cases hmove with
    | administered hix _ => exact (counter_of_administrative hx hix hc).elim hn.counter id
    | opened he =>
      rw [he.state_eq] at hc
      rcases Store.lookup_insert_eq_some.mp hc with ⟨rfl, rfl⟩ | ⟨-, hold⟩
      · rfl
      · exact hn.counter hold
    | deposited _ he | minted he | settled he | redeemed _ he | withdrawn he | registered _ he
    | priced he =>
      rw [he.state_eq] at hc
      exact hn.counter hc

theorem Move.vault_old (h : Move D T s l s') (hl : ∀ o c b, l ≠ .call (.openVault o c b))
    (hv : s'.vaults.lookup k = some v) : ∃ w, s.vaults.lookup k = some w := by
  have hinsert : ∀ {j : VaultKey} {w u : Vault}, s.vaults.lookup j = some w →
      s'.vaults = s.vaults.insert j u → ∃ w, s.vaults.lookup k = some w := by
    intro j w u hw heq
    rw [heq] at hv
    rcases Store.lookup_insert_eq_some.mp hv with ⟨rfl, -⟩ | ⟨-, hold⟩
    · exact ⟨w, hw⟩
    · exact ⟨v, hold⟩
  have hsame : s'.vaults = s.vaults → ∃ w, s.vaults.lookup k = some w := fun heq ↦ ⟨v, by rw [← heq, hv]⟩
  cases h with
  | opened _ => exact absurd rfl (hl _ _ _)
  | administered _ he => exact hsame he.vaults_eq
  | deposited _ he | minted he | settled he | withdrawn he =>
    exact hinsert he.vault_eq (by rw [he.state_eq])
  | redeemed _ he | registered _ he | priced he => exact hsame (by rw [he.state_eq])
  | token _ | tick _ | created _ _ => exact hsame rfl

theorem Step.numbered (h : Step D T s l s') (hn : Numbered s) : Numbered s' := by
  refine ⟨fun hc ↦ h.counter hn hc, fun {k v} hv ↦ ?_⟩
  by_cases hopen : ∃ o c b, l = .call (.openVault o c b)
  · obtain ⟨o, c, b, rfl⟩ := hopen
    cases h.move with
    | administered hix _ => exact absurd hix id
    | @opened _ _ _ id _ he =>
      have hid : s.nextIdOf o = id := by
        rw [State.nextIdOf, he.counter, Option.elim_some]
      rw [he.state_eq] at hv ⊢
      simp only [State.nextIdOf]
      rcases Store.lookup_insert_eq_some.mp hv with ⟨rfl, -⟩ | ⟨-, hold⟩
      · simp
      · have hlt := hn.vault hold
        by_cases hko : k.owner = o
        · rw [hko, hid] at hlt
          rw [hko, Finmap.lookup_insert, Option.elim_some]
          exact hlt.trans (Nat.lt_succ_self id)
        · rw [Finmap.lookup_insert_of_ne _ hko]
          exact hlt
  · have hl : ∀ o c b, l ≠ .call (.openVault o c b) := fun o c b heq ↦ hopen ⟨o, c, b, heq⟩
    obtain ⟨w, hw⟩ := h.move.vault_old hl hv
    rw [h.nextIdOf_eq hl]
    exact hn.vault hw

theorem numbered_of_run (hrun : Run (Step D T) s₀ tr s) (h₀ : Initial D s₀) : Numbered s :=
  hrun.invariant h₀.numbered fun _ _ _ hn hs ↦ hs.numbered hn

/-! ## Opening a vault -/

/-- Open to new business. -/
def State.Open (s : State) : Prop :=
  ∃ c, s.config = some c ∧ c.fullyPaused = false ∧ c.partiallyPaused = false

/-- The owner has a counter, can name a beneficiary, and nobody's counter is where its next vault goes. -/
structure OpenVault.Ready (s : State) (owner beneficiary : Pubkey) : Prop where
  unpaused : s.Open
  counter : ∃ c, s.vaultCounters.lookup owner = some c ∧ c.nextId + 1 < 2 ^ 64 ∧
    ¬s.CounterAt ⟨owner, c.nextId⟩
  beneficiary_ne : beneficiary ≠ Pubkey.default

theorem OpenVault.Ready.succeeds (hn : Numbered s) {owner M beneficiary : Pubkey}
    (h : OpenVault.Ready s owner beneficiary) : ∃ s', openVault owner M beneficiary s = .ok s' := by
  obtain ⟨c, hc, hfull, hpart⟩ := h.unpaused
  obtain ⟨counter, hcounter, hlt, hfree⟩ := h.counter
  have hfresh : s.vaults.lookup ⟨owner, counter.nextId⟩ = none := by
    rw [Option.eq_none_iff_forall_ne_some]
    intro v hv
    have hold := hn.vault hv
    rw [State.nextIdOf, hcounter, Option.elim_some] at hold
    exact lt_irrefl _ hold
  apply Exists.intro
  simp only [openVault, loadConfig, fromOption_bind_eq_ok, require_bind_eq_ok, Checked.add_eq_some]
  exact ⟨c, hc, counter, hcounter, hfresh, hfree, hn.counter hcounter, h.beneficiary_ne, hfull, hpart, _,
    ⟨rfl, hlt⟩, rfl⟩

/-- Where the lamports are. -/
inductive Address where
  | wallet (k : Pubkey)
  | vault (k : VaultKey)
  deriving DecidableEq

/-- The space of a vault. -/
def VAULT_SPACE : ℕ := 8 + 32 + 8 + 32 + 8 + 32 + 8 + 1 + 32 + 1

/-- The owner can pay `n` of the collateral of its vault into an account of the pool. -/
structure DepositCollateral.Ready (D : Deployment) (s : State) (ctx : DepositCollateral) (v : Vault) (n : ℕ) :
    Prop where
  unpaused : s.Open
  vault_eq : s.vaults.lookup ctx.vault = some v
  owner_eq : v.owner = ctx.owner
  unsettled : v.settled = false
  amount_pos : 0 < n
  fits : v.collateralAmount + n < 2 ^ 64
  user : ∃ a, s.ledger.accounts.lookup ctx.userTokenAccount = some a ∧ a.mint = v.collateralMint ∧
    n ≤ a.amount ∧ a.Authorizes ctx.owner n
  pool : ∃ p, s.ledger.accounts.lookup ctx.poolTokenAccount = some p ∧ p.mint = v.collateralMint ∧
    p.owner = D.poolVaultAuth v.collateralMint
  apart : ctx.userTokenAccount ≠ ctx.poolTokenAccount
  mint_key : ctx.collateralMintAccount = v.collateralMint
  authority : ctx.poolVaultAuthority = D.poolVaultAuth v.collateralMint

theorem DepositCollateral.Ready.succeeds (hT : T.Plain) (hlive : T.Live) (hw : WellFormed D s)
    {ctx : DepositCollateral} (h : ctx.Ready D s v n) : ∃ s', depositCollateral D T ctx n s = .ok s' := by
  obtain ⟨c, hc, hfull, hpart⟩ := h.unpaused
  obtain ⟨a, ha, ham, hn, hauth⟩ := h.user
  obtain ⟨p, hp, hpm, hpo⟩ := h.pool
  have hkey := (hw.vault h.vault_eq).key
  rw [h.owner_eq] at hkey
  -- the mint exists and both accounts together hold no more than its supply
  obtain ⟨x, hx, -⟩ := hw.conserved.mint ha (h.amount_pos.trans_le hn)
  rw [ham] at hx
  have hroom : ctx.userTokenAccount ≠ ctx.poolTokenAccount → p.amount + n < 2 ^ 64 := by
    intro hne
    have htwo := Ledger.amount_add_le_circulating ha hp hne ham hpm
    have hsupply := hw.conserved v.collateralMint
    omega
  obtain ⟨L, hL⟩ := Option.isSome_iff_exists.mp (hlive ha hp hx ham hpm rfl hn hauth hroom)
  have ht := hT hL
  obtain ⟨p', hp', -⟩ := ht.kept.some hp
  have hcredit := ht.amount_dst h.apart
  rw [Ledger.amount_eq hp', Ledger.amount_eq hp] at hcredit
  apply Exists.intro
  simp only [depositCollateral, loadConfig, loadVault, loadTokenAccount, loadMint,
    fromOption_bind_eq_ok, require_bind_eq_ok, Checked.add_eq_some, Checked.sub_eq_some]
  exact ⟨c, hc, v, h.vault_eq, a, ha, x, h.mint_key ▸ hx, p, hp, hkey, h.owner_eq, h.mint_key, hpm,
    hpo.trans h.authority.symm, h.authority, hfull, hpart, h.amount_pos, h.unsettled, ham, L,
    h.mint_key ▸ hL, p', hp', n, by omega, rfl, _, ⟨rfl, h.fits⟩, rfl⟩

/-- The vault covers `n` more oTokens of an unexpired series that it is bound to, or to none yet. -/
structure MintOtoken.Ready (D : Deployment) (s : State) (ctx : MintOtoken) (v : Vault) (info : OTokenInfo)
    (n : ℕ) : Prop where
  unpaused : s.Open
  vault_eq : s.vaults.lookup ctx.vault = some v
  owner_eq : v.owner = ctx.owner
  unsettled : v.settled = false
  bound : v.otokenMint = Pubkey.default ∨ v.otokenMint = ctx.otokenMint
  info_eq : s.otokenInfos.lookup ctx.otokenMint = some info
  info_seed : ctx.otokenInfo = ctx.otokenMint
  collateral_eq : info.collateralMint = v.collateralMint
  unexpired : s.clock < info.expiry
  amount_pos : 0 < n
  fits : v.shortAmount + n < 2 ^ 64
  computable : info.Computable (v.shortAmount + n)
  covered : info.required (v.shortAmount + n) ≤ v.collateralAmount
  destination : ∃ b, s.ledger.accounts.lookup ctx.destination = some b ∧ b.mint = ctx.otokenMint
  mint : ∃ x, s.ledger.mints.lookup ctx.otokenMint = some x ∧
    x.mintAuthority = some D.controllerConfig ∧ x.supply + n < 2 ^ 64

theorem MintOtoken.Ready.succeeds (hmint : T.MintLive) (hw : WellFormed D s) {ctx : MintOtoken}
    {info : OTokenInfo} (h : ctx.Ready D s v info n) : ∃ s', mintOtoken D T ctx n s = .ok s' := by
  obtain ⟨c, hc, hfull, hpart⟩ := h.unpaused
  obtain ⟨b, hb, hbm⟩ := h.destination
  obtain ⟨x, hx, hauth, hlt⟩ := h.mint
  obtain ⟨himint, -⟩ := hw.info h.info_eq
  obtain ⟨L, hL⟩ := Option.isSome_iff_exists.mp (hmint hx hb hauth hbm hlt)
  apply Exists.intro
  simp only [mintOtoken, loadConfig, loadVault, loadOtokenInfo, loadTokenAccount, loadMint,
    fromOption_bind_eq_ok, require_bind_eq_ok, Checked.add_eq_some]
  refine ⟨c, hc, v, h.vault_eq, info, h.info_seed ▸ h.info_eq, x, hx, b, hb, h.owner_eq, h.info_seed,
    h.collateral_eq, himint.symm, hbm, hfull, hpart, h.amount_pos, h.unexpired, h.unsettled, h.bound, _,
    ⟨rfl, h.fits⟩, ?_⟩
  rw [bind_eq_ok]
  refine ⟨_, getRequiredCollateral_ok h.computable, ?_⟩
  rw [require_bind_eq_ok, fromOption_bind_eq_ok]
  exact ⟨h.covered, L, hL, rfl⟩

/-- The counter of owner `18` is where the first vault of this owner would go. -/
def sampleClash : State := Run.playState (Action.next sampleDeployment splToken) sampleState
  [.call (.initializeConfig 1 1), .call (.initializeCounter 18),
   .call (.initializeCounter 0x127265746e756f635f)]

example : sampleClash.vaultCounters.lookup 0x127265746e756f635f = some ⟨0x127265746e756f635f, 0⟩ ∧
    sampleClash.CounterAt ⟨0x127265746e756f635f, 0⟩ ∧
    (openVault 0x127265746e756f635f 10 1 sampleClash).toOption.isNone = true := by
  decide +kernel

/-! ## In the meantime -/

/-- The key signed the step. -/
def Label.SignedBy (o : Pubkey) : Label → Prop
  | .call ix => ix.signer = o
  | _ => False

/-- Nobody changes the vault of somebody else, except that it may be settled. -/
theorem Step.vault_of_other (hw : WellFormed D s) (h : Step D T s l s') (hv : s.vaults.lookup k = some v)
    (hl : ¬l.SignedBy k.owner) :
    s'.vaults.lookup k = some v ∨ ∃ ctx info pool ben L, l = .call (.settleVault ctx) ∧ ctx.vault = k ∧
      SettleVault.Effect D T s ctx v info pool ben L s' := by
  have hsame : s'.vaults = s.vaults → s'.vaults.lookup k = some v := fun heq ↦ by rw [heq, hv]
  have hother : ∀ {j : VaultKey} {u : Vault}, k ≠ j → s'.vaults = s.vaults.insert j u →
      s'.vaults.lookup k = some v := by
    intro j u hne heq
    rw [heq, Finmap.lookup_insert_of_ne _ hne, hv]
  -- a vault that its owner must sign for is another one
  have hne : ∀ {j : VaultKey} {w : Vault} {o : Pubkey}, s.vaults.lookup j = some w → w.owner = o →
      ¬o = k.owner → k ≠ j := by
    rintro j w o hw' howner hsigner rfl
    refine hsigner ?_
    rw [(hw.vault hw').key, howner]
  cases h.move with
  | opened he =>
    refine .inl (hother ?_ (by rw [he.state_eq]))
    rintro rfl
    exact hl rfl
  | deposited _ he => exact .inl (hother (hne he.vault_eq he.owner_eq hl) (by rw [he.state_eq]))
  | minted he => exact .inl (hother (hne he.vault_eq he.owner_eq hl) (by rw [he.state_eq]))
  | withdrawn he => exact .inl (hother (hne he.vault_eq he.owner_eq hl) (by rw [he.state_eq]))
  | @settled ctx w info pool ben L _ he =>
    by_cases hk : k = ctx.vault
    · obtain rfl := Option.some.inj (hv.symm.trans (hk ▸ he.vault_eq))
      exact .inr ⟨ctx, info, pool, ben, L, rfl, hk.symm, he⟩
    · exact .inl (hother hk (by rw [he.state_eq]))
  | administered _ he => exact .inl (hsame he.vaults_eq)
  | redeemed _ he | registered _ he | priced he => exact .inl (hsame (by rw [he.state_eq]))
  | token _ | tick _ | created _ _ => exact .inl (hsame rfl)

/-- The vault was settled in the transition, as it is. -/
def SettledIn (D : Deployment) (T : TokenProgram) (k : VaultKey) (v : Vault)
    (t : Transition State Label) : Prop :=
  ∃ ctx info pool ben L, t.label = .call (.settleVault ctx) ∧ ctx.vault = k ∧
    SettleVault.Effect D T t.pre ctx v info pool ben L t.post

theorem vault_of_others (hrun : Run (Step D T) s tr s') (hw : WellFormed D s)
    (hv : s.vaults.lookup k = some v) (hl : ∀ t ∈ tr, ¬t.label.SignedBy k.owner) :
    s'.vaults.lookup k = some v ∨
      s'.vaults.lookup k = some { v with settled := true } ∧ ∃ t ∈ tr, SettledIn D T k v t := by
  induction hrun with
  | nil => exact .inl hv
  | @snoc tr u u' l hr hs ih =>
    have hu : WellFormed D u := hr.invariant hw fun _ _ _ hw hs ↦ hs.move.wellFormed hw
    have hlast := hl ⟨u, l, u'⟩ (List.mem_append_right _ (List.mem_singleton_self _))
    rcases ih fun t ht ↦ hl t (List.mem_append_left _ ht) with hold | ⟨hset, t, ht, hsettled⟩
    · rcases hs.vault_of_other hu hold hlast with hsame | ⟨ctx, info, pool, ben, L, rfl, hk, he⟩
      · exact .inl hsame
      · refine .inr ⟨?_, _, List.mem_append_right _ (List.mem_singleton_self _), ctx, info, pool, ben, L,
          rfl, hk, he⟩
        rw [he.state_eq, ← hk, Finmap.lookup_insert]
    · rcases hs.vault_of_other hu hset hlast with hsame | ⟨_, _, _, _, _, -, -, he⟩
      · exact .inr ⟨hsame, t, List.mem_append_left _ ht, hsettled⟩
      · exact absurd he.unsettled (by simp)

theorem info_of_run (hrun : Run (Step D T) s tr s') {o : Pubkey} {info : OTokenInfo}
    (hi : s.otokenInfos.lookup o = some info) :
    ∃ info', s'.otokenInfos.lookup o = some info' ∧ info.Later info' ∧ info'.expiry = info.expiry := by
  obtain ⟨info', hi', hlater⟩ : ∃ info', s'.otokenInfos.lookup o = some info' ∧ info.Later info' := by
    refine hrun.invariant (I := fun u ↦ ∃ i, u.otokenInfos.lookup o = some i ∧ info.Later i)
      ⟨info, hi, .refl info⟩ ?_
    rintro u l u' ⟨i, hi, hlater⟩ hs
    obtain ⟨j, hj, hlater'⟩ := hs.move.info_later hi
    exact ⟨j, hj, hlater.trans hlater'⟩
  refine ⟨info', hi', hlater, ?_⟩
  rcases hlater with rfl | ⟨-, p, -, rfl⟩ <;> rfl

theorem SettledIn.expired {t : Transition State Label} (h : SettledIn D T k v t)
    (hrun : Run (Step D T) s tr s') (ht : t ∈ tr) {o : Pubkey} {info : OTokenInfo}
    (hi : s.otokenInfos.lookup o = some info) (ho : v.otokenMint = o) : info.expiry ≤ s'.clock := by
  obtain ⟨ctx, info', pool, ben, L, -, -, he⟩ := h
  obtain ⟨as, bs, rfl⟩ := List.append_of_mem ht
  obtain ⟨hbefore, hstep, hafter⟩ := hrun.split
  obtain ⟨info₁, hi₁, -, hexpiry⟩ := info_of_run hbefore hi
  obtain rfl := Option.some.inj (hi₁.symm.trans (ho ▸ he.info_eq))
  have hclock : t.post.clock ≤ s'.clock :=
    hafter.invariant (I := fun u ↦ t.post.clock ≤ u.clock) le_rfl
      fun _ _ _ hle hs ↦ hle.trans hs.move.clock_le
  calc info.expiry = info₁.expiry := hexpiry.symm
    _ ≤ t.pre.clock := he.expired
    _ ≤ t.post.clock := hstep.move.clock_le
    _ ≤ s'.clock := hclock

/-- **Nobody gets in the way of an owner.** As long as the owner signs nothing, whatever others do: its
vault stays as it is, or is settled as it is, which pays the beneficiary; the number of its next vault
stays; and a mint it was ready for still goes through before the series expires, if the controller is open,
the account for the oTokens is there and the supply leaves room. -/
theorem vault_left_alone (hmint : T.MintLive) (hrun : Run (Step D T) s₀ tr s) (h₀ : Initial D s₀)
    (hrun' : Run (Step D T) s tr' s') (hv : s.vaults.lookup k = some v)
    (hl : ∀ t ∈ tr', ¬t.label.SignedBy k.owner) :
    (s'.vaults.lookup k = some v ∨
      s'.vaults.lookup k = some { v with settled := true } ∧ ∃ t ∈ tr', SettledIn D T k v t) ∧
    s'.nextIdOf k.owner = s.nextIdOf k.owner ∧
    ∀ ctx info n, MintOtoken.Ready D s ctx v info n → ctx.vault = k → s'.Open →
      s'.clock < info.expiry →
      (∃ b, s'.ledger.accounts.lookup ctx.destination = some b ∧ b.mint = ctx.otokenMint) →
      s'.ledger.supply ctx.otokenMint + n < 2 ^ 64 → ∃ u, mintOtoken D T ctx n s' = .ok u := by
  have hw := wellFormed_of_run hrun h₀
  have hw' : WellFormed D s' := hrun'.invariant hw fun _ _ _ hw hs ↦ hs.move.wellFormed hw
  have hvault := vault_of_others hrun' hw hv hl
  refine ⟨hvault, ?_, ?_⟩
  · refine Run.invariant_of (I := fun u ↦ u.nextIdOf k.owner = s.nextIdOf k.owner)
      (Q := fun t ↦ ¬t.label.SignedBy k.owner) rfl ?_ hrun' hl
    intro u l u' hu hs hsigner
    by_cases hopen : ∃ o c b, l = .call (.openVault o c b)
    · obtain ⟨o, c, b, rfl⟩ := hopen
      cases hs.move with
      | administered hix _ => exact absurd hix id
      | opened he =>
        rw [← hu, he.state_eq]
        simp only [State.nextIdOf]
        rw [Finmap.lookup_insert_of_ne _ (Ne.symm hsigner : k.owner ≠ o)]
    · rw [hs.nextIdOf_eq fun o c b heq ↦ hopen ⟨o, c, b, heq⟩]
      exact hu
  · rintro ctx info n hready rfl hopen hclock hdest hroom
    obtain ⟨-, ho, -⟩ := hw.info hready.info_eq
    have hv' : s'.vaults.lookup ctx.vault = some v := by
      rcases hvault with hsame | ⟨-, t, ht, hsettled⟩
      · exact hsame
      · have hbound : v.otokenMint = ctx.otokenMint := by
          obtain ⟨_, _, _, _, _, -, -, he⟩ := id hsettled
          refine hready.bound.resolve_left ((hw.vault hv).bound.mpr he.short_pos)
        have hexpired := hsettled.expired hrun' ht hready.info_eq hbound
        omega
    obtain ⟨info', hi', hlater, hexpiry⟩ := info_of_run hrun' hready.info_eq
    obtain ⟨x, hx, hauth, -⟩ := hready.mint
    obtain ⟨x', hx', hauth'⟩ : Issued D ctx.otokenMint s'.ledger :=
      hrun'.invariant (I := fun u ↦ Issued D ctx.otokenMint u.ledger) ⟨x, hx, hauth⟩
        fun _ _ _ hi hs ↦ hs.move.issued ho hi
    rw [Ledger.supply_eq hx'] at hroom
    obtain ⟨-, hcm, hrequired, hcomputable⟩ := hlater.terms
    have hready' : MintOtoken.Ready D s' ctx v info' n := { hready with
      unpaused := hopen
      vault_eq := hv'
      info_eq := hi'
      collateral_eq := hcm.trans hready.collateral_eq
      unexpired := by rwa [hexpiry]
      computable := by rw [hcomputable]; exact hready.computable
      covered := by rw [hrequired]; exact hready.covered
      destination := hdest
      mint := ⟨x', hx', hauth', hroom⟩ }
    exact hready'.succeeds hmint hw'

/-- User `1` has funded its vault and waits; another one opens an account. -/
def sampleWaiting : List Action := [.openAccount 99 10 2, .tick 50]

theorem vault_left_alone_sample : ∃ u, mintOtoken sampleDeployment splToken ⟨⟨1, 0⟩, 20, 20, 31, 1⟩ 200
    (Run.playState (Action.next sampleDeployment splToken)
      (sampleRun (sampleSetup ++ [sampleDeposit 0 12 8])) sampleWaiting) = .ok u := by
  have hrun : Run (Step sampleDeployment splToken) sampleState
      (sampleTrace (sampleSetup ++ [sampleDeposit 0 12 8]))
      (sampleRun (sampleSetup ++ [sampleDeposit 0 12 8])) :=
    sampleRun_run (by decide +kernel) (by decide +kernel)
  have hall : sampleWaiting.all Action.bySampleUser = true := by decide +kernel
  have hrun' : Run (Step sampleDeployment splToken) (sampleRun (sampleSetup ++ [sampleDeposit 0 12 8]))
      (Run.playTrace (Action.next sampleDeployment splToken) Action.label
        (sampleRun (sampleSetup ++ [sampleDeposit 0 12 8])) sampleWaiting)
      (Run.playState (Action.next sampleDeployment splToken)
        (sampleRun (sampleSetup ++ [sampleDeposit 0 12 8])) sampleWaiting) :=
    run_of_script (fun a h ↦ Action.allowed_of_bySampleUser (List.all_eq_true.mp hall a h))
      (by decide +kernel)
  have hvault : (sampleRun (sampleSetup ++ [sampleDeposit 0 12 8])).vaults.lookup ⟨1, 0⟩ =
      some ⟨1, 0, 10, 8, Pubkey.default, 0, false, 1⟩ := by decide +kernel
  have hunsigned : ∀ a ∈ sampleWaiting, ¬a.label.SignedBy 1 := by
    simp [sampleWaiting, Action.label, Label.SignedBy]
  obtain ⟨-, -, hmint⟩ := vault_left_alone splToken_mintLive hrun sampleState_initial hrun' hvault
    fun _ ↦ Run.label_of_mem_playTrace (P := fun l : Label ↦ ¬l.SignedBy 1) _ _ hunsigned
  refine hmint ⟨⟨1, 0⟩, 20, 20, 31, 1⟩ ⟨20, 10, 15, 10, 5, 100, false, 6, 0⟩ 200 ?_ rfl
    ⟨⟨1, 0, false, false⟩, by decide +kernel, rfl, rfl⟩ (by decide +kernel)
    ⟨⟨20, 1, 0, none, 0⟩, by decide +kernel, rfl⟩ (by decide +kernel)
  exact {
    unpaused := ⟨⟨1, 0, false, false⟩, by decide +kernel, rfl, rfl⟩
    vault_eq := hvault
    owner_eq := rfl
    unsettled := rfl
    bound := .inl rfl
    info_eq := by decide +kernel
    info_seed := rfl
    collateral_eq := rfl
    unexpired := by decide +kernel
    amount_pos := by decide
    fits := by decide
    computable := Or.inl (by decide)
    covered := by decide
    destination := ⟨⟨20, 1, 0, none, 0⟩, by decide +kernel, rfl⟩
    mint := ⟨⟨some sampleDeployment.controllerConfig, 0, 8⟩, by decide +kernel, rfl, by decide⟩ }

end Controller

end OptionsProtocol
