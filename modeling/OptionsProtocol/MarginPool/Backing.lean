import OptionsProtocol.Library.Trace
import OptionsProtocol.MarginPool.Instructions
import OptionsProtocol.Runtime.Spl

/-!
# What stands behind a pool vault

A pool vault records what was deposited and not paid out, and pays out up to that. Its account should hold at
least as much, whatever else happens to it.

A payment out takes no more than the record loses. A payment in adds what was asked for to the record, and to
the account what the token program credits, so that a mint whose transfers withhold a fee leaves the record
ahead of the account. The account is found by its address alone: an empty one that is closed and opened again
under another owner goes on counting as the vault's. Where deposits arrive in full, in an account the vault
authority still owns, the record is covered in every state.
-/

namespace OptionsProtocol

namespace MarginPool

open Except

variable {T : TokenProgram} {auth : Pubkey → Pubkey} {s s' s₀ : State}

/-! ## What a successful instruction establishes -/

structure TransferToPool.Effect (T : TokenProgram) (s : State) (ctx : TransferToPool) (n : ℕ)
    (v : PoolVault) (L : Ledger) (s' : State) : Prop where
  vault_eq : s.poolVaults.lookup ctx.poolVault = some v
  mint_eq : ctx.poolVault = v.collateralMint
  transfer : ∃ d, T.transferChecked s.ledger ctx.userTokenAccount ctx.collateralMint v.tokenAccount
    ctx.userAuthority n d = some L
  collateralMint_eq : ctx.collateralMint = v.collateralMint
  state_eq : s' = { s with
    ledger := L
    poolVaults := s.poolVaults.insert ctx.poolVault
      { v with totalDeposited := v.totalDeposited + n } }

theorem transferToPool_effect {ctx : TransferToPool} {n : ℕ} (h : transferToPool T ctx n s = .ok s') :
    ∃ v L, TransferToPool.Effect T s ctx n v L s' := by
  simp only [transferToPool, loadConfig, loadPoolVault, loadTokenAccount, loadMint,
    fromOption_bind_eq_ok, require_bind_eq_ok, Checked.add_eq_some, pure_eq_ok] at h
  obtain ⟨_, -, v, hv, _, -, _, -, _, -, hkey, -, hmint, -, L, hL, _, ⟨rfl, -⟩, rfl⟩ := h
  exact ⟨v, L, hv, hkey, ⟨_, hL⟩, hmint, rfl⟩

structure TransferToUser.Effect (T : TokenProgram) (auth : Pubkey → Pubkey) (s : State)
    (ctx : TransferToUser) (n : ℕ) (v : PoolVault) (L : Ledger) (s' : State) : Prop where
  vault_eq : s.poolVaults.lookup ctx.poolVault = some v
  mint_eq : ctx.poolVault = v.collateralMint
  covered : n ≤ v.totalDeposited
  transfer : ∃ d, T.transferChecked s.ledger v.tokenAccount ctx.collateralMint ctx.userTokenAccount
    (auth v.collateralMint) n d = some L
  collateralMint_eq : ctx.collateralMint = v.collateralMint
  state_eq : s' = { s with
    ledger := L
    poolVaults := s.poolVaults.insert ctx.poolVault
      { v with totalDeposited := v.totalDeposited - n } }

theorem transferToUser_effect {ctx : TransferToUser} {n : ℕ}
    (h : transferToUser T auth ctx n s = .ok s') :
    ∃ v L, TransferToUser.Effect T auth s ctx n v L s' := by
  simp only [transferToUser, loadConfig, loadPoolVault, loadTokenAccount, loadMint,
    fromOption_bind_eq_ok, require_bind_eq_ok, Checked.sub_eq_some, pure_eq_ok] at h
  obtain ⟨_, -, v, hv, _, -, _, -, _, -, -, hkey, -, hmint, -, hle, L, hL, left, hleft, rfl⟩ := h
  obtain rfl : left = v.totalDeposited - n := by omega
  exact ⟨v, L, hv, hkey, hle, ⟨_, hL⟩, hmint, rfl⟩

theorem createPoolVault_eq_ok {ctx : CreatePoolVault} (h : createPoolVault auth ctx s = .ok s') :
    s' = { s with
      poolVaults := s.poolVaults.insert ctx.collateralMint
        ⟨ctx.collateralMint, ctx.vaultTokenAccount, 0⟩ } := by
  simp only [createPoolVault, loadConfig, loadTokenAccount, loadMint, fromOption_bind_eq_ok,
    require_bind_eq_ok, pure_eq_ok] at h
  obtain ⟨_, -, _, -, _, -, -, -, -, -, rfl⟩ := h
  rfl

/-- The instruction sets something other than a vault. -/
def Instruction.IsAdministrative : Instruction → Prop
  | .createPoolVault _ | .transferToPool .. | .transferToUser .. => False
  | _ => True

theorem kept_of_exec {ix : Instruction} (h : exec T auth ix s = .ok s') (hix : ix.IsAdministrative) :
    s'.ledger = s.ledger ∧ s'.poolVaults = s.poolVaults := by
  cases ix with
  | initializeConfig admin controller operator yieldRecipient =>
    simp only [exec, initializeConfig, require_bind_eq_ok, pure_eq_ok] at h
    obtain ⟨-, -, rfl⟩ := h
    exact ⟨rfl, rfl⟩
  | setController admin newController =>
    obtain ⟨_, -, h⟩ := bind_eq_ok.mp h
    obtain ⟨-, h⟩ := require_bind_eq_ok.mp h
    rw [pure_eq_ok] at h
    subst h
    exact ⟨rfl, rfl⟩
  | setOperator admin operator =>
    obtain ⟨_, -, h⟩ := bind_eq_ok.mp h
    obtain ⟨-, h⟩ := require_bind_eq_ok.mp h
    rw [pure_eq_ok] at h
    subst h
    exact ⟨rfl, rfl⟩
  | setYieldRecipient admin recipient =>
    obtain ⟨_, -, h⟩ := bind_eq_ok.mp h
    obtain ⟨-, h⟩ := require_bind_eq_ok.mp h
    rw [pure_eq_ok] at h
    subst h
    exact ⟨rfl, rfl⟩
  | createPoolVault _ => exact hix.elim
  | transferToPool _ _ => exact hix.elim
  | transferToUser _ _ => exact hix.elim

/-! ## The pool as a transition system -/

inductive Label where
  | call (ix : Instruction)
  | token

/-- The addresses the pool signs for. -/
def IsVaultAuthority (auth : Pubkey → Pubkey) (k : Pubkey) : Prop := ∃ m, k = auth m

/-- One step: an instruction, or somebody else's use of the token program. -/
inductive Step (T : TokenProgram) (auth : Pubkey → Pubkey) : State → Label → State → Prop
  | call {s s' : State} {ix : Instruction} (hsigner : ¬IsVaultAuthority auth ix.signer)
      (h : exec T auth ix s = .ok s') : Step T auth s (.call ix) s'
  | token {s : State} {L : Ledger}
      (h : s.ledger.Rely (IsVaultAuthority auth) (fun _ ↦ False) L) :
      Step T auth s .token { s with ledger := L }

/-- The pool starts without accounts of its own, on a ledger with an ordinary history. -/
structure Initial (auth : Pubkey → Pubkey) (s : State) : Prop where
  config : s.config = none
  poolVaults : s.poolVaults = ∅
  conserved : s.ledger.Conserved
  undelegated : s.ledger.Undelegated (IsVaultAuthority auth)

variable {l : Label} {tr : List (Transition State Label)}

/-! ## Invariants -/

/-- Vaults are kept under their mint, and nobody can be handed an allowance over their accounts. -/
structure WellFormed (auth : Pubkey → Pubkey) (s : State) : Prop where
  key : ∀ m v, s.poolVaults.lookup m = some v → v.collateralMint = m
  conserved : s.ledger.Conserved
  undelegated : s.ledger.Undelegated (IsVaultAuthority auth)

theorem Initial.wellFormed (h : Initial auth s) : WellFormed auth s where
  key m v hv := by
    rw [h.poolVaults, Finmap.lookup_empty] at hv
    exact absurd hv (by simp)
  conserved := h.conserved
  undelegated := h.undelegated

theorem WellFormed.insert (h : WellFormed auth s) {L : Ledger} {m : Pubkey} {v : PoolVault}
    (hm : v.collateralMint = m) (hc : L.Conserved) (hu : L.Undelegated (IsVaultAuthority auth)) :
    WellFormed auth { s with ledger := L, poolVaults := s.poolVaults.insert m v } where
  key m' v' hv' := by
    rcases Store.lookup_insert_eq_some.mp hv' with ⟨rfl, rfl⟩ | ⟨-, hv'⟩
    · exact hm
    · exact h.key m' v' hv'
  conserved := hc
  undelegated := hu

theorem Step.wellFormed (h : Step T auth s l s') (hw : WellFormed auth s) : WellFormed auth s' := by
  cases h with
  | token h => exact ⟨hw.key, h.conserved hw.conserved, h.undelegated hw.undelegated⟩
  | @call _ ix hsigner h =>
    cases ix with
    | createPoolVault ctx =>
      rw [createPoolVault_eq_ok h]
      exact hw.insert rfl hw.conserved hw.undelegated
    | transferToPool ctx n =>
      obtain ⟨v, L, he⟩ := transferToPool_effect h
      obtain ⟨d, ht⟩ := he.transfer
      obtain ⟨r, hr⟩ := T.transferChecked_spec ht
      rw [he.state_eq]
      exact hw.insert he.mint_eq.symm (hr.conserved hw.conserved) (hr.kept.undelegated hw.undelegated)
    | transferToUser ctx n =>
      obtain ⟨v, L, he⟩ := transferToUser_effect h
      obtain ⟨d, ht⟩ := he.transfer
      obtain ⟨r, hr⟩ := T.transferChecked_spec ht
      rw [he.state_eq]
      exact hw.insert he.mint_eq.symm (hr.conserved hw.conserved) (hr.kept.undelegated hw.undelegated)
    | _ =>
      obtain ⟨hledger, hvaults⟩ := kept_of_exec h trivial
      exact ⟨by rw [hvaults]; exact hw.key, by rw [hledger]; exact hw.conserved,
        by rw [hledger]; exact hw.undelegated⟩

theorem wellFormed_of_run (hrun : Run (Step T auth) s₀ tr s) (h₀ : Initial auth s₀) :
    WellFormed auth s :=
  Run.invariant h₀.wellFormed (fun _ _ _ hw hs ↦ hs.wellFormed hw) hrun

/-! ## Backing -/

/-- Where a vault records a deposit, its account is the authority's and holds as much. -/
def PoolVault.Backed (auth : Pubkey → Pubkey) (L : Ledger) (v : PoolVault) : Prop :=
  0 < v.totalDeposited → ∃ a, L.accounts.lookup v.tokenAccount = some a ∧
    a.mint = v.collateralMint ∧ a.owner = auth v.collateralMint ∧ v.totalDeposited ≤ a.amount

section Backed

variable {L L' : Ledger} {v : PoolVault}

theorem PoolVault.Backed.le_amount (h : v.Backed auth L) :
    v.totalDeposited ≤ L.amount v.tokenAccount := by
  rcases Nat.eq_zero_or_pos v.totalDeposited with hzero | hpos
  · rw [hzero]
    exact Nat.zero_le _
  · obtain ⟨a, ha, -, -, hle⟩ := h hpos
    rwa [Ledger.amount_eq ha]

theorem PoolVault.Backed.rely (h : v.Backed auth L)
    (hu : L.Undelegated (IsVaultAuthority auth))
    (hr : L.Rely (IsVaultAuthority auth) (fun _ ↦ False) L') : v.Backed auth L' := by
  intro hpos
  obtain ⟨a, ha, hm, ho, hle⟩ := h hpos
  have hauth : IsVaultAuthority auth a.owner := ⟨_, ho⟩
  obtain ⟨a', ha', hm', ho', hle'⟩ := hr.account ha hauth (hu _ _ ha hauth) (hpos.trans_le hle)
  exact ⟨a', ha', hm'.trans hm, ho'.trans ho, hle.trans hle'⟩

theorem PoolVault.Backed.transferred (h : v.Backed auth L) {src mint dst k : Pubkey} {n r : ℕ}
    (ht : L.Transferred L' src mint dst k n r) (hne : v.collateralMint ≠ mint) : v.Backed auth L' := by
  intro hpos
  obtain ⟨a, ha, hm, ho, hle⟩ := h hpos
  obtain ⟨b, c, hb, hc, hmb, hmc, -⟩ := ht.cases
  have hsrc : v.tokenAccount ≠ src := by
    intro heq
    rw [heq, hb, Option.some.injEq] at ha
    exact hne (by rw [← hm, ← ha, hmb])
  have hdst : v.tokenAccount ≠ dst := by
    intro heq
    rw [heq, hc, Option.some.injEq] at ha
    exact hne (by rw [← hm, ← ha, hmc])
  obtain ⟨a', ha', hm', ho', -⟩ := ht.kept.some ha
  refine ⟨a', ha', hm'.trans hm, ho'.trans ho, ?_⟩
  have hkept := ht.le_amount hsrc
  rw [Ledger.amount_eq ha, Ledger.amount_eq ha'] at hkept
  exact hle.trans hkept

theorem PoolVault.Backed.paidIn (h : v.Backed auth L) {src k : Pubkey} {n r : ℕ}
    (ht : L.Transferred L' src v.collateralMint v.tokenAccount k n r)
    (hown : L.Owns (auth v.collateralMint) v.tokenAccount)
    (hfull : L'.amount v.tokenAccount = L.amount v.tokenAccount + n) :
    PoolVault.Backed auth L' { v with totalDeposited := v.totalDeposited + n } := by
  intro _
  obtain ⟨a, ha, ho⟩ := hown
  obtain ⟨-, b, -, hb, -, hm, -⟩ := ht.cases
  obtain rfl : a = b := Option.some.inj (ha.symm.trans hb)
  obtain ⟨a', ha', hm', ho', -⟩ := ht.kept.some ha
  have hle := h.le_amount
  have hamount : a'.amount = L.amount v.tokenAccount + n := by rw [← hfull, Ledger.amount_eq ha']
  refine ⟨a', ha', hm'.trans hm, ho'.trans ho, ?_⟩
  show v.totalDeposited + n ≤ a'.amount
  omega

theorem PoolVault.Backed.paidOut (h : v.Backed auth L) {dst k : Pubkey} {n r : ℕ}
    (ht : L.Transferred L' v.tokenAccount v.collateralMint dst k n r) :
    PoolVault.Backed auth L' { v with totalDeposited := v.totalDeposited - n } := by
  intro hleft
  have hpos : 0 < v.totalDeposited := Nat.pos_of_ne_zero fun hzero ↦ by simp [hzero] at hleft
  obtain ⟨a, ha, hm, ho, hle⟩ := h hpos
  obtain ⟨a', ha', hm', ho', -⟩ := ht.kept.some ha
  refine ⟨a', ha', hm'.trans hm, ho'.trans ho, ?_⟩
  show v.totalDeposited - n ≤ a'.amount
  have hlost : L.amount v.tokenAccount ≤ L'.amount v.tokenAccount + n := ht.amount_src_le
  rw [Ledger.amount_eq ha, Ledger.amount_eq ha'] at hlost
  omega

end Backed

/-- Every vault is backed. -/
def State.Backed (auth : Pubkey → Pubkey) (s : State) : Prop :=
  ∀ m v, s.poolVaults.lookup m = some v → v.Backed auth s.ledger

theorem State.Backed.transferred (hb : s.Backed auth) (hw : WellFormed auth s) {L : Ledger}
    {src m dst k : Pubkey} {n r : ℕ} {v : PoolVault} (ht : s.ledger.Transferred L src m dst k n r)
    (hv : v.Backed auth L) :
    State.Backed auth { s with ledger := L, poolVaults := s.poolVaults.insert m v } := by
  intro m' v' hv'
  rcases Store.lookup_insert_eq_some.mp hv' with ⟨rfl, rfl⟩ | ⟨hne, hv'⟩
  · exact hv
  · exact (hb m' v' hv').transferred ht (hw.key m' v' hv' ▸ hne)

/-- A deposit is made into an account the vault authority owns, and the token program credits it in full. -/
def DepositsInFull (T : TokenProgram) (auth : Pubkey → Pubkey) (t : Transition State Label) : Prop :=
  ∀ ctx n, t.label = .call (.transferToPool ctx n) →
    ∀ v, t.pre.poolVaults.lookup ctx.poolVault = some v →
      t.pre.ledger.Owns (auth v.collateralMint) v.tokenAccount ∧
      ∀ L d, T.transferChecked t.pre.ledger ctx.userTokenAccount ctx.collateralMint v.tokenAccount
          ctx.userAuthority n d = some L →
        L.amount v.tokenAccount = t.pre.ledger.amount v.tokenAccount + n

theorem Step.backed (h : Step T auth s l s') (hw : WellFormed auth s) (hb : s.Backed auth)
    (hfull : DepositsInFull T auth ⟨s, l, s'⟩) : s'.Backed auth := by
  cases h with
  | token h => exact fun m v hv ↦ (hb m v hv).rely hw.undelegated h
  | @call _ ix hsigner h =>
    cases ix with
    | createPoolVault ctx =>
      rw [createPoolVault_eq_ok h]
      intro m v hv
      rcases Store.lookup_insert_eq_some.mp hv with ⟨-, rfl⟩ | ⟨-, hv⟩
      · -- nothing is recorded yet
        exact fun hpos ↦ absurd hpos (Nat.lt_irrefl 0)
      · exact hb m v hv
    | transferToPool ctx n =>
      obtain ⟨v, L, he⟩ := transferToPool_effect h
      obtain ⟨d, ht⟩ := he.transfer
      obtain ⟨hown, hcredit⟩ := hfull ctx n rfl v he.vault_eq
      have hgain := hcredit L d ht
      obtain ⟨r, hr⟩ := T.transferChecked_spec ht
      rw [he.collateralMint_eq] at hr
      rw [he.state_eq, he.mint_eq]
      exact hb.transferred hw hr ((hb _ _ he.vault_eq).paidIn hr hown hgain)
    | transferToUser ctx n =>
      obtain ⟨v, L, he⟩ := transferToUser_effect h
      obtain ⟨d, ht⟩ := he.transfer
      obtain ⟨r, hr⟩ := T.transferChecked_spec ht
      rw [he.collateralMint_eq] at hr
      rw [he.state_eq, he.mint_eq]
      exact hb.transferred hw hr ((hb _ _ he.vault_eq).paidOut hr)
    | _ =>
      obtain ⟨hledger, hvaults⟩ := kept_of_exec h trivial
      intro m v hv
      rw [hledger]
      exact hb m v (hvaults ▸ hv)

/-! ## What can be paid out -/

/-- A withdrawal that passes every check of the program. -/
structure TransferToUser.Admitted (s : State) (ctx : TransferToUser) (n : ℕ) (v : PoolVault) : Prop where
  config : ∃ config, s.config = some config ∧ config.admin = ctx.admin
  vault_eq : s.poolVaults.lookup ctx.poolVault = some v
  mint_eq : ctx.collateralMint = ctx.poolVault
  user : ∃ b, s.ledger.accounts.lookup ctx.userTokenAccount = some b ∧ b.mint = ctx.poolVault
  amount_pos : 0 < n
  covered : n ≤ v.totalDeposited

theorem TransferToUser.Admitted.succeeds {ctx : TransferToUser} {n : ℕ} {v : PoolVault}
    (h : ctx.Admitted s n v) (hlive : T.Live) (hw : WellFormed auth s)
    (hb : v.Backed auth s.ledger) : ∃ s', transferToUser T auth ctx n s = .ok s' := by
  obtain ⟨config, hconfig, hadmin⟩ := h.config
  obtain ⟨b, hbk, hbm⟩ := h.user
  have hkey : v.collateralMint = ctx.poolVault := hw.key _ _ h.vault_eq
  obtain ⟨a, ha, hm, ho, hle⟩ := hb (h.amount_pos.trans_le h.covered)
  have hheld : n ≤ a.amount := h.covered.trans hle
  obtain ⟨x, hx, -⟩ := hw.conserved.mint ha (h.amount_pos.trans_le hheld)
  have hnone : a.delegate = none := hw.undelegated _ _ ha ⟨_, ho⟩
  have hauth : a.Authorizes (auth v.collateralMint) n := by
    rw [← ho]
    exact TokenAccount.authorizes_owner hnone
  -- both accounts hold parts of one 64-bit supply
  have hfit : v.tokenAccount ≠ ctx.userTokenAccount → b.amount + n < 2 ^ 64 := by
    intro hne
    have hsum := Ledger.amount_add_le_circulating ha hbk hne (hm.trans hkey) hbm
    have hsupply := hw.conserved ctx.poolVault
    omega
  rw [hm, hkey] at hx
  obtain ⟨L, hL⟩ := Option.isSome_iff_exists.mp
    (hlive (d := x.decimals) ha hbk hx (hm.trans hkey) hbm rfl hheld hauth hfit)
  refine ⟨{ s with
    ledger := L
    poolVaults := s.poolVaults.insert ctx.poolVault
      { v with totalDeposited := v.totalDeposited - n } }, ?_⟩
  simp only [transferToUser, loadConfig, loadPoolVault, loadTokenAccount, loadMint,
    fromOption_bind_eq_ok, require_bind_eq_ok, Checked.sub_eq_some, pure_eq_ok]
  exact ⟨config, hconfig, v, h.vault_eq, a, ha, b, hbk, x, by rw [h.mint_eq, hx], hadmin, hkey.symm,
    hbm.trans hkey.symm, h.mint_eq.trans hkey.symm, h.amount_pos, h.covered, L, by rw [h.mint_eq, hL],
    _, (Nat.add_sub_of_le h.covered).symm, rfl⟩

/-- **The record of a vault is covered** in every state of a run whose deposits arrive in full, and every
withdrawal up to it can be paid. -/
theorem balance_covers_deposits (hrun : Run (Step T auth) s₀ tr s) (h₀ : Initial auth s₀)
    (hfull : ∀ t ∈ tr, DepositsInFull T auth t) :
    (∀ m v, s.poolVaults.lookup m = some v →
      v.totalDeposited ≤ s.ledger.amount v.tokenAccount) ∧
    (T.Live → ∀ ctx n v, TransferToUser.Admitted s ctx n v →
      ∃ s', transferToUser T auth ctx n s = .ok s') := by
  have hinv : WellFormed auth s ∧ s.Backed auth := by
    refine Run.invariant_of (I := fun s ↦ WellFormed auth s ∧ s.Backed auth) ?_ ?_ hrun hfull
    · refine ⟨h₀.wellFormed, fun m v hv ↦ ?_⟩
      rw [h₀.poolVaults, Finmap.lookup_empty] at hv
      exact absurd hv (by simp)
    · rintro u m u' ⟨hw, hb⟩ hs hQ
      exact ⟨hs.wellFormed hw, hs.backed hw hb hQ⟩
  constructor
  · intro m v hv
    exact (hinv.2 m v hv).le_amount
  · intro hlive ctx n v h
    exact h.succeeds hlive hinv.1 (hinv.2 _ _ h.vault_eq)

/-- Deposits of a mint whose transfers withhold nothing arrive in full: the account of the vault is not the one
that is drawn on, since nobody but the program signs for it. -/
theorem depositsInFull_of_plain (hT : T.Plain) (hrun : Run (Step T auth) s₀ tr s)
    (h₀ : Initial auth s₀) (hs : Step T auth s l s')
    (hown : ∀ ctx n v, l = .call (.transferToPool ctx n) →
      s.poolVaults.lookup ctx.poolVault = some v →
        s.ledger.Owns (auth v.collateralMint) v.tokenAccount) :
    DepositsInFull T auth ⟨s, l, s'⟩ := by
  intro ctx n hl v hv
  have hw := wellFormed_of_run hrun h₀
  have howns := hown ctx n v hl hv
  refine ⟨howns, fun L d ht ↦ (hT ht).amount_dst ?_⟩
  cases hs with
  | token _ => exact absurd hl (by simp)
  | @call _ ix hsigner _ =>
    obtain rfl : ix = .transferToPool ctx n := Label.call.inj hl
    obtain ⟨a, -, ha, -, -, -, -, hauth, -⟩ := (hT ht).cases
    obtain ⟨b, hb, ho⟩ := howns
    intro heq
    rw [heq, hb, Option.some.injEq] at ha
    exact Ledger.not_protected_of_authorizes hw.undelegated hb (ha ▸ hauth) hsigner ⟨_, ho⟩

section Sample

/-- Vault authorities for runs that are evaluated. -/
def sampleAuth : Pubkey → Pubkey := sampleDeployment.poolVaultAuth

theorem not_isVaultAuthority_one : ¬IsVaultAuthority sampleAuth 1 := by
  rintro ⟨m, hm⟩
  exact sampleDeployment_not_isControllerPda (k := 1) (by decide) (by decide) (.inr ⟨m, hm⟩)

/-- User `1` has a million units of asset `10` in account `11`, and `12` is an account of the vault authority
for it. -/
def sampleState : State where
  ledger :=
    { accounts := (Finmap.insert 11 ⟨10, 1, 1000000, none, 0⟩ ∅).insert 12
        ⟨10, sampleAuth 10, 0, none, 0⟩
      mints := Finmap.insert 10 ⟨none, 1000000, 6⟩ ∅ }
  config := none
  poolVaults := ∅

theorem sampleState_initial : Initial sampleAuth sampleState where
  config := rfl
  poolVaults := rfl
  conserved := by
    refine Ledger.conserved_of_mints (fun k a ha ↦ ?_) fun m x hx ↦ ?_
    · simp only [sampleState, Store.lookup_insert_eq_some] at ha
      rcases ha with ⟨-, rfl⟩ | ⟨-, ⟨-, rfl⟩ | ⟨-, ha⟩⟩
      · decide
      · decide
      · exact absurd ha (by simp)
    · simp only [sampleState, Store.lookup_insert_eq_some] at hx
      rcases hx with ⟨rfl, rfl⟩ | ⟨-, hx⟩
      · exact ⟨by decide +kernel, by decide⟩
      · exact absurd hx (by simp)
  undelegated k a ha _ := by
    simp only [sampleState, Store.lookup_insert_eq_some] at ha
    rcases ha with ⟨-, rfl⟩ | ⟨-, ⟨-, rfl⟩ | ⟨-, ha⟩⟩
    · rfl
    · rfl
    · exact absurd ha (by simp)

/-- User `1` administers the pool and opens the vault of asset `10`. -/
def sampleSetup : List Instruction :=
  [.initializeConfig 1 2 3 5, .createPoolVault ⟨12, 10, 1⟩]

def sampleDeposit : Instruction := .transferToPool ⟨10, 11, 10, 1⟩ 10000

/-- The whole deposit is to be paid out again. -/
def sampleWithdraw : TransferToUser := ⟨1, 10, 11, 10⟩

/-- Carry out an instruction. -/
def sampleNext (T : TokenProgram) (ix : Instruction) (s : State) : Option State :=
  (exec T sampleAuth ix s).toOption

/-- The state a script leads to from the sample state. -/
def sampleRun (T : TokenProgram) (ixs : List Instruction) : State :=
  Run.playState (sampleNext T) sampleState ixs

def sampleTrace (T : TokenProgram) (ixs : List Instruction) : List (Transition State Label) :=
  Run.playTrace (sampleNext T) Label.call sampleState ixs

theorem sampleRun_run {ixs : List Instruction} (hsigner : ixs.all (fun ix ↦ ix.signer = 1) = true)
    (hplay : Run.playable (sampleNext T) sampleState ixs = true) :
    Run (Step T sampleAuth) sampleState (sampleTrace T ixs) (sampleRun T ixs) := by
  refine Run.of_script _ _ (fun ix hix u u' hnext ↦ ?_) hplay
  have hone : ix.signer = 1 := of_decide_eq_true (List.all_eq_true.mp hsigner ix hix)
  exact .call (hone ▸ not_isVaultAuthority_one) (toOption_eq_some.mp hnext)

/-- With a plain token the deposit is there, and can be paid out. -/
theorem balance_covers_deposits_sample :
    10000 ≤ (sampleRun splToken (sampleSetup ++ [sampleDeposit])).ledger.amount 12 ∧
    ∃ s', transferToUser splToken sampleAuth sampleWithdraw 10000
      (sampleRun splToken (sampleSetup ++ [sampleDeposit])) = .ok s' := by
  have hplay : Run.playable (sampleNext splToken) sampleState (sampleSetup ++ [sampleDeposit]) = true := by
    decide +kernel
  have hsetup : Run (Step splToken sampleAuth) sampleState (sampleTrace splToken sampleSetup)
      (sampleRun splToken sampleSetup) := sampleRun_run (by decide) (by decide +kernel)
  have hstep : Step splToken sampleAuth (sampleRun splToken sampleSetup) (.call sampleDeposit)
      (sampleRun splToken (sampleSetup ++ [sampleDeposit])) :=
    .call not_isVaultAuthority_one (toOption_eq_some.mp (Run.next_of_playable _ hplay))
  have hempty : (sampleRun splToken sampleSetup).poolVaults.lookup 10 = some ⟨10, 12, 0⟩ := by
    decide +kernel
  have hdeposited : (sampleRun splToken (sampleSetup ++ [sampleDeposit])).poolVaults.lookup 10 =
      some ⟨10, 12, 10000⟩ := by decide +kernel
  have hfull : ∀ t ∈ sampleTrace splToken sampleSetup ++
      [⟨sampleRun splToken sampleSetup, .call sampleDeposit,
        sampleRun splToken (sampleSetup ++ [sampleDeposit])⟩], DepositsInFull splToken sampleAuth t := by
    intro t ht
    rcases List.mem_append.mp ht with ht | ht
    · intro ctx n hl
      refine absurd hl (Run.label_of_mem_playTrace (P := fun l ↦ l ≠ .call (.transferToPool ctx n)) _ _
        ?_ ht)
      simp [sampleSetup]
    · rw [List.mem_singleton] at ht
      subst ht
      apply depositsInFull_of_plain splToken_plain hsetup sampleState_initial hstep
      intro ctx n v hl hv
      obtain ⟨rfl, rfl⟩ := Instruction.transferToPool.inj (Label.call.inj hl)
      obtain rfl := Option.some.inj (hempty.symm.trans hv)
      exact ⟨⟨10, sampleAuth 10, 0, none, 0⟩, by decide +kernel, rfl⟩
  obtain ⟨hcovers, hpays⟩ :=
    balance_covers_deposits (hsetup.snoc hstep) sampleState_initial hfull
  exact ⟨hcovers _ _ hdeposited, hpays splToken_live _ _ _
    ⟨⟨⟨1, 2, 3, 5⟩, by decide +kernel, rfl⟩, hdeposited, rfl,
      ⟨⟨10, 1, 990000, none, 0⟩, by decide +kernel, rfl⟩, by decide, le_rfl⟩⟩

/-- **A fee leaves the record ahead of the account.** Of a deposit of `10000` one percent is withheld, the
record says `10000`, and the withdrawal it admits fails. -/
theorem balance_behind_deposits :
    Initial sampleAuth sampleState ∧
    Run (Step (feeToken 100) sampleAuth) sampleState
      (sampleTrace (feeToken 100) (sampleSetup ++ [sampleDeposit]))
      (sampleRun (feeToken 100) (sampleSetup ++ [sampleDeposit])) ∧
    (sampleRun (feeToken 100) (sampleSetup ++ [sampleDeposit])).poolVaults.lookup 10 =
      some ⟨10, 12, 10000⟩ ∧
    (sampleRun (feeToken 100) (sampleSetup ++ [sampleDeposit])).ledger.amount 12 = 9900 ∧
    sampleWithdraw.Admitted (sampleRun (feeToken 100) (sampleSetup ++ [sampleDeposit])) 10000
      ⟨10, 12, 10000⟩ ∧
    (transferToUser (feeToken 100) sampleAuth sampleWithdraw 10000
      (sampleRun (feeToken 100) (sampleSetup ++ [sampleDeposit]))).toOption.isNone := by
  have hdeposited : (sampleRun (feeToken 100) (sampleSetup ++ [sampleDeposit])).poolVaults.lookup 10 =
      some ⟨10, 12, 10000⟩ := by decide +kernel
  exact ⟨sampleState_initial, sampleRun_run (by decide) (by decide +kernel), hdeposited,
    by decide +kernel, ⟨⟨⟨1, 2, 3, 5⟩, by decide +kernel, rfl⟩, hdeposited, rfl,
      ⟨⟨10, 1, 990000, none, 0⟩, by decide +kernel, rfl⟩, by decide, le_rfl⟩, by decide +kernel⟩

end Sample

end MarginPool

end OptionsProtocol
