import OptionsProtocol.MarginPool.Backing

/-!
# The books of the margin pool

A vault of the pool records one number. Over any stretch of a run it moves by exactly what the deposits and
the withdrawals of the stretch asked for, under one account that is fixed when the vault is made, and the
account loses to the stretch no more than the withdrawals.

Everything but a deposit is signed by the admin, who is never replaced: while the admin signs nothing,
the configuration stays, no vault is made and nothing is paid out.
-/

namespace OptionsProtocol

namespace MarginPool

open Except Run

variable {T : TokenProgram} {auth : Pubkey → Pubkey} {s s' s₀ : State} {l : Label}
  {tr tr₀ : List (Transition State Label)} {c : MarginPoolConfig} {m : Pubkey} {v : PoolVault}

/-! ## What is paid -/

/-- What a transition pays into the vault of a mint. -/
def paidIn (m : Pubkey) (t : Transition State Label) : ℕ :=
  match t.label with
  | .call (.transferToPool ctx n) => if ctx.poolVault = m then n else 0
  | _ => 0

/-- What a transition pays out of it. -/
def paidOut (m : Pubkey) (t : Transition State Label) : ℕ :=
  match t.label with
  | .call (.transferToUser ctx n) => if ctx.poolVault = m then n else 0
  | _ => 0

/-- What the vault of a mint records. -/
def State.recorded (s : State) (m : Pubkey) : ℕ := (s.poolVaults.lookup m).elim 0 PoolVault.totalDeposited

/-! ## What the admin signs -/

theorem adminConfig_eq_ok {admin : Pubkey} :
    adminConfig admin s = .ok c ↔ s.config = some c ∧ c.admin = admin := by
  rw [adminConfig, loadConfig, checked_eq_ok]

theorem createPoolVault_admitted {ctx : CreatePoolVault} (h : createPoolVault auth ctx s = .ok s') :
    (∃ c, s.config = some c ∧ c.admin = ctx.admin) ∧ s.poolVaults.lookup ctx.collateralMint = none := by
  simp only [createPoolVault, loadConfig, loadTokenAccount, loadMint, fromOption_bind_eq_ok,
    require_bind_eq_ok, pure_eq_ok] at h
  obtain ⟨c, hc, _, -, _, -, hnone, hadmin, -, -, -⟩ := h
  exact ⟨⟨c, hc, hadmin⟩, hnone⟩

theorem transferToUser_admin {ctx : TransferToUser} {n : ℕ} (h : transferToUser T auth ctx n s = .ok s') :
    ∃ c, s.config = some c ∧ c.admin = ctx.admin := by
  simp only [transferToUser, loadConfig, loadPoolVault, loadTokenAccount, loadMint,
    fromOption_bind_eq_ok, require_bind_eq_ok, pure_eq_ok] at h
  obtain ⟨c, hc, _, -, _, -, _, -, _, -, hadmin, -⟩ := h
  exact ⟨c, hc, hadmin⟩

/-- **Everything but a deposit is the admin's**, and leaves the admin in office. -/
theorem governed_of_exec {ix : Instruction} (h : exec T auth ix s = .ok s') (hc : s.config = some c) :
    ((∃ ctx n, ix = .transferToPool ctx n) ∧ s'.config = s.config) ∨
      (ix.signer = c.admin ∧ ∃ c', s'.config = some c' ∧ c'.admin = c.admin) := by
  cases ix with
  | initializeConfig admin controller operator yieldRecipient =>
    obtain ⟨hnone, -⟩ := require_bind_eq_ok.mp h
    exact absurd (hc.symm.trans hnone) (by simp)
  | createPoolVault ctx =>
    obtain ⟨⟨c', hc', hadmin⟩, -⟩ := createPoolVault_admitted h
    obtain rfl := Option.some.inj (hc.symm.trans hc')
    rw [createPoolVault_eq_ok h]
    exact .inr ⟨hadmin.symm, c, hc, rfl⟩
  | transferToPool ctx n =>
    obtain ⟨_, _, he⟩ := transferToPool_effect h
    rw [he.state_eq]
    exact .inl ⟨⟨ctx, n, rfl⟩, rfl⟩
  | transferToUser ctx n =>
    obtain ⟨c', hc', hadmin⟩ := transferToUser_admin h
    obtain rfl := Option.some.inj (hc.symm.trans hc')
    obtain ⟨_, _, he⟩ := transferToUser_effect h
    rw [he.state_eq]
    exact .inr ⟨hadmin.symm, c, hc, rfl⟩
  | setController admin _ | setOperator admin _ | setYieldRecipient admin _ =>
    obtain ⟨c', hc', h⟩ := bind_eq_ok.mp h
    obtain ⟨hc', hadmin⟩ := adminConfig_eq_ok.mp hc'
    obtain rfl := Option.some.inj (hc.symm.trans hc')
    obtain ⟨-, h⟩ := require_bind_eq_ok.mp h
    rw [pure_eq_ok] at h
    subst h
    exact .inr ⟨hadmin.symm, _, rfl, rfl⟩

theorem Step.governed (h : Step T auth s l s') (hc : s.config = some c) :
    (s'.config = s.config ∧ ∀ ix, l = .call ix → ∃ ctx n, ix = .transferToPool ctx n) ∨
      (∃ ix, l = .call ix ∧ ix.signer = c.admin) ∧ ∃ c', s'.config = some c' ∧ c'.admin = c.admin := by
  cases h with
  | token _ => exact .inl ⟨rfl, fun ix heq ↦ absurd heq (by simp)⟩
  | @call _ ix hsigner h =>
    rcases governed_of_exec h hc with ⟨hix, hkept⟩ | ⟨hadmin, hc'⟩
    · exact .inl ⟨hkept, fun ix' heq ↦ Label.call.inj heq ▸ hix⟩
    · exact .inr ⟨⟨ix, rfl, hadmin⟩, hc'⟩

theorem admin_of_run (hrun : Run (Step T auth) s tr s') (hc : s.config = some c) :
    ∃ c', s'.config = some c' ∧ c'.admin = c.admin := by
  refine Run.invariant (I := fun u ↦ ∃ c', u.config = some c' ∧ c'.admin = c.admin) ⟨c, hc, rfl⟩ ?_ hrun
  rintro u l u' ⟨c', hc', hadmin⟩ hs
  rcases hs.governed hc' with ⟨hkept, -⟩ | ⟨-, c'', hc'', hadmin'⟩
  · exact ⟨c', hkept.trans hc', hadmin⟩
  · exact ⟨c'', hc'', hadmin'.trans hadmin⟩

/-! ## What is recorded -/

/-- **One step and the record of a vault.** -/
theorem Step.recorded (h : Step T auth s l s') (m : Pubkey) :
    s'.recorded m + paidOut m ⟨s, l, s'⟩ = s.recorded m + paidIn m ⟨s, l, s'⟩ := by
  cases h with
  | token _ => rfl
  | @call _ ix hsigner h =>
    cases ix with
    | createPoolVault ctx =>
      obtain ⟨-, hnone⟩ := createPoolVault_admitted h
      rw [createPoolVault_eq_ok h]
      by_cases hm : m = ctx.collateralMint
      · subst hm
        simp [State.recorded, hnone, paidIn, paidOut]
      · simp [State.recorded, Finmap.lookup_insert_of_ne _ hm, paidIn, paidOut]
    | transferToPool ctx n =>
      obtain ⟨v, L, he⟩ := transferToPool_effect h
      rw [he.state_eq]
      by_cases hm : m = ctx.poolVault
      · subst hm
        simp [State.recorded, he.vault_eq, paidIn, paidOut]
      · simp [State.recorded, Finmap.lookup_insert_of_ne _ hm, paidIn, paidOut, Ne.symm hm]
    | transferToUser ctx n =>
      obtain ⟨v, L, he⟩ := transferToUser_effect h
      have hle := he.covered
      rw [he.state_eq]
      by_cases hm : m = ctx.poolVault
      · subst hm
        simp only [State.recorded, he.vault_eq, paidIn, paidOut, Finmap.lookup_insert, Option.elim_some,
          if_pos]
        omega
      · simp [State.recorded, Finmap.lookup_insert_of_ne _ hm, paidIn, paidOut, Ne.symm hm]
    | _ =>
      obtain ⟨-, hvaults⟩ := kept_of_exec h trivial
      simp [State.recorded, hvaults, paidIn, paidOut]

theorem recorded_of_run (hrun : Run (Step T auth) s tr s') (m : Pubkey) :
    s'.recorded m + history (paidOut m) tr = s.recorded m + history (paidIn m) tr := by
  have key := accounting (I := fun _ : State ↦ True) (Q := fun _ ↦ True) (fun u : State ↦ u.recorded m)
    (fun _ ↦ 0) (paidIn m) (paidOut m) trivial (fun _ _ _ _ _ _ ↦ trivial) ?_ hrun fun _ _ ↦ trivial
  · simpa using key
  · intro u l u' _ hs _
    simpa using hs.recorded m

/-! ## What becomes of the account -/

theorem Step.tokenAccount (h : Step T auth s l s') (hv : s.poolVaults.lookup m = some v) :
    ∃ v', s'.poolVaults.lookup m = some v' ∧ v'.collateralMint = v.collateralMint ∧
      v'.tokenAccount = v.tokenAccount := by
  cases h with
  | token _ => exact ⟨v, hv, rfl, rfl⟩
  | @call _ ix hsigner h =>
    cases ix with
    | createPoolVault ctx =>
      obtain ⟨-, hnone⟩ := createPoolVault_admitted h
      have hm : m ≠ ctx.collateralMint := by
        rintro rfl
        exact absurd (hv.symm.trans hnone) (by simp)
      rw [createPoolVault_eq_ok h]
      exact ⟨v, (Finmap.lookup_insert_of_ne _ hm).trans hv, rfl, rfl⟩
    | transferToPool ctx n =>
      obtain ⟨w, L, he⟩ := transferToPool_effect h
      rw [he.state_eq]
      by_cases hm : m = ctx.poolVault
      · subst hm
        obtain rfl := Option.some.inj (hv.symm.trans he.vault_eq)
        exact ⟨_, Finmap.lookup_insert _, rfl, rfl⟩
      · exact ⟨v, (Finmap.lookup_insert_of_ne _ hm).trans hv, rfl, rfl⟩
    | transferToUser ctx n =>
      obtain ⟨w, L, he⟩ := transferToUser_effect h
      rw [he.state_eq]
      by_cases hm : m = ctx.poolVault
      · subst hm
        obtain rfl := Option.some.inj (hv.symm.trans he.vault_eq)
        exact ⟨_, Finmap.lookup_insert _, rfl, rfl⟩
      · exact ⟨v, (Finmap.lookup_insert_of_ne _ hm).trans hv, rfl, rfl⟩
    | _ =>
      obtain ⟨-, hvaults⟩ := kept_of_exec h trivial
      exact ⟨v, by rw [hvaults, hv], rfl, rfl⟩

/-- Of `floor` tokens an account of the vault authority held, all but `out` are still there. An account that
is empty may be gone: whoever may close it is not the pool's affair. -/
def Holds (auth : Pubkey → Pubkey) (L : Ledger) (m k : Pubkey) (floor out : ℕ) : Prop :=
  floor ≤ out ∨ ∃ a, L.accounts.lookup k = some a ∧ a.mint = m ∧ a.owner = auth m ∧ floor ≤ a.amount + out

section Holds

variable {L L' : Ledger} {k : Pubkey} {floor out : ℕ}

theorem Holds.floor_le (h : Holds auth L m k floor out) : floor ≤ L.amount k + out := by
  rcases h with hle | ⟨a, ha, -, -, hle⟩
  · exact hle.trans (Nat.le_add_left _ _)
  · rwa [Ledger.amount_eq ha]

/-- What the vault authority does not sign takes nothing. -/
theorem Holds.rely {Q : Pubkey → Prop} (h : Holds auth L m k floor out)
    (hu : L.Undelegated (IsVaultAuthority auth)) (hr : L.Rely (IsVaultAuthority auth) Q L') :
    Holds auth L' m k floor out := by
  rcases h with hle | ⟨a, ha, hm, ho, hle⟩
  · exact .inl hle
  · have hauth : IsVaultAuthority auth a.owner := ⟨m, ho⟩
    rcases Nat.eq_zero_or_pos a.amount with hzero | hpos
    · rw [hzero, Nat.zero_add] at hle
      exact .inl hle
    · obtain ⟨a', ha', hm', ho', hgain⟩ := hr.account ha hauth (hu _ _ ha hauth) hpos
      exact .inr ⟨a', ha', hm'.trans hm, ho'.trans ho, hle.trans (Nat.add_le_add_right hgain _)⟩

theorem Holds.paidOut {dst x : Pubkey} {n r : ℕ} (h : Holds auth L m k floor out)
    (ht : L.Transferred L' k m dst x n r) : Holds auth L' m k floor (out + n) := by
  rcases h with hle | ⟨a, ha, hm, ho, hle⟩
  · exact .inl (hle.trans (Nat.le_add_right _ _))
  · obtain ⟨a', ha', hm', ho', -⟩ := ht.kept.some ha
    have hlost : L.amount k ≤ L'.amount k + n := ht.amount_src_le
    rw [Ledger.amount_eq ha, Ledger.amount_eq ha'] at hlost
    exact .inr ⟨a', ha', hm'.trans hm, ho'.trans ho, by omega⟩

theorem Holds.transferred {src mint dst x : Pubkey} {n r : ℕ} (h : Holds auth L m k floor out)
    (ht : L.Transferred L' src mint dst x n r) (hne : m ≠ mint) : Holds auth L' m k floor out := by
  rcases h with hle | ⟨a, ha, hm, ho, hle⟩
  · exact .inl hle
  · obtain ⟨b, -, hb, -, hmb, -⟩ := ht.cases
    have hsrc : k ≠ src := by
      rintro rfl
      obtain rfl := Option.some.inj (ha.symm.trans hb)
      exact hne (hm.symm.trans hmb)
    obtain ⟨a', ha', hm', ho', -⟩ := ht.kept.some ha
    have hkept := ht.le_amount hsrc
    rw [Ledger.amount_eq ha, Ledger.amount_eq ha'] at hkept
    exact .inr ⟨a', ha', hm'.trans hm, ho'.trans ho, hle.trans (Nat.add_le_add_right hkept _)⟩

end Holds

/-- **One step and the account of a vault.** -/
theorem Step.holds {floor out : ℕ} (h : Step T auth s l s') (hw : WellFormed auth s)
    (hv : s.poolVaults.lookup m = some v) (hh : Holds auth s.ledger m v.tokenAccount floor out) :
    Holds auth s'.ledger m v.tokenAccount floor (out + paidOut m ⟨s, l, s'⟩) := by
  cases h with
  | token h => exact hh.rely hw.undelegated h
  | @call _ ix hsigner h =>
    cases ix with
    | createPoolVault ctx =>
      rw [createPoolVault_eq_ok h]
      exact hh
    | transferToPool ctx n =>
      obtain ⟨w, L, he⟩ := transferToPool_effect h
      obtain ⟨d, ht⟩ := he.transfer
      obtain ⟨r, hr⟩ := T.transferChecked_spec ht
      rw [he.state_eq]
      exact hh.rely hw.undelegated (hr.rely (Q := fun _ ↦ False) hw.undelegated hsigner)
    | transferToUser ctx n =>
      obtain ⟨w, L, he⟩ := transferToUser_effect h
      obtain ⟨d, ht⟩ := he.transfer
      obtain ⟨r, hr⟩ := T.transferChecked_spec ht
      have hmint : ctx.collateralMint = ctx.poolVault := he.collateralMint_eq.trans he.mint_eq.symm
      rw [hmint] at hr
      rw [he.state_eq]
      by_cases hm : m = ctx.poolVault
      · subst hm
        obtain rfl := Option.some.inj (hv.symm.trans he.vault_eq)
        simpa [paidOut] using hh.paidOut hr
      · simpa [paidOut, Ne.symm hm] using hh.transferred hr hm
    | _ =>
      obtain ⟨hledger, -⟩ := kept_of_exec h trivial
      rw [hledger]
      exact hh

theorem tokenAccount_of_run (hrun : Run (Step T auth) s tr s') (hv : s.poolVaults.lookup m = some v) :
    ∃ v', s'.poolVaults.lookup m = some v' ∧ v'.tokenAccount = v.tokenAccount := by
  refine Run.invariant (I := fun u ↦ ∃ v', u.poolVaults.lookup m = some v' ∧
    v'.tokenAccount = v.tokenAccount) ⟨v, hv, rfl⟩ ?_ hrun
  rintro u l u' ⟨w, hwl, hwk⟩ hs
  obtain ⟨w', hw', -, hk'⟩ := hs.tokenAccount hwl
  exact ⟨w', hw', hk'.trans hwk⟩

theorem amount_of_run {a : TokenAccount} (hrun : Run (Step T auth) s tr s') (hw : WellFormed auth s)
    (hv : s.poolVaults.lookup m = some v) (ha : s.ledger.accounts.lookup v.tokenAccount = some a)
    (hm : a.mint = m) (ho : a.owner = auth m) :
    a.amount ≤ s'.ledger.amount v.tokenAccount + history (paidOut m) tr := by
  have hinv : (WellFormed auth s' ∧ ∃ v', s'.poolVaults.lookup m = some v' ∧
      v'.tokenAccount = v.tokenAccount) ∧
      Holds auth s'.ledger m v.tokenAccount a.amount (history (paidOut m) tr) := by
    refine invariant_history (I := fun u n ↦ (WellFormed auth u ∧ ∃ v', u.poolVaults.lookup m = some v' ∧
      v'.tokenAccount = v.tokenAccount) ∧ Holds auth u.ledger m v.tokenAccount a.amount n)
      ⟨⟨hw, v, hv, rfl⟩, .inr ⟨a, ha, hm, ho, Nat.le_add_right _ _⟩⟩ ?_ hrun
    rintro u l u' n ⟨⟨hwu, w, hwl, hwk⟩, hh⟩ hs
    obtain ⟨w', hw', -, hk'⟩ := hs.tokenAccount hwl
    refine ⟨⟨hs.wellFormed hwu, w', hw', hk'.trans hwk⟩, ?_⟩
    rw [← hwk] at hh ⊢
    exact hs.holds hwu hwl hh
  exact hinv.2.floor_le

/-! ## Any stretch of any run -/

/-- **The books are exact.** Between any two states of a run the record of every vault moves by what was paid
in and out in between, as it did before; a vault keeps its account, and while the vault authority owns the
account the stretch takes from it at most what was paid out of the vault. -/
theorem books_exact (hrun₀ : Run (Step T auth) s₀ tr₀ s) (h₀ : Initial auth s₀)
    (hrun : Run (Step T auth) s tr s') :
    (∀ m, s.recorded m + history (paidOut m) tr₀ = history (paidIn m) tr₀ ∧
      s'.recorded m + history (paidOut m) tr = s.recorded m + history (paidIn m) tr) ∧
    ∀ m v, s.poolVaults.lookup m = some v →
      (∃ v', s'.poolVaults.lookup m = some v' ∧ v'.tokenAccount = v.tokenAccount) ∧
      ∀ a, s.ledger.accounts.lookup v.tokenAccount = some a → a.mint = m → a.owner = auth m →
        a.amount ≤ s'.ledger.amount v.tokenAccount + history (paidOut m) tr := by
  constructor
  · intro m
    have hstart : s₀.recorded m = 0 := by simp [State.recorded, h₀.poolVaults]
    have hbefore := recorded_of_run hrun₀ m
    rw [hstart, Nat.zero_add] at hbefore
    exact ⟨hbefore, recorded_of_run hrun m⟩
  · intro m v hv
    refine ⟨tokenAccount_of_run hrun hv, fun a ha hm ho ↦ ?_⟩
    exact amount_of_run hrun (wellFormed_of_run hrun₀ h₀) hv ha hm ho

/-- No call of the transition is signed by the key. -/
def Unsigned (k : Pubkey) (t : Transition State Label) : Prop :=
  ∀ ix, t.label = .call ix → ix.signer ≠ k

theorem Step.unsigned (h : Step T auth s l s') (hc : s.config = some c) (hq : Unsigned c.admin ⟨s, l, s'⟩) :
    s'.config = some c ∧ ∀ ix, l = .call ix → ∃ ctx n, ix = .transferToPool ctx n := by
  rcases h.governed hc with ⟨hkept, hdeposit⟩ | ⟨⟨ix, hl, hadmin⟩, -⟩
  · exact ⟨hkept.trans hc, hdeposit⟩
  · exact absurd hadmin (hq ix hl)

/-- A run without the admin is a run of deposits. -/
theorem deposits_of_unsigned (hrun : Run (Step T auth) s tr s') (hc : s.config = some c)
    (hq : ∀ t ∈ tr, Unsigned c.admin t) :
    s'.config = some c ∧ ∀ t ∈ tr, ∀ ix, t.label = .call ix → ∃ ctx n, ix = .transferToPool ctx n := by
  obtain ⟨hc', hpre⟩ := Run.throughout (I := fun u : State ↦ u.config = some c) hc
    (fun _ _ _ hcu hs hqu ↦ (hs.unsigned hcu hqu).1) hrun hq
  exact ⟨hc', fun t ht ↦ ((hrun.step_of_mem ht).unsigned (hpre t ht) (hq t ht)).2⟩

theorem history_paidOut_eq_zero (h : ∀ t ∈ tr, ∀ ix, t.label = .call ix → ∃ ctx n, ix = .transferToPool ctx n)
    (m : Pubkey) : history (paidOut m) tr = 0 := by
  rw [history, List.sum_eq_zero_iff]
  intro n hn
  obtain ⟨t, ht, rfl⟩ := List.mem_map.mp hn
  rw [paidOut]
  split
  · rename_i ctx n hl
    obtain ⟨_, _, heq⟩ := h t ht _ hl
    exact absurd heq (by simp)
  · rfl

/-- **Nothing happens over the admin's head.** The admin of a configured pool stays the admin, and through a
stretch in which the admin signs nothing the configuration is as it was, every call that goes through is a
deposit, and neither the record of a vault nor an account of the vault authority's loses anything. -/
theorem admin_governs (hrun₀ : Run (Step T auth) s₀ tr₀ s) (h₀ : Initial auth s₀)
    (hrun : Run (Step T auth) s tr s') (hc : s.config = some c) :
    (∃ c', s'.config = some c' ∧ c'.admin = c.admin) ∧
    ((∀ t ∈ tr, Unsigned c.admin t) →
      s'.config = some c ∧
      (∀ t ∈ tr, ∀ ix, t.label = .call ix → ∃ ctx n, ix = .transferToPool ctx n) ∧
      ∀ m, s.recorded m ≤ s'.recorded m ∧
        ∀ v a, s.poolVaults.lookup m = some v → s.ledger.accounts.lookup v.tokenAccount = some a →
          a.mint = m → a.owner = auth m → a.amount ≤ s'.ledger.amount v.tokenAccount) := by
  refine ⟨admin_of_run hrun hc, fun hq ↦ ?_⟩
  obtain ⟨hc', hdeposits⟩ := deposits_of_unsigned hrun hc hq
  refine ⟨hc', hdeposits, fun m ↦ ?_⟩
  have hnone := history_paidOut_eq_zero hdeposits m
  constructor
  · have hrecord := recorded_of_run hrun m
    omega
  · intro v a hv ha hm ho
    have hamount := amount_of_run hrun (wellFormed_of_run hrun₀ h₀) hv ha hm ho
    rwa [hnone, Nat.add_zero] at hamount

section Sample

theorem not_isVaultAuthority_two : ¬IsVaultAuthority sampleAuth 2 := by
  rintro ⟨m, hm⟩
  exact sampleDeployment_not_isControllerPda (k := 2) (by decide) (by decide) (.inr ⟨m, hm⟩)

theorem samplePlay_run (u : State) (ixs : List Instruction)
    (hsigner : ixs.all (fun ix ↦ ix.signer = 1 ∨ ix.signer = 2) = true)
    (hplay : Run.playable (sampleNext splToken) u ixs = true) :
    Run (Step splToken sampleAuth) u (Run.playTrace (sampleNext splToken) Label.call u ixs)
      (Run.playState (sampleNext splToken) u ixs) := by
  refine Run.of_script _ _ (fun ix hix u u' hnext ↦ ?_) hplay
  have hknown : ix.signer = 1 ∨ ix.signer = 2 := of_decide_eq_true (List.all_eq_true.mp hsigner ix hix)
  refine .call ?_ (toOption_eq_some.mp hnext)
  rcases hknown with hone | htwo
  · exact hone ▸ not_isVaultAuthority_one
  · exact htwo ▸ not_isVaultAuthority_two

/-- User `2` administers the pool. -/
def sampleOpening : List Instruction := [.initializeConfig 2 3 4 5, .createPoolVault ⟨12, 10, 2⟩]

/-- User `1` pays in, -/
def samplePayment : List Instruction := [.transferToPool ⟨10, 11, 10, 1⟩ 10000]

/-- and gets part of it back. -/
def sampleRefund : List Instruction := [.transferToUser ⟨2, 10, 11, 10⟩ 4000]

theorem books_exact_sample :
    (Run.playState (sampleNext splToken) (sampleRun splToken sampleOpening)
      (samplePayment ++ sampleRefund)).recorded 10 = 6000 := by
  have hopened : (sampleRun splToken sampleOpening).recorded 10 = 0 := by decide +kernel
  have hin : history (paidIn 10) (Run.playTrace (sampleNext splToken) Label.call
      (sampleRun splToken sampleOpening) (samplePayment ++ sampleRefund)) = 10000 := by decide +kernel
  have hout : history (paidOut 10) (Run.playTrace (sampleNext splToken) Label.call
      (sampleRun splToken sampleOpening) (samplePayment ++ sampleRefund)) = 4000 := by decide +kernel
  have hbooks := books_exact (samplePlay_run _ sampleOpening (by decide) (by decide +kernel))
    sampleState_initial (samplePlay_run _ (samplePayment ++ sampleRefund) (by decide)
      (by decide +kernel))
  have hbalance : State.recorded _ 10 + history (paidOut 10) _ =
    (sampleRun splToken sampleOpening).recorded 10 + history (paidIn 10) _ := (hbooks.1 10).2
  rw [hopened] at hbalance
  exact Nat.add_right_cancel (hout ▸ hin ▸ hbalance)

theorem admin_governs_sample :
    (Run.playState (sampleNext splToken) (sampleRun splToken sampleOpening) samplePayment).config =
      some ⟨2, 3, 4, 5⟩ ∧
    (sampleRun splToken sampleOpening).recorded 10 ≤
      (Run.playState (sampleNext splToken) (sampleRun splToken sampleOpening) samplePayment).recorded 10 := by
  have hgoverned := admin_governs (samplePlay_run _ sampleOpening (by decide) (by decide +kernel))
    sampleState_initial (samplePlay_run _ samplePayment (by decide) (by decide +kernel))
    (c := ⟨2, 3, 4, 5⟩) (by decide +kernel)
  obtain ⟨hconfig, -, hvaults⟩ := hgoverned.2 fun t ht ↦ by
    have hlabel := Run.label_of_mem_playTrace (P := fun l ↦ ∀ ix, l = .call ix → ix.signer ≠ 2) _ _
      (by simp [samplePayment, Instruction.signer]) ht
    exact hlabel
  exact ⟨hconfig, (hvaults 10).1⟩

end Sample

end MarginPool

end OptionsProtocol
