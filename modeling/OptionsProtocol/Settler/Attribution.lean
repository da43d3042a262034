import OptionsProtocol.Settler.Delivery

/-!
# Attribution of custodied oTokens

The settler keeps two ledgers of the oTokens in its custody: what each maker has of a series, and
what is left of each vault. They drift apart. Redemptions touch the first only, deliveries both, and
an emergency withdrawal clears a record of the second but takes from the first no more than it has.

The drift has one direction. What a maker has is never more than its records account for, so that
every oToken in custody belongs to some vault; and a record, together with all that was delivered out
of its vault, never exceeds what the vault has minted.
-/

namespace OptionsProtocol

namespace Settler

open Controller (VaultKey Vault)

variable {D : Deployment} {T : TokenProgram} {rent : ℕ → ℕ} {verifies : Ed25519.Signed → Bool}
  {s s' s₀ : State} {l : Label} {tr : List (Transition State Label)} {k : VaultKey}

/-! ## Deliveries out of a vault -/

/-- The oTokens a step delivers out of a vault. -/
def Label.deliveredFrom (k : VaultKey) : Label → ℕ
  | .call (.physicalRedeem ctx n _ _) => if ctx.vault = k then n else 0
  | _ => 0

theorem Move.deliveredFrom_of_unopened (h : Move D T verifies s l s')
    (hk : s.ctrl.vaults.lookup k = none) : l.deliveredFrom k = 0 := by
  unfold Label.deliveredFrom
  split
  · rename_i ctx n m swap
    apply if_neg
    rintro rfl
    cases h with
    | configured hix _ => exact absurd hix id
    | redeemed hix _ => rcases hix with hix | hix <;> cases hix
    | delivered _ h =>
      rw [h.vault_eq] at hk
      exact absurd hk (by simp)
  · rfl

/-- **A record only shrinks**, and at least by what is delivered. -/
theorem Move.record_shrinks (h : Move D T verifies s l s') {vm : VaultMM}
    (hvm : s.vaultMMs.lookup k = some vm) :
    ∃ n, s'.vaultMMs.lookup k = some { vm with remainingAmount := n } ∧
      n + l.deliveredFrom k ≤ vm.remainingAmount := by
  have hquiet : s'.vaultMMs = s.vaultMMs → l.deliveredFrom k = 0 →
      ∃ n, s'.vaultMMs.lookup k = some { vm with remainingAmount := n } ∧
        n + l.deliveredFrom k ≤ vm.remainingAmount := by
    intro heq hzero
    exact ⟨vm.remainingAmount, by rw [heq, hvm], by rw [hzero, Nat.add_zero]⟩
  -- a record is overwritten at its own key, or at another one
  have hspent : ∀ {k₁ : VaultKey} {vm₁ : VaultMM} {n : ℕ}, s.vaultMMs.lookup k₁ = some vm₁ →
      s'.vaultMMs = s.vaultMMs.insert k₁ { vm₁ with remainingAmount := n } →
      (k = k₁ → n + l.deliveredFrom k ≤ vm₁.remainingAmount) →
      (k ≠ k₁ → l.deliveredFrom k = 0) →
      ∃ n, s'.vaultMMs.lookup k = some { vm with remainingAmount := n } ∧
        n + l.deliveredFrom k ≤ vm.remainingAmount := by
    intro k₁ vm₁ n hk₁ heq hsame hother
    by_cases hk : k = k₁
    · subst hk
      obtain rfl := Option.some.inj (hk₁.symm.trans hvm)
      exact ⟨n, by rw [heq, Finmap.lookup_insert], hsame rfl⟩
    · refine ⟨vm.remainingAmount, by rw [heq, Finmap.lookup_insert_of_ne _ hk, hvm], ?_⟩
      rw [hother hk, Nat.add_zero]
  cases h with
  | @configured ix _ hix h =>
    apply hquiet h.vaultMMs_eq
    cases ix <;> first | rfl | exact absurd hix id
  | counted _ | listed | bumped _ | cancelled | settled _ _ | controller _ _ _ | lamports _ =>
    exact hquiet rfl rfl
  | redeemed hix h =>
    apply hquiet (by rw [h.state_eq])
    rcases hix with rfl | rfl <;> rfl
  | @executed ctx ord _ _ _ _ _ _ h =>
    have hne : k ≠ ctx.vault := by
      rintro rfl
      rw [h.fresh] at hvm
      exact absurd hvm (by simp)
    refine ⟨vm.remainingAmount, ?_, Nat.le_refl _⟩
    rw [h.state_eq]
    exact (Finmap.lookup_insert_of_ne _ hne).trans hvm
  | withdrawn _ h =>
    refine hspent h.vaultMM_eq (congrArg State.vaultMMs h.state_eq) ?_ ?_
    · intro _
      exact Nat.zero_le _
    · intro _
      rfl
  | @delivered ctx n _ _ r _ _ h =>
    refine hspent h.vaultMM_eq (congrArg State.vaultMMs h.state_eq) ?_ ?_
    · rintro rfl
      have hremaining := h.remaining
      rw [Label.deliveredFrom, if_pos rfl]
      omega
    · intro hk
      exact if_neg (Ne.symm hk)

/-! ## The invariant -/

/-- What is left of a vault of the settler, and the `n` oTokens delivered out of it, were minted
against it. -/
structure Attributed (s : State) (k : VaultKey) (n : ℕ) : Prop where
  unopened : s.ctrl.vaults.lookup k = none → n = 0
  record : ∀ v, s.ctrl.vaults.lookup k = some v → ∃ vm, s.vaultMMs.lookup k = some vm ∧
    vm.remainingAmount + n ≤ v.shortAmount

theorem Initial.attributed (h : Initial D s) (k : VaultKey) : Attributed s k 0 where
  unopened _ := rfl
  record v hv := by
    rw [h.ctrl.vaults] at hv
    exact absurd hv (by simp)

theorem Move.attributed (h : Move D T verifies s l s') (hr : Recorded D s)
    (hspares : l.SparesVaults) (hk : k.owner = D.settlerConfig) {n : ℕ} (ha : Attributed s k n) :
    Attributed s' k (n + l.deliveredFrom k) := by
  have hkept : ∀ {v : Vault}, s.ctrl.vaults.lookup k = some v → ∃ vm,
      s'.vaultMMs.lookup k = some vm ∧
        vm.remainingAmount + (n + l.deliveredFrom k) ≤ v.shortAmount := by
    intro v hv
    obtain ⟨vm, hvm, hle⟩ := ha.record v hv
    obtain ⟨m, hm, hshrinks⟩ := h.record_shrinks hvm
    refine ⟨_, hm, ?_⟩
    dsimp only
    omega
  rcases h.lookup_of_settler hr hspares hk with heq | ⟨v, hv, hv'⟩ | ⟨ctx, ord, tx, i, r, rfl, rfl, he⟩
  · constructor
    · intro hnone
      rw [heq] at hnone
      rw [ha.unopened hnone, h.deliveredFrom_of_unopened hnone]
    · intro v hv
      rw [heq] at hv
      exact hkept hv
  · constructor
    · intro hnone
      rw [hv'] at hnone
      exact absurd hnone (by simp)
    · intro w hw
      obtain rfl := Option.some.inj (hv'.symm.trans hw)
      have hle := hkept hv
      exact hle
  · obtain ⟨hnone, hvaults⟩ := he.vaults_eq
    have hzero : n = 0 := ha.unopened hnone
    constructor
    · intro hnone
      rw [hvaults, Finmap.lookup_insert] at hnone
      exact absurd hnone (by simp)
    · intro w hw
      rw [hvaults, Finmap.lookup_insert, Option.some.injEq] at hw
      subst hw
      refine ⟨_, by rw [he.state_eq, Finmap.lookup_insert], ?_⟩
      subst hzero
      exact Nat.le_refl _

/-- The oTokens delivered out of a vault in the course of a run. -/
def deliveredTotal (k : VaultKey) (tr : List (Transition State Label)) : ℕ :=
  Run.history (fun t ↦ t.label.deliveredFrom k) tr

theorem attributed_of_run (hrun : Run (Step D T rent verifies) s₀ tr s) (h₀ : Initial D s₀)
    (hspares : ∀ t ∈ tr, t.label.SparesVaults) (hk : k.owner = D.settlerConfig) :
    Attributed s k (deliveredTotal k tr) := by
  induction hrun with
  | nil => exact h₀.attributed k
  | @snoc tr u u' l hr hs ih =>
    have hprev := ih fun t ht ↦ hspares t (List.mem_append_left _ ht)
    have hlast := hspares _ (List.mem_append_right _ (List.mem_singleton_self _))
    rw [deliveredTotal, Run.history_snoc]
    exact hs.move.attributed (recorded_of_run hr h₀) hlast hk hprev

theorem custody_le_remainingTotal (hrun : Run (Step D T rent verifies) s₀ tr s) (h₀ : Initial D s₀)
    (b : BalanceKey) : s.custody b ≤ remainingTotal s b := by
  induction hrun with
  | nil =>
    rw [State.custody, h₀.makerOtokenBalances]
    exact Nat.zero_le _
  | @snoc tr u u' l hr hs ih =>
    rcases hs.move.custody_cases (recorded_of_run hr h₀) b with
      ⟨n, hb, ht⟩ | ⟨n, hb, ht⟩ | ⟨n, hb, ht⟩ | ⟨-, hb, ht⟩
    · omega
    · omega
    · omega
    · omega

/-- **Every custodied oToken is attributable to a vault.** What a maker has of a series is within what
its records of that series add up to, over all vaults; and every vault of the settler has a record, in
its own series, which together with everything delivered out of the vault is within its short
position. -/
theorem custody_attributable (hrun : Run (Step D T rent verifies) s₀ tr s) (h₀ : Initial D s₀)
    (hspares : ∀ t ∈ tr, t.label.SparesVaults) :
    (∀ maker otokenMint, s.custody ⟨maker, otokenMint⟩ ≤ remainingTotal s ⟨maker, otokenMint⟩) ∧
    ∀ k v, s.ctrl.vaults.lookup k = some v → v.owner = D.settlerConfig →
      ∃ vm, s.vaultMMs.lookup k = some vm ∧ vm.otokenMint = v.otokenMint ∧
        vm.remainingAmount + deliveredTotal k tr ≤ v.shortAmount := by
  have hr := recorded_of_run hrun h₀
  constructor
  · intro maker otokenMint
    exact custody_le_remainingTotal hrun h₀ _
  · intro k v hv hown
    have hk : k.owner = D.settlerConfig := by rw [(hr.wellFormed.vault hv).key, hown]
    obtain ⟨vm, hvm, hle⟩ := (attributed_of_run hrun h₀ hspares hk).record v hv
    obtain ⟨w, hw, hok⟩ := hr.vault k vm hvm
    obtain rfl := Option.some.inj (hv.symm.trans hw)
    exact ⟨vm, hvm, hok.otokenMint.symm, hle⟩

section Sample

theorem sampleSwap_sparesVaults : sampleSwap.SparesVaults := by
  intro c c' h
  simp only [sampleSwap, Except.fromOption_bind_eq_ok, Except.pure_eq_ok] at h
  obtain ⟨L, -, L', -, rfl⟩ := h
  rfl

theorem custody_attributable_sample :
    ∃ vm, (sampleRun (sampleExercised ++ [sampleDeliver])).vaultMMs.lookup ⟨4, 0⟩ = some vm ∧
      vm.otokenMint = 20 ∧ vm.remainingAmount + deliveredTotal ⟨4, 0⟩
        (sampleTrace sampleExercised ++ [⟨sampleRun sampleExercised, sampleDeliver.label,
          sampleRun (sampleExercised ++ [sampleDeliver])⟩]) ≤ 1000000 := by
  obtain ⟨hrun, hstep⟩ := sampleDeliver_step
  have hquiet : ∀ a ∈ sampleExercised, a.label.SparesVaults := by
    simp [sampleExercised, samplePriced, sampleFirst, sampleSetup, sampleExecute, Action.label,
      Label.SparesVaults]
  have hspares : ∀ t ∈ sampleTrace sampleExercised ++ [⟨sampleRun sampleExercised,
      sampleDeliver.label, sampleRun (sampleExercised ++ [sampleDeliver])⟩],
      t.label.SparesVaults := by
    intro t ht
    rcases List.mem_append.mp ht with ht | ht
    · exact Run.label_of_mem_playTrace _ _ hquiet ht
    · rw [List.mem_singleton.mp ht]
      exact sampleSwap_sparesVaults
  have hv : (sampleRun (sampleExercised ++ [sampleDeliver])).ctrl.vaults.lookup ⟨4, 0⟩ =
      some { Vault.fresh ⟨4, 0⟩ 10 1 with
        collateralAmount := 10000
        otokenMint := 20
        shortAmount := 1000000 } := by decide +kernel
  exact (custody_attributable (hrun.snoc hstep) sampleState_initial hspares).2 _ _ hv rfl

end Sample

end Settler

end OptionsProtocol
