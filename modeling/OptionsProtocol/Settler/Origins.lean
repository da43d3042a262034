import OptionsProtocol.Controller.Issuance
import OptionsProtocol.Settler.Attribution

/-!
# Where a record comes from

The settler's record of a vault names the maker whose oTokens may be exercised against it, and how many. It
was written by one order: of that maker, for the vault's beneficiary, before the series expired. What is left
of the record, and whatever has been delivered out of the vault since, is within the amount of the order.
-/

namespace OptionsProtocol

namespace Settler

open Controller (VaultKey Vault OTokenInfo)

variable {D : Deployment} {T : TokenProgram} {rent : ℕ → ℕ} {verifies : Ed25519.Signed → Bool}
  {s s' s₀ : State} {l : Label} {tr : List (Transition State Label)} {k : VaultKey}

/-- An order under a quote in the maker's name opens the vault `k` for the user. -/
def Label.Opens (verifies : Ed25519.Signed → Bool) (k : VaultKey) (maker user otokenMint : Pubkey)
    (ord : Order) (l : Label) : Prop :=
  ∃ ctx tx i, l = .call (.executeOrder ctx ord tx i) ∧ ctx.vault = k ∧ ctx.maker = maker ∧
    ctx.user = user ∧ ctx.otokenMint = otokenMint ∧ Ed25519.Succeeded verifies tx ∧
    verifyEd25519Signature tx i maker.toBytes (ord.message otokenMint) = .ok ()

/-- What an order leaves behind for as long as the system runs: its vault, its series, and its record, of which
at most `n` has been delivered. -/
structure Order.Open (D : Deployment) (s : State) (k : VaultKey) (maker user otokenMint : Pubkey) (clock : ℤ)
    (ord : Order) (n : ℕ) : Prop where
  recorded : Recorded D s
  record : ∃ m, s.vaultMMs.lookup k = some ⟨maker, k, otokenMint, m⟩ ∧ m + n ≤ ord.amount.toNat
  vault : ∃ v, s.ctrl.vaults.lookup k = some v ∧ v.beneficiary = user
  series : ∃ info, s.ctrl.otokenInfos.lookup otokenMint = some info ∧ clock < info.expiry

theorem ExecuteOrder.Effect.series {ctx : ExecuteOrder} {ord : Order} {tx : Transaction} {i : ℕ}
    {r : ExecuteOrder.Course} (h : ExecuteOrder.Effect D T s ctx ord tx i r s') :
    ∃ info, s'.ctrl.otokenInfos.lookup ctx.otokenMint = some info ∧ s.ctrl.clock < info.expiry := by
  obtain ⟨id, hopen⟩ := Controller.openVault_effect h.openVault
  obtain ⟨_, _, _, _, hdeposit⟩ := Controller.depositCollateral_effect h.deposit
  obtain ⟨_, info, _, _, hmint⟩ := Controller.mintOtoken_effect h.mint
  have hinfos : s'.ctrl.otokenInfos = r.funded.otokenInfos := by
    rw [h.state_eq, hmint.state_eq]
  have hclock : r.funded.clock = s.ctrl.clock := by
    rw [hdeposit.state_eq, hopen.state_eq]
  exact ⟨info, hinfos ▸ hmint.info_eq, hclock ▸ hmint.unexpired⟩

/-- **What an order opens.** -/
theorem ExecuteOrder.Effect.opened {ctx : ExecuteOrder} {ord : Order} {tx : Transaction} {i : ℕ}
    {r : ExecuteOrder.Course} (hr : Recorded D s') (h : ExecuteOrder.Effect D T s ctx ord tx i r s') :
    ord.Open D s' ctx.vault ctx.maker ctx.user ctx.otokenMint s.ctrl.clock 0 where
  recorded := hr
  record := ⟨ord.amount.toNat, by rw [h.state_eq, Finmap.lookup_insert], le_rfl⟩
  vault := ⟨_, by rw [h.vaults_eq.2, Finmap.lookup_insert], rfl⟩
  series := h.series

theorem Order.Open.step {maker user otokenMint : Pubkey} {clock : ℤ} {ord : Order} {n : ℕ}
    (ho : ord.Open D s k maker user otokenMint clock n) (h : Move D T verifies s l s') :
    ord.Open D s' k maker user otokenMint clock (n + l.deliveredFrom k) := by
  obtain ⟨hr, ⟨m, hm, hle⟩, ⟨v, hv, huser⟩, ⟨info, hi, hlt⟩⟩ := ho
  refine ⟨h.recorded hr, ?_, ?_, ?_⟩
  · obtain ⟨m', hm', hshrinks⟩ := h.record_shrinks hm
    refine ⟨m', hm', ?_⟩
    dsimp only at hshrinks
    omega
  · obtain ⟨v', hv', hlater⟩ := h.vault_later hr.wellFormed hv
    exact ⟨v', hv', hlater.beneficiary.trans huser⟩
  · obtain ⟨tr, hrun⟩ := h.run hr.wellFormed.undelegated
    obtain ⟨info', hi', -, hexpiry⟩ := Controller.info_of_run hrun hi
    exact ⟨info', hi', hexpiry ▸ hlt⟩

/-- **Every record was written by an order**, which is open ever since. -/
theorem order_of_record (hrun : Run (Step D T rent verifies) s₀ tr s) (h₀ : Initial D s₀) {vm : VaultMM}
    (hvm : s.vaultMMs.lookup k = some vm) :
    ∃ as t bs ord user, tr = as ++ t :: bs ∧ t.label.Opens verifies k vm.maker user vm.otokenMint ord ∧
      ord.Open D s k vm.maker user vm.otokenMint t.pre.ctrl.clock (deliveredTotal k bs) := by
  have hnone : ¬∃ vm, s₀.vaultMMs.lookup k = some vm := by
    rw [h₀.vaultMMs]
    simp
  obtain ⟨as, t, bs, rfl, hpre, vm₁, hpost⟩ := hrun.exists_origin
    (P := fun u ↦ ∃ vm, u.vaultMMs.lookup k = some vm) hnone ⟨vm, hvm⟩
  obtain ⟨hbefore, hstep, hafter⟩ := hrun.split
  have hmove := hstep.move
  have hr := hmove.recorded (recorded_of_run hbefore h₀)
  rcases hmove.vaultMMs with heq | ⟨k₁, vm', n, hk₁, -, heq⟩ | ⟨ctx, ord, tx, i, r, hl, -, he⟩
  · exact absurd ⟨vm₁, heq ▸ hpost⟩ hpre
  · rw [heq] at hpost
    rcases Store.lookup_insert_eq_some.mp hpost with ⟨rfl, -⟩ | ⟨-, hold⟩
    · exact absurd ⟨vm', hk₁⟩ hpre
    · exact absurd ⟨vm₁, hold⟩ hpre
  · have hk : ctx.vault = k := by
      by_contra hne
      rw [he.state_eq, Finmap.lookup_insert_of_ne _ (Ne.symm hne)] at hpost
      exact hpre ⟨vm₁, hpost⟩
    subst hk
    have hopen : ord.Open D s ctx.vault ctx.maker ctx.user ctx.otokenMint t.pre.ctrl.clock
        (deliveredTotal ctx.vault bs) := by
      refine Run.invariant_history (I := fun u n ↦ ord.Open D u ctx.vault ctx.maker ctx.user ctx.otokenMint
        t.pre.ctrl.clock n) (he.opened hr) ?_ hafter
      intro u l u' n ho hs
      exact ho.step hs.move
    obtain ⟨m, hm, -⟩ := hopen.record
    obtain rfl := Option.some.inj (hm.symm.trans hvm)
    have hsigned : Ed25519.Succeeded verifies tx := by
      rw [hl] at hstep
      cases hstep with
      | call _ hix _ => exact hix
    exact ⟨as, t, bs, ord, ctx.user, rfl, ⟨ctx, tx, i, hl, rfl, rfl, rfl, rfl, hsigned, he.signed⟩, hopen⟩

end Settler

end OptionsProtocol
