import OptionsProtocol.Controller.Invariants
import OptionsProtocol.Settler.Machine

/-!
# Vaults and their records

An order opens a vault in the settler's name, mints against it once, and records for which maker its
oTokens are kept and how many of them are left. Nobody else mints against the vault afterwards, so
the record and the vault can be compared at any later time.

The makers' balances are kept apart from these records, one for each maker and series. A delivery
lowers both by the same amount, a redemption lowers only the balance, and an emergency withdrawal
clears the record but takes from the balance no more than it has. A balance is therefore never more
than the records of its maker and series add up to, and equal to their sum until the maker redeems.
-/

namespace OptionsProtocol

namespace Controller

variable {D : Deployment} {T : TokenProgram} {s s' : State} {l : Label}

/-- **Nobody but its owner can open a vault or change it**, other than by settling it. -/
theorem Move.lookup_of_stranger (hw : WellFormed D s) (h : Move D T s l s') {k : VaultKey}
    (hl : ∀ ix, l = .call ix → ix.signer ≠ k.owner) :
    s'.vaults.lookup k = s.vaults.lookup k ∨ ∃ v, s.vaults.lookup k = some v ∧
      s'.vaults.lookup k = some { v with settled := true } := by
  have hsame : s'.vaults = s.vaults → s'.vaults.lookup k = s.vaults.lookup k := by
    intro heq
    rw [heq]
  have hother : ∀ {k₁ : VaultKey} {w : Vault}, k ≠ k₁ → s'.vaults = s.vaults.insert k₁ w →
      s'.vaults.lookup k = s.vaults.lookup k := by
    intro k₁ w hne heq
    rw [heq, Finmap.lookup_insert_of_ne _ hne]
  -- the key of an instruction that only the owner may use is another one
  have howner : ∀ {ix : Instruction} {k₁ : VaultKey} {w : Vault}, l = .call ix →
      s.vaults.lookup k₁ = some w → w.owner = ix.signer → k ≠ k₁ := by
    rintro ix k₁ w hix hw₁ hown rfl
    apply hl ix hix
    rw [← hown, (hw.vault hw₁).key]
  cases h with
  | administered _ h => exact .inl (hsame h.vaults_eq)
  | @opened o c b id _ h =>
    refine .inl (hother ?_ (congrArg State.vaults h.state_eq))
    rintro rfl
    exact hl _ rfl rfl
  | deposited _ h =>
    exact .inl (hother (howner rfl h.vault_eq h.owner_eq) (congrArg State.vaults h.state_eq))
  | minted h =>
    exact .inl (hother (howner rfl h.vault_eq h.owner_eq) (congrArg State.vaults h.state_eq))
  | @settled ctx w info pool ben L _ h =>
    by_cases hk : k = ctx.vault
    · subst hk
      exact .inr ⟨w, h.vault_eq, by rw [h.state_eq, Finmap.lookup_insert]⟩
    · exact .inl (hother hk (congrArg State.vaults h.state_eq))
  | withdrawn h =>
    exact .inl (hother (howner rfl h.vault_eq h.owner_eq) (congrArg State.vaults h.state_eq))
  | redeemed _ h => exact .inl (hsame (by rw [h.state_eq]))
  | registered _ h => exact .inl (hsame (by rw [h.state_eq]))
  | priced h => exact .inl (hsame (by rw [h.state_eq]))
  | token _ => exact .inl rfl
  | tick _ => exact .inl rfl
  | created _ _ => exact .inl rfl

end Controller

namespace Settler

open Controller (VaultKey Vault)

variable {D : Deployment} {T : TokenProgram} {rent : ℕ → ℕ} {verifies : Ed25519.Signed → Bool}
  {s s' s₀ : State} {l : Label} {tr : List (Transition State Label)}

/-! ## The vault of an order -/

/-- **An order opens one vault**, with the user as its beneficiary and the order's amount minted
against it. -/
theorem ExecuteOrder.Effect.vaults_eq {ctx : ExecuteOrder} {ord : Order} {tx : Transaction} {i : ℕ}
    {r : ExecuteOrder.Course} (h : ExecuteOrder.Effect D T s ctx ord tx i r s') :
    s.ctrl.vaults.lookup ctx.vault = none ∧
    s'.ctrl.vaults = s.ctrl.vaults.insert ctx.vault
      { Vault.fresh ctx.vault ord.collateralMint ctx.user with
        collateralAmount := ord.collateralAmount.toNat
        otokenMint := ctx.otokenMint
        shortAmount := ord.amount.toNat } := by
  obtain ⟨id, hopen⟩ := Controller.openVault_effect h.openVault
  obtain ⟨v, user, pool, L, hdeposit⟩ := Controller.depositCollateral_effect h.deposit
  obtain ⟨v', info, dest, M, hmint⟩ := Controller.mintOtoken_effect h.mint
  obtain ⟨counter, hcounter, hvault⟩ := h.vault_eq
  obtain rfl : counter = ⟨D.settlerConfig, id⟩ := by
    rw [hopen.counter, Option.some.injEq] at hcounter
    exact hcounter.symm
  have hfresh : s.ctrl.vaults.lookup ctx.vault = none := hvault ▸ hopen.fresh
  refine ⟨hfresh, ?_⟩
  have hopened : r.opened.vaults =
      s.ctrl.vaults.insert ctx.vault (Vault.fresh ctx.vault ord.collateralMint ctx.user) := by
    rw [hopen.state_eq, hvault]
    rfl
  have hv : r.opened.vaults.lookup ctx.vault = some v := hdeposit.vault_eq
  rw [hopened, Finmap.lookup_insert, Option.some.injEq] at hv
  subst hv
  have hfunded : r.funded.vaults = r.opened.vaults.insert ctx.vault _ :=
    congrArg Controller.State.vaults hdeposit.state_eq
  have hv' : r.funded.vaults.lookup ctx.vault = some v' := hmint.vault_eq
  rw [hfunded, Finmap.lookup_insert, Option.some.injEq] at hv'
  subst hv'
  have hminted : r.minted.vaults = r.funded.vaults.insert ctx.vault _ :=
    congrArg Controller.State.vaults hmint.state_eq
  rw [h.state_eq]
  change r.minted.vaults = _
  rw [hminted, hfunded, hopened, Finmap.insert_insert, Finmap.insert_insert]
  simp [Vault.fresh, ExecuteOrder.mint]

theorem EmergencyWithdrawOrder.Effect.vaults_eq {ctx : EmergencyWithdrawOrder} {v : Vault}
    {vm : VaultMM} {b : MakerOTokenBalance} {L : Ledger} {c : Controller.State}
    (h : EmergencyWithdrawOrder.Effect D T s ctx v vm b L c s') :
    v.settled = false ∧
      s'.ctrl.vaults = s.ctrl.vaults.insert ctx.vault { v with settled := true } := by
  obtain ⟨v', pool, ben, L', hw⟩ := Controller.emergencyWithdrawVault_effect h.withdraw
  have hv : s.ctrl.vaults.lookup ctx.vault = some v' := hw.vault_eq
  rw [h.vault_eq, Option.some.injEq] at hv
  subst hv
  refine ⟨hw.unsettled, ?_⟩
  rw [h.state_eq, hw.state_eq]
  rfl

/-! ## Records -/

/-- The step delivers out of the vault. -/
def Label.DeliversFrom (k : VaultKey) : Label → Prop
  | .call (.physicalRedeem ctx _ _ _) => ctx.vault = k
  | _ => False

/-- The step redeems from the balance and hands the collateral to the maker. -/
def Label.RedeemsToMaker (k : BalanceKey) : Label → Prop
  | .call (.redeemForMM ctx _) => ctx.makerOtokenBalance = k
  | .call (.mmSelfRedeem ctx _) => ctx.makerOtokenBalance = k
  | _ => False

/-- The swap leaves the vaults as they are. -/
def Swap.SparesVaults (swap : Swap) : Prop := ∀ c c', swap c = .ok c' → c'.vaults = c.vaults

def Label.SparesVaults : Label → Prop
  | .call (.physicalRedeem _ _ _ swap) => swap.SparesVaults
  | _ => True

/-- **The records after a step**: as they were, or something was delivered out of one, or one was
cleared together with its vault, or an order wrote one. -/
theorem Move.vaultMMs (h : Move D T verifies s l s') :
    s'.vaultMMs = s.vaultMMs ∨
    (∃ k vm n, s.vaultMMs.lookup k = some vm ∧
      (l.DeliversFrom k ∨ ∃ v, s'.ctrl.vaults.lookup k = some v ∧ v.settled = true) ∧
      s'.vaultMMs = s.vaultMMs.insert k { vm with remainingAmount := n }) ∨
    (∃ ctx ord tx i r, l = .call (.executeOrder ctx ord tx i) ∧ ¬D.IsPda ctx.user ∧
      ExecuteOrder.Effect D T s ctx ord tx i r s') := by
  cases h with
  | configured _ h => exact .inl h.vaultMMs_eq
  | counted _ => exact .inl rfl
  | listed => exact .inl rfl
  | bumped _ => exact .inl rfl
  | cancelled => exact .inl rfl
  | executed huser _ h => exact .inr (.inr ⟨_, _, _, _, _, rfl, huser, h⟩)
  | settled _ _ => exact .inl rfl
  | @withdrawn _ v _ _ _ _ _ _ h =>
    refine .inr (.inl ⟨_, _, _, h.vaultMM_eq, .inr ⟨{ v with settled := true }, ?_, rfl⟩,
      by rw [h.state_eq]⟩)
    rw [h.vaults_eq.2, Finmap.lookup_insert]
  | redeemed _ h => exact .inl (by rw [h.state_eq])
  | delivered _ h => exact .inr (.inl ⟨_, _, _, h.vaultMM_eq, .inl rfl, by rw [h.state_eq]⟩)
  | controller _ _ _ => exact .inl rfl
  | lamports _ => exact .inl rfl

/-- **The makers' balances after a step**: as they were, or something was taken from one, or an order
wrote one. -/
theorem Move.makerOtokenBalances (h : Move D T verifies s l s') :
    s'.makerOtokenBalances = s.makerOtokenBalances ∨
    (∃ k b n, s.makerOtokenBalances.lookup k = some b ∧ n ≤ b.balance ∧
      s'.makerOtokenBalances = s.makerOtokenBalances.insert k { b with balance := n }) ∨
    (∃ ctx ord tx i r, l = .call (.executeOrder ctx ord tx i) ∧
      ExecuteOrder.Effect D T s ctx ord tx i r s') := by
  cases h with
  | configured _ h => exact .inl h.makerOtokenBalances_eq
  | counted _ => exact .inl rfl
  | listed => exact .inl rfl
  | bumped _ => exact .inl rfl
  | cancelled => exact .inl rfl
  | executed _ _ h => exact .inr (.inr ⟨_, _, _, _, _, rfl, h⟩)
  | settled _ _ => exact .inl rfl
  | withdrawn _ h =>
    exact .inr (.inl ⟨_, _, _, h.balance_eq, Nat.sub_le _ _, by rw [h.state_eq]⟩)
  | redeemed _ h =>
    exact .inr (.inl ⟨_, _, _, h.loaded.balance_eq, Nat.sub_le _ _, by rw [h.state_eq]⟩)
  | delivered _ h =>
    exact .inr (.inl ⟨_, _, _, h.loaded.balance_eq, Nat.sub_le _ _, by rw [h.state_eq]⟩)
  | controller _ _ _ => exact .inl rfl
  | lamports _ => exact .inl rfl

/-- The vault a record is about: the settler's, bound to the series of the record, for the benefit of
somebody who signed for it. -/
structure VaultMM.Ok (D : Deployment) (vm : VaultMM) (v : Vault) : Prop where
  owner : v.owner = D.settlerConfig
  otokenMint : v.otokenMint = vm.otokenMint
  isOtokenMint : D.IsOtokenMint vm.otokenMint
  beneficiary : ¬D.IsPda v.beneficiary

/-- Every record is about a vault, and every balance is stored under its maker and series. -/
structure Recorded (D : Deployment) (s : State) : Prop where
  wellFormed : Controller.WellFormed D s.ctrl
  vault : ∀ k vm, s.vaultMMs.lookup k = some vm →
    ∃ v, s.ctrl.vaults.lookup k = some v ∧ vm.Ok D v
  balance : ∀ k b, s.makerOtokenBalances.lookup k = some b → b.maker = k.maker

theorem Initial.recorded (h : Initial D s) : Recorded D s where
  wellFormed := h.ctrl.wellFormed
  vault k vm hvm := by
    rw [h.vaultMMs] at hvm
    exact absurd hvm (by simp)
  balance k b hb := by
    rw [h.makerOtokenBalances] at hb
    exact absurd hb (by simp)

theorem VaultMM.Ok.otokenMint_ne {vm : VaultMM} {v : Vault} (h : vm.Ok D v) :
    v.otokenMint ≠ Pubkey.default := by
  rw [h.otokenMint]
  intro hd
  exact D.otokenMint_ne_default (hd ▸ h.isOtokenMint)

theorem VaultMM.Ok.later {vm : VaultMM} {v v' : Vault} (h : vm.Ok D v) (hl : v.Later v') :
    vm.Ok D v' where
  owner := hl.owner.trans h.owner
  otokenMint := (hl.otokenMint h.otokenMint_ne).trans h.otokenMint
  isOtokenMint := h.isOtokenMint
  beneficiary := hl.beneficiary ▸ h.beneficiary

theorem Move.vault_later (hw : Controller.WellFormed D s.ctrl) (h : Move D T verifies s l s')
    {k : VaultKey} {v : Vault} (hv : s.ctrl.vaults.lookup k = some v) :
    ∃ v', s'.ctrl.vaults.lookup k = some v' ∧ v.Later v' :=
  h.ctrl_invariant (J := fun c ↦ ∃ v', c.vaults.lookup k = some v' ∧ v.Later v')
    (fun _ _ _ ⟨_, hv', hl⟩ hs ↦ (hs.move.vault_later hv').imp fun _ h ↦ ⟨h.1, hl.trans h.2⟩)
    hw.undelegated ⟨v, hv, .refl v⟩

theorem ExecuteOrder.Effect.record_ok {ctx : ExecuteOrder} {ord : Order} {tx : Transaction} {i : ℕ}
    {r : ExecuteOrder.Course} (hw : Controller.WellFormed D s'.ctrl) (huser : ¬D.IsPda ctx.user)
    (h : ExecuteOrder.Effect D T s ctx ord tx i r s') :
    ∃ v, s'.ctrl.vaults.lookup ctx.vault = some v ∧
      (⟨ctx.maker, ctx.vault, ctx.otokenMint, ord.amount.toNat⟩ : VaultMM).Ok D v := by
  have hv := congrArg (Finmap.lookup ctx.vault) h.vaults_eq.2
  rw [Finmap.lookup_insert] at hv
  obtain ⟨counter, -, hvault⟩ := h.vault_eq
  have hpos : 0 < ord.amount.toNat := lt_of_lt_of_le (by decide) h.amount_ge
  obtain ⟨info, hinfo, -⟩ := (hw.vault hv).backed hpos
  exact ⟨_, hv, congrArg VaultKey.owner hvault, rfl, (hw.info hinfo).2.1, huser⟩

theorem Move.recorded (h : Move D T verifies s l s') (hr : Recorded D s) : Recorded D s' := by
  have hw : Controller.WellFormed D s'.ctrl := h.ctrl_invariant
    (fun _ _ _ hw hs ↦ hs.move.wellFormed hw) hr.wellFormed.undelegated hr.wellFormed
  have hold : ∀ {k vm}, s.vaultMMs.lookup k = some vm →
      ∃ v, s'.ctrl.vaults.lookup k = some v ∧ vm.Ok D v := by
    intro k vm hvm
    obtain ⟨v, hv, hok⟩ := hr.vault k vm hvm
    obtain ⟨v', hv', hl⟩ := h.vault_later hr.wellFormed hv
    exact ⟨v', hv', hok.later hl⟩
  refine ⟨hw, fun k vm hvm ↦ ?_, fun k b hb ↦ ?_⟩
  · rcases h.vaultMMs with heq | ⟨k₁, vm₁, n, hk₁, -, heq⟩ | ⟨ctx, ord, tx, i, r, rfl, huser, he⟩
    · exact hold (heq ▸ hvm)
    · rw [heq] at hvm
      rcases Store.lookup_insert_eq_some.mp hvm with ⟨rfl, rfl⟩ | ⟨-, hvm⟩
      · obtain ⟨v, hv, hok⟩ := hold hk₁
        exact ⟨v, hv, hok.owner, hok.otokenMint, hok.isOtokenMint, hok.beneficiary⟩
      · exact hold hvm
    · rw [he.state_eq] at hvm
      rcases Store.lookup_insert_eq_some.mp hvm with ⟨rfl, rfl⟩ | ⟨-, hvm⟩
      · exact he.record_ok hw huser
      · exact hold hvm
  · rcases h.makerOtokenBalances with heq | ⟨k₁, b₁, n, hk₁, -, heq⟩ | ⟨ctx, ord, tx, i, r, rfl, he⟩
    · exact hr.balance k b (heq ▸ hb)
    · rw [heq] at hb
      rcases Store.lookup_insert_eq_some.mp hb with ⟨rfl, rfl⟩ | ⟨-, hb⟩
      · exact hr.balance _ b₁ hk₁
      · exact hr.balance k b hb
    · rw [he.state_eq] at hb
      rcases Store.lookup_insert_eq_some.mp hb with ⟨rfl, rfl⟩ | ⟨-, hb⟩
      · rfl
      · exact hr.balance k b hb

theorem recorded_of_run (hrun : Run (Step D T rent verifies) s₀ tr s) (h₀ : Initial D s₀) :
    Recorded D s :=
  Run.invariant (I := Recorded D) h₀.recorded (fun _ _ _ hr hs ↦ hs.move.recorded hr) hrun

/-! ## A record and its vault -/

/-- **The settler's vaults after a step.** Unless a swap interferes, they are only ever settled, and
opened by orders. -/
theorem Move.lookup_of_settler (h : Move D T verifies s l s') (hr : Recorded D s)
    (hspares : l.SparesVaults) {k : VaultKey} (hk : k.owner = D.settlerConfig) :
    s'.ctrl.vaults.lookup k = s.ctrl.vaults.lookup k ∨
    (∃ v, s.ctrl.vaults.lookup k = some v ∧
      s'.ctrl.vaults.lookup k = some { v with settled := true }) ∨
    (∃ ctx ord tx i r, l = .call (.executeOrder ctx ord tx i) ∧ ctx.vault = k ∧
      ExecuteOrder.Effect D T s ctx ord tx i r s') := by
  have hsame : s'.ctrl.vaults = s.ctrl.vaults →
      s'.ctrl.vaults.lookup k = s.ctrl.vaults.lookup k := by
    intro heq
    rw [heq]
  have hstranger : ∀ {m : Controller.Label} {c : Controller.State},
      (∀ ix, m = .call ix → ¬D.IsPda ix.signer) → Controller.Step D T s.ctrl m c →
      c.vaults.lookup k = s.ctrl.vaults.lookup k ∨ ∃ v, s.ctrl.vaults.lookup k = some v ∧
        c.vaults.lookup k = some { v with settled := true } := by
    intro m c hsigner hs
    apply hs.move.lookup_of_stranger hr.wellFormed
    intro ix hix heq
    apply hsigner ix hix
    rw [heq, hk]
    exact D.isPda_settlerConfig
  cases h with
  | configured _ h => exact .inl (hsame (by rw [h.ctrl_eq]))
  | @counted _ _ _ ctrl h =>
    have hexec : Controller.exec D T (.initializeCounter D.settlerConfig) s.ctrl = .ok ctrl := h
    exact .inl (hsame (Controller.administered_of_exec hexec trivial).vaults_eq)
  | listed => exact .inl rfl
  | bumped _ => exact .inl rfl
  | cancelled => exact .inl rfl
  | @executed ctx _ _ _ _ _ _ _ h =>
    by_cases hctx : ctx.vault = k
    · exact .inr (.inr ⟨_, _, _, _, _, rfl, hctx, h⟩)
    · exact .inl (by rw [h.vaults_eq.2, Finmap.lookup_insert_of_ne _ (Ne.symm hctx)])
  | @settled _ ctx c hsigner h =>
    have hix : ∀ ix, Controller.Label.call (.settleVault ctx) = .call ix → ¬D.IsPda ix.signer := by
      intro ix hix
      obtain rfl := Controller.Label.call.inj hix
      exact hsigner
    exact (hstranger hix (step_of_settleVault hsigner h)).imp id .inl
  | @withdrawn ctx w _ _ _ _ _ _ h =>
    by_cases hctx : k = ctx.vault
    · subst hctx
      exact .inr (.inl ⟨w, h.vault_eq, by rw [h.vaults_eq.2, Finmap.lookup_insert]⟩)
    · exact .inl (by rw [h.vaults_eq.2, Finmap.lookup_insert_of_ne _ hctx])
  | redeemed _ h =>
    obtain ⟨info, otoken, coll, pool, B, L, he⟩ := Controller.redeem_effect h.redeem
    exact .inl (hsame (by rw [h.state_eq, he.state_eq]))
  | delivered _ h =>
    obtain ⟨info, otoken, coll, pool, B, L, he⟩ := Controller.redeem_effect h.redeem
    refine .inl (hsame ?_)
    rw [h.state_eq]
    exact (hspares _ _ h.swap).trans (by rw [he.state_eq])
  | controller hsigner _ h => exact (hstranger hsigner h).imp id .inl
  | lamports _ => exact .inl rfl

theorem Move.vault_of_settler (h : Move D T verifies s l s') (hr : Recorded D s)
    (hspares : l.SparesVaults) {k : VaultKey} {v : Vault} (hv : s.ctrl.vaults.lookup k = some v)
    (hown : v.owner = D.settlerConfig) :
    ∃ v', s'.ctrl.vaults.lookup k = some v' ∧ (v' = v ∨ v' = { v with settled := true }) := by
  have hk : k.owner = D.settlerConfig := by rw [(hr.wellFormed.vault hv).key, hown]
  rcases h.lookup_of_settler hr hspares hk with heq | ⟨w, hw, hw'⟩ | ⟨ctx, _, _, _, _, -, rfl, he⟩
  · exact ⟨v, by rw [heq, hv], .inl rfl⟩
  · rw [hv, Option.some.injEq] at hw
    exact ⟨_, hw', .inr (by rw [hw])⟩
  · rw [he.vaults_eq.1] at hv
    exact absurd hv (by simp)

/-- While the vault is open its record says how much was minted against it. -/
def Intact (k : VaultKey) (s : State) : Prop :=
  ∀ vm, s.vaultMMs.lookup k = some vm → ∃ v, s.ctrl.vaults.lookup k = some v ∧
    (v.settled = false → vm.remainingAmount = v.shortAmount)

theorem Move.intact {k : VaultKey} (h : Move D T verifies s l s') (hspares : l.SparesVaults)
    (hl : ¬l.DeliversFrom k) (hr : Recorded D s) (hi : Intact k s) : Intact k s' := by
  have hold : ∀ vm, s.vaultMMs.lookup k = some vm → ∃ v, s'.ctrl.vaults.lookup k = some v ∧
      (v.settled = false → vm.remainingAmount = v.shortAmount) := by
    intro vm hvm
    obtain ⟨v, hv, heq⟩ := hi vm hvm
    obtain ⟨w, hw, hok⟩ := hr.vault k vm hvm
    rw [hv, Option.some.injEq] at hw
    subst hw
    obtain ⟨v', hv', rfl | rfl⟩ := h.vault_of_settler hr hspares hv hok.owner
    · exact ⟨_, hv', heq⟩
    · exact ⟨_, hv', fun hs ↦ absurd hs (by simp)⟩
  intro vm hvm
  rcases h.vaultMMs with heq | ⟨k₁, vm₁, n, -, htaken, heq⟩ | ⟨ctx, ord, tx, i, r, rfl, -, he⟩
  · exact hold vm (heq ▸ hvm)
  · rw [heq] at hvm
    rcases Store.lookup_insert_eq_some.mp hvm with ⟨rfl, -⟩ | ⟨-, hvm⟩
    · obtain ⟨v, hv, hsettled⟩ := htaken.resolve_left hl
      exact ⟨v, hv, fun hs ↦ absurd (hsettled.symm.trans hs) (by simp)⟩
    · exact hold vm hvm
  · rw [he.state_eq] at hvm
    rcases Store.lookup_insert_eq_some.mp hvm with ⟨rfl, rfl⟩ | ⟨-, hvm⟩
    · exact ⟨_, by rw [he.vaults_eq.2, Finmap.lookup_insert], fun _ ↦ rfl⟩
    · exact hold vm hvm

/-! ## Balances and records -/

/-- What a record counts for a balance. -/
def VaultMM.remainingOf (k : BalanceKey) (vm : VaultMM) : ℕ :=
  if vm.maker = k.maker ∧ vm.otokenMint = k.otokenMint then vm.remainingAmount else 0

/-- What the records of a maker and series add up to. -/
def remainingTotal (s : State) (k : BalanceKey) : ℕ :=
  Store.total (fun _ vm ↦ vm.remainingOf k) s.vaultMMs

theorem custody_of_insert {k : BalanceKey} {b : MakerOTokenBalance}
    (h : s'.makerOtokenBalances = s.makerOtokenBalances.insert k b) (k' : BalanceKey) :
    s'.custody k' = if k' = k then b.balance else s.custody k' := by
  rw [State.custody, h, Store.lookup_insert_eq]
  split <;> rfl

theorem remainingTotal_of_insert {k : VaultKey} {vm : VaultMM} {n : ℕ}
    (hvm : s.vaultMMs.lookup k = some vm)
    (h : s'.vaultMMs = s.vaultMMs.insert k { vm with remainingAmount := n }) (hn : n ≤ vm.remainingAmount)
    (k' : BalanceKey) :
    remainingTotal s k' = remainingTotal s' k' +
      (if vm.maker = k'.maker ∧ vm.otokenMint = k'.otokenMint then vm.remainingAmount - n else 0) := by
  have key := Store.total_insert_of_lookup (fun _ vm ↦ VaultMM.remainingOf k' vm)
    { vm with remainingAmount := n } hvm
  rw [← h] at key
  change remainingTotal s' k' + _ = remainingTotal s k' + _ at key
  simp only [VaultMM.remainingOf] at key
  split
  · rename_i hm
    rw [if_pos hm, if_pos hm] at key
    omega
  · rename_i hm
    rw [if_neg hm, if_neg hm] at key
    exact key.symm

/-- **A balance and its records after a step.** Both gain, or both lose, the same amount; or a record
is cleared of `n`, and the balance loses what it can of that; or the maker redeems. -/
theorem Move.custody_cases (h : Move D T verifies s l s') (hr : Recorded D s) (k : BalanceKey) :
    (∃ n, s'.custody k = s.custody k + n ∧ remainingTotal s' k = remainingTotal s k + n) ∨
    (∃ n, s.custody k = s'.custody k + n ∧ remainingTotal s k = remainingTotal s' k + n) ∨
    (∃ n, s'.custody k = s.custody k - min n (s.custody k) ∧
      remainingTotal s k = remainingTotal s' k + n) ∨
    (l.RedeemsToMaker k ∧ s'.custody k ≤ s.custody k ∧ remainingTotal s' k = remainingTotal s k) := by
  have hquiet : s'.makerOtokenBalances = s.makerOtokenBalances → s'.vaultMMs = s.vaultMMs →
      ∃ n, s'.custody k = s.custody k + n ∧ remainingTotal s' k = remainingTotal s k + n :=
    fun hb hvm ↦ ⟨0, by rw [State.custody, hb]; rfl, by rw [remainingTotal, hvm]; rfl⟩
  have hcustody : ∀ {k : BalanceKey} {b : MakerOTokenBalance},
      s.makerOtokenBalances.lookup k = some b → s.custody k = b.balance := fun {k b} hb ↦ by
    rw [State.custody, hb, Option.elim_some]
  cases h with
  | configured _ h => exact .inl (hquiet h.makerOtokenBalances_eq h.vaultMMs_eq)
  | counted _ => exact .inl (hquiet rfl rfl)
  | listed => exact .inl (hquiet rfl rfl)
  | bumped _ => exact .inl (hquiet rfl rfl)
  | cancelled => exact .inl (hquiet rfl rfl)
  | settled _ _ => exact .inl (hquiet rfl rfl)
  | controller _ _ _ => exact .inl (hquiet rfl rfl)
  | lamports _ => exact .inl (hquiet rfl rfl)
  | @executed ctx ord _ _ _ _ _ _ h =>
    refine .inl ⟨if ctx.maker = k.maker ∧ ctx.otokenMint = k.otokenMint then ord.amount.toNat else 0,
      ?_, ?_⟩
    · rw [custody_of_insert (congrArg State.makerOtokenBalances h.state_eq)]
      have hk : k = ctx.balanceKey ↔ ctx.maker = k.maker ∧ ctx.otokenMint = k.otokenMint := by
        cases k
        simp [ExecuteOrder.balanceKey, eq_comm]
      simp only [hk]
      split
      · rw [hk.mpr ‹_›]
      · rfl
    · rw [remainingTotal, h.state_eq]
      exact (Store.total_insert_of_lookup_eq_none _ _ h.fresh).trans (Nat.add_comm _ _)
  | @withdrawn ctx v vm b _ _ _ _ h =>
    have htotal := remainingTotal_of_insert h.vaultMM_eq (congrArg State.vaultMMs h.state_eq)
      (Nat.zero_le _) k
    have hmaker : vm.maker = ctx.maker := h.maker_eq.trans (hr.balance _ _ h.balance_eq)
    rw [hmaker, h.otokenMint_eq] at htotal
    have hb := custody_of_insert (congrArg State.makerOtokenBalances h.state_eq) k
    by_cases hk : ctx.maker = k.maker ∧ ctx.otokenMint = k.otokenMint
    · obtain rfl : k = ⟨ctx.maker, ctx.otokenMint⟩ := by cases k; simp_all
      rw [if_pos ⟨rfl, rfl⟩, Nat.sub_zero] at htotal
      rw [if_pos rfl, ← hcustody h.balance_eq] at hb
      refine .inr (.inr (.inl ⟨_, hb.trans ?_, htotal⟩))
      rw [EmergencyWithdrawOrder.burned, hcustody h.balance_eq]
    · have hne : k ≠ ⟨ctx.maker, ctx.otokenMint⟩ := by
        rintro rfl
        exact hk ⟨rfl, rfl⟩
      rw [if_neg hk, Nat.add_zero] at htotal
      rw [if_neg hne] at hb
      exact .inl ⟨0, hb, htotal.symm⟩
  | @redeemed ix ctx n acc _ _ _ _ hix h =>
    have htotal : remainingTotal s' k = remainingTotal s k := by
      rw [remainingTotal, h.state_eq, remainingTotal]
    have hb := custody_of_insert (congrArg State.makerOtokenBalances h.state_eq) k
    by_cases hk : k = ctx.makerOtokenBalance
    · subst hk
      rw [if_pos rfl] at hb
      refine .inr (.inr (.inr ⟨?_, ?_, htotal⟩))
      · rcases hix with rfl | rfl <;> rfl
      · rw [hb, hcustody h.loaded.balance_eq]
        exact Nat.sub_le _ _
    · rw [if_neg hk] at hb
      exact .inl ⟨0, hb, htotal⟩
  | @delivered ctx n _ _ r _ _ h =>
    have htotal := remainingTotal_of_insert h.vaultMM_eq (congrArg State.vaultMMs h.state_eq)
      (Nat.sub_le _ _) k
    rw [h.vaultMM_maker, h.vaultMM_otokenMint, Nat.sub_sub_self h.remaining] at htotal
    have hb := custody_of_insert (congrArg State.makerOtokenBalances h.state_eq) k
    have hcovered := h.covered
    rw [h.key_eq] at hb
    by_cases hk : r.acc.balance.maker = k.maker ∧ ctx.otokenMint = k.otokenMint
    · obtain rfl : k = ⟨r.acc.balance.maker, ctx.otokenMint⟩ := by cases k; simp_all
      rw [if_pos ⟨rfl, rfl⟩] at htotal
      rw [if_pos rfl] at hb
      refine .inr (.inl ⟨n, ?_, htotal⟩)
      rw [hb, hcustody (h.key_eq ▸ h.loaded.balance_eq)]
      exact (Nat.sub_add_cancel hcovered).symm
    · have hne : k ≠ ⟨r.acc.balance.maker, ctx.otokenMint⟩ := by
        rintro rfl
        exact hk ⟨rfl, rfl⟩
      rw [if_neg hk, Nat.add_zero] at htotal
      rw [if_neg hne] at hb
      exact .inl ⟨0, hb, htotal.symm⟩

/-- Until the maker redeems, its balance is what its records add up to. -/
theorem Move.custody_eq_remainingTotal {k : BalanceKey} (h : Move D T verifies s l s')
    (hl : ¬l.RedeemsToMaker k) (hr : Recorded D s) (heq : s.custody k = remainingTotal s k) :
    s'.custody k = remainingTotal s' k := by
  rcases h.custody_cases hr k with ⟨n, hb, ht⟩ | ⟨n, hb, ht⟩ | ⟨n, hb, ht⟩ | ⟨hredeems, -⟩
  · omega
  · omega
  · omega
  · exact absurd hredeems hl

end Settler

end OptionsProtocol
