import OptionsProtocol.Controller.PoolAccounting

/-!
# The life of a series

What a series owes is decided by three running totals: the oTokens minted against its vaults, the
oTokens redeemed, and what the redemptions paid. Every oToken in circulation was minted by the
controller against some vault, and a redemption pays for the oTokens it destroys as if they were
settled alone; so the supply and the redemptions together never exceed what was minted, and the
payments never exceed the payout of everything redeemed, taken at once.

The first of these needs the factory to hand the mints it creates to this controller, which is what
its `controller_authority` constraint checks against the controller it is configured with.
-/

namespace OptionsProtocol

namespace Controller

open Except FloorSum

variable {D : Deployment} {T : TokenProgram} {s s' s₀ : State} {l : Label}
  {tr : List (Transition State Label)} {o M : Pubkey} {m n : ℕ}

/-! ## Totals of a series -/

/-- The oTokens of `o` a vault has minted. -/
def Vault.shortOf (o : Pubkey) (v : Vault) : ℕ := if v.otokenMint = o then v.shortAmount else 0

/-- The oTokens of `o` minted against vaults. -/
def mintedTotal (s : State) (o : Pubkey) : ℕ := Store.total (fun _ v ↦ v.shortOf o) s.vaults

/-- What redemptions of `o` have paid. -/
def paidTotal (s : State) (o : Pubkey) : ℕ := (s.log.map (Event.paidOf o)).sum

/-- The payout of `n` oTokens once the series has its price, and nothing before. -/
def OTokenInfo.claim (info : OTokenInfo) (n : ℕ) : ℕ :=
  if 0 < info.expiryPrice then info.payout n else 0

/-- The claim of `n` oTokens of `o`; nothing before the series is registered. -/
def claim (s : State) (o : Pubkey) (n : ℕ) : ℕ :=
  (s.otokenInfos.lookup o).elim 0 fun info ↦ info.claim n

theorem OTokenInfo.payout_add_le (info : OTokenInfo) (m n : ℕ) :
    info.payout m + info.payout n ≤ info.payout (m + n) := by
  simp only [payout, payoutOf]
  split
  · exact scale_add_le m n
  · exact le_rfl

theorem OTokenInfo.payout_mono (info : OTokenInfo) (h : m ≤ n) : info.payout m ≤ info.payout n := by
  simp only [payout, payoutOf]
  split
  · exact Controller.required_mono h
  · exact le_rfl

@[simp] theorem OTokenInfo.claim_zero (info : OTokenInfo) : info.claim 0 = 0 := by
  rw [claim, payout_zero, ite_self]

theorem OTokenInfo.claim_le_payout (info : OTokenInfo) (n : ℕ) : info.claim n ≤ info.payout n := by
  rw [claim]
  split
  · exact le_rfl
  · exact Nat.zero_le _

theorem OTokenInfo.claim_add_le (info : OTokenInfo) (m n : ℕ) :
    info.claim m + info.claim n ≤ info.claim (m + n) := by
  simp only [claim]
  split
  · exact info.payout_add_le m n
  · exact le_rfl

theorem OTokenInfo.claim_mono (info : OTokenInfo) (h : m ≤ n) : info.claim m ≤ info.claim n := by
  simp only [claim]
  split
  · exact info.payout_mono h
  · exact le_rfl

theorem claim_eq {info : OTokenInfo} (h : s.otokenInfos.lookup o = some info) (n : ℕ) :
    claim s o n = info.claim n := by
  rw [claim, h, Option.elim_some]

/-- A claim never shrinks: a series keeps its price, and has no claims before it has one. -/
theorem Move.claim_le (h : Move D T s l s') (o : Pubkey) (n : ℕ) : claim s o n ≤ claim s' o n := by
  cases hi : s.otokenInfos.lookup o with
  | none =>
    rw [claim, hi, Option.elim_none]
    exact Nat.zero_le _
  | some info =>
    obtain ⟨info', hi', hl⟩ := h.info_later hi
    rw [claim_eq hi, claim_eq hi']
    rcases hl with rfl | ⟨h0, -⟩
    · exact le_rfl
    · rw [OTokenInfo.claim, if_neg (by omega)]
      exact Nat.zero_le _

/-! ## How a step moves them -/

/-- The oTokens of `o` a step mints. -/
def Label.mintedOf (o : Pubkey) : Label → ℕ
  | .call (.mintOtoken ctx n) => if ctx.otokenMint = o then n else 0
  | _ => 0

/-- The oTokens of `o` a step redeems. -/
def Label.redeemedOf (o : Pubkey) : Label → ℕ
  | .call (.redeem ctx n) => if ctx.otokenMint = o then n else 0
  | _ => 0

/-- What a step pays for the oTokens of `o` it redeems. -/
def paidOf (o : Pubkey) (t : Transition State Label) : ℕ :=
  match t.label with
  | .call (.redeem ctx n) => if ctx.otokenMint = o then
      (t.pre.otokenInfos.lookup ctx.otokenMint).elim 0 fun info ↦ info.payout n else 0
  | _ => 0

/-- The step is not a redemption. -/
def Label.NotRedeem (l : Label) : Prop := ∀ ctx n, l ≠ .call (.redeem ctx n)

theorem Label.notRedeem_or (l : Label) : l.NotRedeem ∨ ∃ ctx n, l = .call (.redeem ctx n) := by
  by_cases h : ∃ ctx n, l = .call (.redeem ctx n)
  · exact .inr h
  · exact .inl fun ctx n hl ↦ h ⟨ctx, n, hl⟩

theorem Label.NotRedeem.redeemedOf_eq (hl : l.NotRedeem) : l.redeemedOf o = 0 := by
  unfold Label.redeemedOf
  split
  · exact absurd rfl (hl _ _)
  · rfl

theorem Label.NotRedeem.paidOf_eq (hl : l.NotRedeem) : paidOf o ⟨s, l, s'⟩ = 0 := by
  unfold paidOf
  split
  · exact absurd ‹_› (hl _ _)
  · rfl

theorem Move.log_sum (h : Move D T s l s') (hl : l.NotRedeem) {f : Event → ℕ}
    (hf : ∀ e, (∀ o r n p, e ≠ .redeemed o r n p) → f e = 0) :
    (s'.log.map f).sum = (s.log.map f).sum := by
  have hone : ∀ e, (∀ o r n p, e ≠ .redeemed o r n p) →
      ((s.log ++ [e]).map f).sum = (s.log.map f).sum := fun e he ↦ by
    rw [List.map_append, List.sum_append, List.map_singleton, List.sum_singleton, hf e he,
      Nat.add_zero]
  cases h with
  | administered _ h =>
    obtain ⟨es, hlog, hes⟩ := h.log_eq
    have hzero : (es.map f).sum = 0 := List.sum_eq_zero fun x hx ↦ by
      obtain ⟨e, he, rfl⟩ := List.mem_map.mp hx
      refine hf e ?_
      rintro o r n p rfl
      exact hes _ he
    rw [hlog, List.map_append, List.sum_append, hzero, Nat.add_zero]
  | opened h => rw [h.state_eq]; exact hone _ nofun
  | deposited _ h => rw [h.state_eq]; exact hone _ nofun
  | minted h => rw [h.state_eq]; exact hone _ nofun
  | settled h => rw [h.state_eq]; exact hone _ nofun
  | redeemed _ h => exact absurd rfl (hl _ _)
  | withdrawn h => rw [h.state_eq]; exact hone _ nofun
  | registered _ h => rw [h.state_eq]
  | priced h => rw [h.state_eq]
  | token _ => rfl
  | tick _ => rfl
  | created _ _ => rfl

theorem Move.redeemedTotal_eq (h : Move D T s l s') (o : Pubkey) :
    redeemedTotal s' o = redeemedTotal s o + l.redeemedOf o := by
  rcases l.notRedeem_or with hl | ⟨ctx, n, rfl⟩
  · rw [hl.redeemedOf_eq, Nat.add_zero]
    refine h.log_sum hl fun e he ↦ ?_
    cases e with
    | redeemed o r n p => exact absurd rfl (he o r n p)
    | _ => rfl
  · cases h with
    | redeemed _ h =>
      rw [redeemedTotal, redeemedTotal, h.state_eq, List.map_append, List.sum_append]
      simp [Event.redeemedOf, Label.redeemedOf]
    | administered hix _ => exact absurd hix id

theorem Move.paidTotal_eq (h : Move D T s l s') (o : Pubkey) :
    paidTotal s' o = paidTotal s o + paidOf o ⟨s, l, s'⟩ := by
  rcases l.notRedeem_or with hl | ⟨ctx, n, rfl⟩
  · rw [hl.paidOf_eq, Nat.add_zero]
    refine h.log_sum hl fun e he ↦ ?_
    cases e with
    | redeemed o r n p => exact absurd rfl (he o r n p)
    | _ => rfl
  · cases h with
    | redeemed _ h =>
      rw [paidTotal, paidTotal, h.state_eq, List.map_append, List.sum_append]
      simp [Event.paidOf, paidOf, h.info_eq]
    | administered hix _ => exact absurd hix id

/-- The oTokens of `o` a `mint_otoken` created. -/
def Event.mintedOf (o : Pubkey) : Event → ℕ
  | .otokenMinted _ _ otoken amount => if otoken = o then amount else 0
  | _ => 0

/-- All oTokens of `o` the log says were minted. -/
def loggedMints (s : State) (o : Pubkey) : ℕ := (s.log.map (Event.mintedOf o)).sum

theorem Move.loggedMints_eq (h : Move D T s l s') (o : Pubkey) :
    loggedMints s' o = loggedMints s o + l.mintedOf o := by
  have hone : ∀ {e : Event}, s'.log = s.log ++ [e] → Event.mintedOf o e = l.mintedOf o →
      loggedMints s' o = loggedMints s o + l.mintedOf o := by
    intro e hlog he
    rw [loggedMints, hlog, List.map_append, List.sum_append, List.map_singleton, List.sum_singleton,
      he, loggedMints]
  have hsame : s'.log = s.log → l.mintedOf o = 0 →
      loggedMints s' o = loggedMints s o + l.mintedOf o := by
    intro hlog hzero
    rw [loggedMints, hlog, hzero, loggedMints, Nat.add_zero]
  cases h with
  | @administered ix _ hix h =>
    obtain ⟨es, hlog, hes⟩ := h.log_eq
    have hzero : (es.map (Event.mintedOf o)).sum = 0 := by
      apply List.sum_eq_zero
      intro x hx
      obtain ⟨e, he, rfl⟩ := List.mem_map.mp hx
      have hadmin := hes e he
      cases e with
      | otokenMinted _ _ _ _ => exact absurd hadmin id
      | _ => rfl
    have hminted : Label.mintedOf o (.call ix) = 0 := by
      cases ix <;> first | rfl | exact absurd hix id
    rw [loggedMints, hlog, List.map_append, List.sum_append, hzero, hminted, loggedMints]
  | opened h => exact hone (congrArg State.log h.state_eq) rfl
  | deposited _ h => exact hone (congrArg State.log h.state_eq) rfl
  | minted h => exact hone (congrArg State.log h.state_eq) rfl
  | settled h => exact hone (congrArg State.log h.state_eq) rfl
  | redeemed _ h => exact hone (congrArg State.log h.state_eq) rfl
  | withdrawn h => exact hone (congrArg State.log h.state_eq) rfl
  | registered _ h => exact hsame (by rw [h.state_eq]) rfl
  | priced h => exact hsame (by rw [h.state_eq]) rfl
  | token _ => exact hsame rfl rfl
  | tick _ => exact hsame rfl rfl
  | created _ _ => exact hsame rfl rfl

theorem mintedTotal_insert {k : VaultKey} {v v' : Vault} {t : State}
    (hv : s.vaults.lookup k = some v) (ht : t.vaults = s.vaults.insert k v') (o : Pubkey) :
    mintedTotal t o + v.shortOf o = mintedTotal s o + v'.shortOf o := by
  rw [mintedTotal, mintedTotal, ht]
  exact Store.total_insert_of_lookup _ v' hv

theorem Move.mintedTotal_eq (hw : WellFormed D s) (h : Move D T s l s') (o : Pubkey) :
    mintedTotal s' o = mintedTotal s o + l.mintedOf o := by
  have hsame : ∀ {k v v'}, s.vaults.lookup k = some v → s'.vaults = s.vaults.insert k v' →
      v'.shortOf o = v.shortOf o → mintedTotal s' o = mintedTotal s o := fun hv ht heq ↦ by
    have key := mintedTotal_insert hv ht o
    omega
  cases h with
  | @administered ix _ hix h =>
    have hzero : Label.mintedOf o (.call ix) = 0 := by
      cases ix <;> first | rfl | exact absurd hix id
    rw [mintedTotal, h.vaults_eq, hzero]
    rfl
  | opened h =>
    rw [h.state_eq, mintedTotal, Store.total_insert_of_lookup_eq_none _ _ h.fresh, Nat.add_comm]
    simp [Vault.shortOf, Label.mintedOf, mintedTotal]
  | deposited _ h => exact hsame h.vault_eq (congrArg State.vaults h.state_eq) rfl
  | @minted ctx n v info dest L _ h =>
    have key := mintedTotal_insert h.vault_eq (t := s') (by rw [h.state_eq]) o
    simp only [Vault.shortOf, Label.mintedOf] at key ⊢
    rcases h.bound with hdef | hsame
    · -- a vault without a series has minted nothing
      have hzero : v.shortAmount = 0 := by
        have hb := (hw.vault h.vault_eq).bound
        simp only [hdef, ne_eq, not_true_eq_false, false_iff] at hb
        omega
      simp only [hzero, Nat.zero_add, ite_self, Nat.add_zero] at key
      exact key
    · simp only [hsame] at key
      by_cases ho : ctx.otokenMint = o
      · simp only [ho, if_true] at key ⊢
        omega
      · simp only [ho, if_false] at key ⊢
        omega
  | settled h => exact hsame h.vault_eq (congrArg State.vaults h.state_eq) rfl
  | withdrawn h => exact hsame h.vault_eq (congrArg State.vaults h.state_eq) rfl
  | redeemed _ h => rw [h.state_eq]; rfl
  | registered _ h => rw [h.state_eq]; rfl
  | priced h => rw [h.state_eq]; rfl
  | token _ => rfl
  | tick _ => rfl
  | created _ _ => rfl

/-- **The log and the vaults agree on what was minted.** -/
theorem mintedTotal_eq_loggedMints (hrun : Run (Step D T) s₀ tr s) (h₀ : Initial D s₀) (o : Pubkey) :
    mintedTotal s o = loggedMints s o := by
  induction hrun with
  | nil =>
    rw [mintedTotal, loggedMints, h₀.vaults, h₀.log]
    rfl
  | snoc hr hs ih =>
    rw [hs.move.mintedTotal_eq (wellFormed_of_run hr h₀), hs.move.loggedMints_eq, ih]

/-! ## Mints of oTokens -/

/-- The factory hands the mints it creates to this controller. -/
def Label.BindsController (D : Deployment) : Label → Prop
  | .createOtoken _ authority => authority = D.controllerConfig
  | _ => True

instance (D : Deployment) (l : Label) : Decidable (l.BindsController D) :=
  match l with
  | .createOtoken _ authority => inferInstanceAs (Decidable (authority = D.controllerConfig))
  | .call _ | .token | .tick => isTrue trivial

/-- The factory hands the mint `o` to this controller, if it creates it. -/
def Label.BindsSeries (D : Deployment) (o : Pubkey) : Label → Prop
  | .createOtoken m authority => m = o → authority = D.controllerConfig
  | _ => True

theorem Label.BindsController.series (h : l.BindsController D) (o : Pubkey) :
    l.BindsSeries D o := by
  cases l with
  | createOtoken m authority =>
    intro _
    exact h
  | _ => trivial

theorem mints_of_transferIfPositive {L L' : Ledger} {src mint dst auth : Pubkey} {d : ℕ}
    (h : transferIfPositive T L src mint dst auth n d = .ok L') : L'.mints = L.mints := by
  rcases transferIfPositive_eq_ok.mp h with ⟨-, ht⟩ | ⟨-, rfl⟩
  · obtain ⟨r, hr⟩ := T.transferChecked_spec ht
    exact hr.mints_eq
  · rfl

/-- **Instructions keep mints**: of a mint that is there, only the supply changes. -/
theorem Move.mint_kept (h : Move D T s l s') (hl : l ≠ .token) {m : Pubkey} {x : Mint}
    (hx : s.ledger.mints.lookup m = some x) :
    ∃ supply, s'.ledger.mints.lookup m = some { x with supply } := by
  have hsame : s'.ledger.mints = s.ledger.mints →
      ∃ supply, s'.ledger.mints.lookup m = some { x with supply } := by
    intro heq
    exact ⟨x.supply, by rw [heq, hx]⟩
  cases h with
  | administered _ h => exact hsame (by rw [h.ledger_eq])
  | opened h => exact hsame (by rw [h.state_eq])
  | deposited _ h =>
    obtain ⟨d, ht⟩ := h.transfer
    obtain ⟨r, hr⟩ := T.transferChecked_spec ht
    exact hsame (by rw [h.state_eq, hr.mints_eq])
  | minted h =>
    rw [h.state_eq]
    exact (T.mintTo_spec h.mintTo).mint_kept hx
  | settled h =>
    obtain ⟨d, ht⟩ := h.transfer
    exact hsame (by rw [h.state_eq, mints_of_transferIfPositive ht])
  | redeemed _ h =>
    obtain ⟨d, hburn⟩ := h.burn
    obtain ⟨d', ht⟩ := h.transfer
    rw [h.state_eq, mints_of_transferIfPositive ht]
    exact (T.burnChecked_spec hburn).mint_kept hx
  | withdrawn h =>
    obtain ⟨d, ht⟩ := h.transfer
    exact hsame (by rw [h.state_eq, mints_of_transferIfPositive ht])
  | registered _ h => exact hsame (by rw [h.state_eq])
  | priced h => exact hsame (by rw [h.state_eq])
  | token _ => exact absurd rfl hl
  | tick _ => exact hsame rfl
  | @created m' _ _ hnone =>
    have hne : m ≠ m' := by
      rintro rfl
      rw [hnone] at hx
      exact absurd hx (by simp)
    exact ⟨x.supply, (Finmap.lookup_insert_of_ne _ hne).trans hx⟩

/-- Only the controller can mint oTokens of `o`. -/
def MintBound (D : Deployment) (o : Pubkey) (L : Ledger) : Prop :=
  ∀ x, L.mints.lookup o = some x → x.mintAuthority = some D.controllerConfig

/-- Only the controller can mint oTokens. -/
def MintsBound (D : Deployment) (L : Ledger) : Prop :=
  ∀ {o x}, D.IsOtokenMint o → L.mints.lookup o = some x → x.mintAuthority = some D.controllerConfig

theorem Initial.mintBound (h : Initial D s) (ho : D.IsOtokenMint o) : MintBound D o s.ledger := by
  intro x hx
  rw [h.mint_absent _ ho] at hx
  exact absurd hx (by simp)

theorem Move.mintBound (ho : D.IsOtokenMint o) (hb : MintBound D o s.ledger) (h : Move D T s l s')
    (hl : l.BindsSeries D o) : MintBound D o s'.ledger := by
  intro x' hx'
  have hsame : s'.ledger.mints = s.ledger.mints → x'.mintAuthority = some D.controllerConfig := by
    intro heq
    rw [heq] at hx'
    exact hb _ hx'
  cases h with
  | administered _ h => exact hsame (by rw [h.ledger_eq])
  | opened h => exact hsame (by rw [h.state_eq])
  | deposited _ h =>
    obtain ⟨d, ht⟩ := h.transfer
    obtain ⟨r, hr⟩ := T.transferChecked_spec ht
    exact hsame (by rw [h.state_eq, hr.mints_eq])
  | minted h =>
    rw [h.state_eq] at hx'
    obtain ⟨x, hx, heq⟩ := (T.mintTo_spec h.mintTo).authority hx'
    rw [heq, hb _ hx]
  | settled h =>
    obtain ⟨d, ht⟩ := h.transfer
    exact hsame (by rw [h.state_eq, mints_of_transferIfPositive ht])
  | redeemed _ h =>
    obtain ⟨d, hburn⟩ := h.burn
    obtain ⟨d', ht⟩ := h.transfer
    rw [h.state_eq, mints_of_transferIfPositive ht] at hx'
    obtain ⟨x, hx, heq⟩ := (T.burnChecked_spec hburn).authority hx'
    rw [heq, hb _ hx]
  | withdrawn h =>
    obtain ⟨d, ht⟩ := h.transfer
    exact hsame (by rw [h.state_eq, mints_of_transferIfPositive ht])
  | registered _ h => exact hsame (by rw [h.state_eq])
  | priced h => exact hsame (by rw [h.state_eq])
  | token h =>
    cases hx : s.ledger.mints.lookup o with
    | none =>
      rw [h.mint_absent ho hx] at hx'
      exact absurd hx' (by simp)
    | some x =>
      obtain ⟨y, hy, heq, -⟩ :=
        h.mint_kept hx ho (hb _ hx) D.isControllerPda_controllerConfig
      rw [hy, Option.some.injEq] at hx'
      rw [← hx', heq, hb _ hx]
  | tick _ => exact hsame rfl
  | created hm _ =>
    rcases Store.lookup_insert_eq_some.mp hx' with ⟨rfl, rfl⟩ | ⟨-, hx⟩
    · exact congrArg some (hl rfl)
    · exact hb _ hx

theorem Move.mintsBound (hb : MintsBound D s.ledger) (h : Move D T s l s')
    (hl : l.BindsController D) : MintsBound D s'.ledger := by
  intro o x ho hx
  exact h.mintBound ho (fun _ hx ↦ hb ho hx) (hl.series o) x hx

/-- The oTokens of `o` a step destroys: those it redeems, and those their holders burn. -/
def burnedOf (o : Pubkey) (t : Transition State Label) : ℕ :=
  match t.label with
  | .call (.redeem ctx n) => if ctx.otokenMint = o then n else 0
  | .token => t.pre.ledger.supply o - t.post.ledger.supply o
  | _ => 0

theorem Label.redeemedOf_le_burnedOf (l : Label) (s s' : State) (o : Pubkey) :
    l.redeemedOf o ≤ burnedOf o ⟨s, l, s'⟩ := by
  unfold Label.redeemedOf
  split
  · exact le_rfl
  · exact Nat.zero_le _

/-- **The supply of a series** grows by what the controller mints, and falls by what is destroyed. -/
theorem Move.supply_eq (ho : D.IsOtokenMint o) (hb : l = .token → MintBound D o s.ledger)
    (h : Move D T s l s') :
    s'.ledger.supply o + burnedOf o ⟨s, l, s'⟩ = s.ledger.supply o + l.mintedOf o := by
  have hsame : s'.ledger.mints = s.ledger.mints → burnedOf o ⟨s, l, s'⟩ = 0 → l.mintedOf o = 0 →
      s'.ledger.supply o + burnedOf o ⟨s, l, s'⟩ = s.ledger.supply o + l.mintedOf o := by
    intro heq hburned hminted
    rw [Ledger.supply, Ledger.supply, heq, hburned, hminted]
  cases h with
  | @administered ix _ hix h =>
    apply hsame (by rw [h.ledger_eq])
    · cases ix <;> first | rfl | exact absurd hix id
    · cases ix <;> first | rfl | exact absurd hix id
  | opened h => exact hsame (by rw [h.state_eq]) rfl rfl
  | deposited _ h =>
    obtain ⟨d, ht⟩ := h.transfer
    obtain ⟨r, hr⟩ := T.transferChecked_spec ht
    exact hsame (by rw [h.state_eq, hr.mints_eq]) rfl rfl
  | minted h =>
    have key := (T.mintTo_spec h.mintTo).supply o
    rw [h.state_eq]
    simp only [burnedOf, Label.mintedOf, @eq_comm _ _ o] at key ⊢
    exact key
  | settled h =>
    obtain ⟨d, ht⟩ := h.transfer
    exact hsame (by rw [h.state_eq, mints_of_transferIfPositive ht]) rfl rfl
  | redeemed _ h =>
    obtain ⟨d, hburn⟩ := h.burn
    obtain ⟨d', ht⟩ := h.transfer
    have key := (T.burnChecked_spec hburn).supply o
    rw [h.state_eq, Ledger.supply, mints_of_transferIfPositive ht, ← Ledger.supply]
    simp only [burnedOf, Label.mintedOf, @eq_comm _ _ o] at key ⊢
    exact key
  | withdrawn h =>
    obtain ⟨d, ht⟩ := h.transfer
    exact hsame (by rw [h.state_eq, mints_of_transferIfPositive ht]) rfl rfl
  | registered _ h => exact hsame (by rw [h.state_eq]) rfl rfl
  | priced h => exact hsame (by rw [h.state_eq]) rfl rfl
  | @token L h =>
    have hle : L.supply o ≤ s.ledger.supply o := by
      cases hx : s.ledger.mints.lookup o with
      | none => rw [Ledger.supply_eq_zero hx, Ledger.supply_eq_zero (h.mint_absent ho hx)]
      | some x =>
        obtain ⟨y, hy, -, hle⟩ :=
          h.mint_kept hx ho (hb rfl _ hx) D.isControllerPda_controllerConfig
        rw [Ledger.supply_eq hx, Ledger.supply_eq hy]
        exact hle
    exact Nat.add_sub_cancel' hle
  | tick _ => exact hsame rfl rfl rfl
  | @created m _ _ hnone =>
    apply congrArg₂ (· + ·) ?_ rfl
    by_cases hom : o = m
    · subst hom
      simp [Ledger.supply, hnone]
    · simp [Ledger.supply, Finmap.lookup_insert_of_ne _ hom]

/-! ## The invariant -/

/-- Circulating and redeemed oTokens were minted against vaults, and redemptions paid no more than
the claim of everything redeemed. -/
structure SeriesOk (D : Deployment) (s : State) : Prop where
  bound : MintsBound D s.ledger
  supply : ∀ {o}, D.IsOtokenMint o →
    s.ledger.supply o + redeemedTotal s o ≤ mintedTotal s o
  paid : ∀ o, paidTotal s o ≤ claim s o (redeemedTotal s o)

theorem Initial.seriesOk (h : Initial D s) : SeriesOk D s where
  bound ho hx := by
    rw [h.mint_absent _ ho] at hx
    exact absurd hx (by simp)
  supply ho := by
    rw [Ledger.supply_eq_zero (h.mint_absent _ ho), redeemedTotal, h.log]
    exact Nat.zero_le _
  paid o := by
    rw [paidTotal, h.log]
    exact Nat.zero_le _

theorem Move.paidOf_le (h : Move D T s l s') (o : Pubkey) :
    paidOf o ⟨s, l, s'⟩ ≤ claim s' o (l.redeemedOf o) := by
  rcases l.notRedeem_or with hl | ⟨ctx, n, rfl⟩
  · rw [hl.paidOf_eq]
    exact Nat.zero_le _
  · cases h with
    | @redeemed _ _ info _ _ _ _ _ _ _ h =>
      have hi : s'.otokenInfos.lookup ctx.otokenMint = some info := by
        rw [h.state_eq]
        exact h.info_eq
      by_cases ho : ctx.otokenMint = o
      · subst ho
        simp [paidOf, Label.redeemedOf, h.info_eq, claim_eq hi, OTokenInfo.claim, h.priced]
      · simp [paidOf, ho]
    | administered hix _ => exact absurd hix id

theorem claim_add_le (s : State) (o : Pubkey) (m n : ℕ) :
    claim s o m + claim s o n ≤ claim s o (m + n) := by
  cases hi : s.otokenInfos.lookup o with
  | none => simp [claim, hi]
  | some info =>
    rw [claim_eq hi, claim_eq hi, claim_eq hi]
    exact info.claim_add_le m n

/-- The payments of a series stay within the claim of everything redeemed, taken at once. -/
theorem Move.paid_le (h : Move D T s l s') (hpaid : paidTotal s o ≤ claim s o (redeemedTotal s o)) :
    paidTotal s' o ≤ claim s' o (redeemedTotal s' o) := by
  have hbase := hpaid.trans (h.claim_le o _)
  have hstep := h.paidOf_le o
  have hadd := claim_add_le s' o (redeemedTotal s o) (l.redeemedOf o)
  rw [h.redeemedTotal_eq, h.paidTotal_eq]
  omega

theorem Move.seriesOk (hw : WellFormed D s) (hok : SeriesOk D s) (h : Move D T s l s')
    (hl : l.BindsController D) : SeriesOk D s' where
  bound := h.mintsBound hok.bound hl
  supply {o} ho := by
    have hsup := h.supply_eq ho fun _ _ hx ↦ hok.bound ho hx
    have hburned := l.redeemedOf_le_burnedOf s s' o
    have hbase := hok.supply ho
    rw [h.redeemedTotal_eq, h.mintedTotal_eq hw]
    omega
  paid o := h.paid_le (hok.paid o)

theorem seriesOk_of_run (hrun : Run (Step D T) s₀ tr s) (h₀ : Initial D s₀)
    (hbind : ∀ t ∈ tr, t.label.BindsController D) : SeriesOk D s := by
  have hboth : WellFormed D s ∧ SeriesOk D s :=
    Run.invariant_of (I := fun s ↦ WellFormed D s ∧ SeriesOk D s)
      (Q := fun t ↦ t.label.BindsController D) ⟨h₀.wellFormed, h₀.seriesOk⟩
      (fun _ _ _ hI hs hq ↦ ⟨hs.move.wellFormed hI.1, hs.move.seriesOk hI.1 hI.2 hq⟩) hrun hbind
  exact hboth.2

/-- **Redeemed in pieces, a series pays no more than at once**, whoever redeems and whatever happens in
between. -/
theorem paidTotal_le_claim (hrun : Run (Step D T) s₀ tr s) (h₀ : Initial D s₀) (o : Pubkey) :
    paidTotal s o ≤ claim s o (redeemedTotal s o) :=
  Run.invariant (I := fun s ↦ paidTotal s o ≤ claim s o (redeemedTotal s o)) (h₀.seriesOk.paid o)
    (fun _ _ _ hI hs ↦ hs.move.paid_le hI) hrun

end Controller

end OptionsProtocol
