import OptionsProtocol.Settler.Machine

/-!
# The addresses of the settler

The settler takes an address for one of its accounts if there is data at it. The model reads this off the
settler's records instead. Here the two are shown to agree in every state of every run: an address belongs to
the settler, with the space its account needs, if it is recorded, and is an empty account of the system program
if it is not. Lamports sent there make no difference.

What is followed is the shape of the accounts, everything about them but their lamports. Creating an account
writes the shape of one address, and records it; sending lamports writes none.
-/

namespace OptionsProtocol

namespace Settler

open Except SystemProgram

/-- The space of the account at an address. -/
def Address.space : Address → ℕ
  | .settlerConfig => SETTLER_CONFIG_SPACE
  | .makerState _ => MAKER_STATE_SPACE
  | .quoteFill _ => QUOTE_FILL_SPACE
  | .makerOtokenBalance _ => MAKER_OTOKEN_BALANCE_SPACE
  | .vaultMM _ => VAULT_MM_SPACE
  | .rentReserve | .vault _ | .vaultCounter _ | .wallet _ => 0

/-- The settler has an account at the address. -/
def State.inUse (s : State) : Address → Bool
  | .settlerConfig => s.config.isSome
  | .makerState maker => (s.makerStates.lookup maker).isSome
  | .quoteFill k => (s.quoteFills.lookup k).isSome
  | .makerOtokenBalance k => (s.makerOtokenBalances.lookup k).isSome
  | .vaultMM vault => (s.vaultMMs.lookup vault).isSome
  | .rentReserve | .vault _ | .vaultCounter _ | .wallet _ => false

/-- The accounts have the shapes that the settler's records say. -/
def State.Shaped (D : Deployment) (s : State) : Prop :=
  ∀ k : Address, k.IsSettlers →
    s.system.shape k = if s.inUse k then (D.settlerProgram, k.space) else (systemProgram, 0)

variable {D : Deployment} {T : TokenProgram} {rent : ℕ → ℕ} {verifies : Ed25519.Signed → Bool}
  {s s' s₀ : State} {l : Label} {tr : List (Transition State Label)} {S S' : SystemAccounts Address}
  {k target : Address} {space : ℕ}

theorem State.Shaped.isPlain (h : s.Shaped D) (hk : k.IsSettlers) (hnone : s.inUse k = false) :
    (s.system.get k).IsPlain := by
  have hshape := h k hk
  rw [hnone] at hshape
  exact SystemAccounts.isPlain_iff.mpr hshape

/-! ## Creating an address -/

/-- After the step the settler has an account at `target`, which it may have had before. -/
def State.Opens (D : Deployment) (s : State) (target : Address) (system : SystemAccounts Address) : Prop :=
  if s.inUse target then system = s.system else
    system.shape = Function.update s.system.shape target (D.settlerProgram, target.space)

/-- **Recording an address keeps shapes and records in agreement.** -/
theorem State.Shaped.of_opens (h : s.Shaped D) (hopens : s.Opens D target s'.system)
    (hused : s'.inUse = Function.update s.inUse target true) : s'.Shaped D := by
  rw [Opens] at hopens
  intro k hk
  rw [hused]
  split at hopens
  · rename_i hold
    have hsame : Function.update s.inUse target true = s.inUse :=
      Function.update_eq_self_iff.mpr hold.symm
    rw [hopens, hsame]
    exact h k hk
  · rw [hopens]
    by_cases heq : k = target
    · rw [heq, Function.update_self, Function.update_self, if_pos rfl]
    · rw [Function.update_of_ne heq, Function.update_of_ne heq]
      exact h k hk

theorem State.Shaped.congr (h : s.Shaped D)
    (hshape : ∀ k : Address, k.IsSettlers → s'.system.shape k = s.system.shape k)
    (hused : s'.inUse = s.inUse) : s'.Shaped D := by
  intro k hk
  rw [hshape k hk, hused]
  exact h k hk

/-! A record is written at an address that was opened, whichever kind it is. -/

theorem State.Shaped.insert_config (h : s.Shaped D) (hopens : s.Opens D .settlerConfig S)
    (config : SettlerConfig) : State.Shaped D { s with system := S, config := some config } := by
  refine h.of_opens hopens ?_
  funext k
  rw [Function.update_apply]
  cases k <;> simp [State.inUse]

theorem State.Shaped.insert_makerState {maker : Pubkey} (h : s.Shaped D)
    (hopens : s.Opens D (.makerState maker) S) (state : MakerState) :
    State.Shaped D { s with system := S, makerStates := s.makerStates.insert maker state } := by
  refine h.of_opens hopens ?_
  funext k
  rw [Function.update_apply]
  cases k <;> simp [State.inUse, Store.isSome_lookup_insert]

theorem State.Shaped.insert_quoteFill {q : QuoteKey} (h : s.Shaped D)
    (hopens : s.Opens D (.quoteFill q) S) (fill : QuoteFill) :
    State.Shaped D { s with system := S, quoteFills := s.quoteFills.insert q fill } := by
  refine h.of_opens hopens ?_
  funext k
  rw [Function.update_apply]
  cases k <;> simp [State.inUse, Store.isSome_lookup_insert]

theorem State.Shaped.insert_makerOtokenBalance {b : BalanceKey} (h : s.Shaped D)
    (hopens : s.Opens D (.makerOtokenBalance b) S) (balance : MakerOTokenBalance) :
    State.Shaped D { s with system := S, makerOtokenBalances := s.makerOtokenBalances.insert b balance } := by
  refine h.of_opens hopens ?_
  funext k
  rw [Function.update_apply]
  cases k <;> simp [State.inUse, Store.isSome_lookup_insert]

theorem State.Shaped.insert_vaultMM {vault : Controller.VaultKey} (h : s.Shaped D)
    (hopens : s.Opens D (.vaultMM vault) S) (vaultMM : VaultMM) :
    State.Shaped D { s with system := S, vaultMMs := s.vaultMMs.insert vault vaultMM } := by
  refine h.of_opens hopens ?_
  funext k
  rw [Function.update_apply]
  cases k <;> simp [State.inUse, Store.isSome_lookup_insert]

theorem State.opens_of_inUse (h : s.inUse target = true) : s.Opens D target s.system := by
  rw [Opens, if_pos h]

theorem InitIfNeeded.opens {payer : Pubkey} (h : InitIfNeeded D rent (s.inUse target) payer target
    target.space s.system S') : s.Opens D target S' := by
  rw [InitIfNeeded] at h
  rw [State.Opens]
  split
  · rename_i hold
    rwa [if_pos hold] at h
  · rename_i hnew
    rw [if_neg hnew] at h
    exact shape_initAccount h

/-- What an address that holds lamports still needs is sent there. -/
def topUp (rent : ℕ → ℕ) (S : SystemAccounts Address) (target : Address) (space : ℕ) :
    Except Error (SystemAccounts Address) :=
  if (S.get target).lamports < rent space then
    fromOption (transfer S .rentReserve target (rent space - (S.get target).lamports)) .system
  else pure S

theorem createProgramPda_of_funded (h : (S.get target).lamports ≠ 0) :
    createProgramPda D rent S target space = (do
      require ((S.get target).owner = systemProgram) (err .invalidCustodyAccount)
      require ((S.get target).space = 0) (err .invalidCustodyAccount)
      let S₁ ← topUp rent S target space
      let S₂ ← fromOption (allocate S₁ target space) .system
      fromOption (assign S₂ target D.settlerProgram) .system) := by
  rw [createProgramPda, if_neg h, topUp]
  by_cases hlow : (S.get target).lamports < rent space
  · simp only [if_pos hlow]
  · simp only [if_neg hlow]

theorem shape_topUp (h : topUp rent S target space = .ok S') : S'.shape = S.shape := by
  rw [topUp] at h
  split at h
  · exact shape_transfer (fromOption_eq_ok.mp h)
  · rw [pure_eq_ok.mp h]

theorem shape_createProgramPda (h : createProgramPda D rent S target space = .ok S') :
    S'.shape = Function.update S.shape target (D.settlerProgram, space) := by
  by_cases hzero : (S.get target).lamports = 0
  · rw [createProgramPda, if_pos hzero] at h
    exact shape_createAccount (fromOption_eq_ok.mp h)
  · rw [createProgramPda_of_funded hzero] at h
    simp only [require_bind_eq_ok] at h
    obtain ⟨-, -, h⟩ := h
    obtain ⟨S₁, h₁, h⟩ := bind_eq_ok.mp h
    obtain ⟨S₂, h₂, h₃⟩ := fromOption_bind_eq_ok.mp h
    rw [shape_claim h₂ (fromOption_eq_ok.mp h₃), shape_topUp h₁]

theorem opens_of_loadOrInit {α : Type} {stored : Option α} {fresh a : α}
    (hstored : s.inUse k = stored.isSome) (h : loadOrInit D rent s k k.space stored fresh = .ok (S', a)) :
    s.Opens D k S' := by
  rw [State.Opens, hstored]
  cases stored with
  | some _ => exact (congrArg Prod.fst (Except.ok.inj h)).symm
  | none =>
    obtain ⟨S, hS, h⟩ := bind_eq_ok.mp h
    obtain rfl : S = S' := congrArg Prod.fst (pure_eq_ok.mp h)
    exact shape_createProgramPda hS

theorem opens_of_initVaultMMAccount {vault : Controller.VaultKey}
    (h : initVaultMMAccount D rent s vault = .ok S') : s.Opens D (.vaultMM vault) S' := by
  obtain ⟨hnone, h⟩ := require_bind_eq_ok.mp h
  rw [State.Opens, State.inUse, hnone]
  exact shape_createProgramPda h

/-! ## Runs -/

/-- An order opens its fill counter, its custody balance and the account of its vault. -/
theorem ExecuteOrder.Effect.shaped {ctx : ExecuteOrder} {ord : Order} {tx : Transaction} {i : ℕ}
    {r : ExecuteOrder.Course} (he : ExecuteOrder.Effect D T s ctx ord tx i r s')
    (hc : ctx.Creates D rent s ord r.system) (h : s.Shaped D) : s'.Shaped D := by
  obtain ⟨S₁, fill, S₂, S₃, balance, hfill, hrent, hbalance, hvault⟩ := hc
  rw [loadOrInitQuoteFill_def] at hfill
  rw [loadOrInitMakerOtokenBalance_def] at hbalance
  rw [he.state_eq]
  generalize hq : (⟨s.filledAmount (ctx.quoteKey ord) + ord.amount.toNat, false⟩ : QuoteFill) = fill'
  generalize hb : (⟨ctx.maker, ctx.otokenMint, s.custody ctx.balanceKey + ord.amount.toNat⟩ :
    MakerOTokenBalance) = balance'
  have hcounted : State.Shaped D { s with
      system := S₁, quoteFills := s.quoteFills.insert (ctx.quoteKey ord) fill' } :=
    h.insert_quoteFill (opens_of_loadOrInit rfl hfill) fill'
  have hpaid : State.Shaped D { s with
      system := S₂, quoteFills := s.quoteFills.insert (ctx.quoteKey ord) fill' } :=
    hcounted.congr (fun k _ ↦ congrFun (shape_transfer hrent) k) rfl
  have hheld : State.Shaped D { s with
      system := S₃
      quoteFills := s.quoteFills.insert (ctx.quoteKey ord) fill'
      makerOtokenBalances := s.makerOtokenBalances.insert ctx.balanceKey balance' } :=
    hpaid.insert_makerOtokenBalance (opens_of_loadOrInit rfl hbalance) balance'
  exact hheld.insert_vaultMM (opens_of_initVaultMMAccount hvault) _

theorem RedeemForMM.Effect.shaped {ctx : RedeemForMM} {amount payout : ℕ} {acc : Custody}
    {redeemed : Controller.State} {ledger : Ledger}
    (he : RedeemForMM.Effect D T s ctx amount acc redeemed payout ledger s') (h : s.Shaped D) :
    s'.Shaped D := by
  rw [he.state_eq]
  exact h.insert_makerOtokenBalance
    (State.opens_of_inUse (Option.isSome_of_eq_some he.loaded.balance_eq)) _

theorem ownerConfig_isSome {owner : Pubkey} {config : SettlerConfig}
    (h : ownerConfig owner s = .ok config) : s.config.isSome = true := by
  obtain ⟨_, h, -⟩ := bind_eq_ok.mp h
  exact Option.isSome_of_eq_some (fromOption_eq_ok.mp h)

theorem shaped_of_administrative {ix : Instruction} (h : s.Shaped D)
    (hx : exec D T rent ix s = .ok s') (hix : ix.IsAdministrative) : s'.Shaped D := by
  have hset : ∀ {owner : Pubkey} {config config' : SettlerConfig}, ownerConfig owner s = .ok config →
      State.Shaped D { s with config := some config' } := fun howner ↦
    h.insert_config (State.opens_of_inUse (ownerConfig_isSome howner)) _
  cases ix with
  | initializeConfig payer operator treasury fee delay jupiter =>
    simp only [exec, initializeConfig, require_bind_eq_ok, fromOption_bind_eq_ok, pure_eq_ok] at hx
    obtain ⟨hnone, system, hinit, -, -, -, -, rfl⟩ := hx
    refine h.insert_config ?_ _
    rw [State.Opens, State.inUse, hnone]
    exact shape_initAccount hinit
  | withdrawRentReserve owner recipient lamports =>
    obtain ⟨_, -, hx⟩ := bind_eq_ok.mp hx
    simp only [require_bind_eq_ok, fromOption_bind_eq_ok, pure_eq_ok] at hx
    obtain ⟨-, -, -, system, hsent, rfl⟩ := hx
    exact h.congr (fun k _ ↦ congrFun (shape_transfer hsent) k) rfl
  | pause owner paused =>
    obtain ⟨config, howner, hx⟩ := bind_eq_ok.mp hx
    rw [pure_eq_ok] at hx
    subst hx
    exact hset howner
  | setTreasury _ _ | setProtocolFee _ _ | setOperator _ _ | setEscapeDelay _ _
  | setJupiterProgram _ _ =>
    obtain ⟨config, howner, hx⟩ := bind_eq_ok.mp hx
    obtain ⟨-, hx⟩ := require_bind_eq_ok.mp hx
    rw [pure_eq_ok] at hx
    subst hx
    exact hset howner
  | _ => exact absurd hix (by simp [Instruction.IsAdministrative])

theorem shaped_step (h : s.Shaped D) (hs : Step D T rent verifies s l s') : s'.Shaped D := by
  cases hs with
  | controller _ _ _ => exact h
  | lamports hrely => exact h.congr (fun k hk ↦ hrely.shape_eq hk) rfl
  | @call _ ix _ _ hx =>
    cases ix with
    | initVaultCounter owner vaultCounter =>
      obtain ⟨system, ctrl, hrent, -, rfl⟩ := initVaultCounter_effect hx
      exact h.congr (fun k _ ↦ congrFun (shape_transfer hrent) k) rfl
    | whitelistMaker owner maker whitelisted =>
      obtain ⟨system, hinit, rfl⟩ := whitelistMaker_effect hx
      exact h.insert_makerState (InitIfNeeded.opens hinit) _
    | incrementMakerNonce maker =>
      obtain ⟨state, hstate, rfl⟩ := incrementMakerNonce_effect hx
      exact h.insert_makerState (State.opens_of_inUse (Option.isSome_of_eq_some hstate)) _
    | cancelQuote maker quoteId =>
      obtain ⟨system, hinit, rfl⟩ := cancelQuote_effect hx
      exact h.insert_quoteFill (InitIfNeeded.opens hinit) _
    | executeOrder ctx ord tx i =>
      obtain ⟨r, he, hc⟩ := executeOrder_course hx
      exact he.shaped hc h
    | settleVault operator ctx =>
      obtain ⟨-, c, -, rfl⟩ := settleVault_eq_ok.mp hx
      exact h
    | emergencyWithdraw ctx =>
      obtain ⟨vault, vaultMM, balance, ledger, ctrl, he⟩ := emergencyWithdraw_effect hx
      rw [he.state_eq]
      have hlowered := h.insert_makerOtokenBalance
        (State.opens_of_inUse (Option.isSome_of_eq_some he.balance_eq)) { balance with
          balance := balance.balance - EmergencyWithdrawOrder.burned vaultMM balance }
      exact hlowered.insert_vaultMM
        (State.opens_of_inUse (Option.isSome_of_eq_some he.vaultMM_eq)) _
    | redeemForMM ctx amount =>
      obtain ⟨acc, redeemed, payout, ledger, he⟩ := redeemForMM_effect hx
      exact he.shaped h
    | mmSelfRedeem ctx amount =>
      obtain ⟨acc, redeemed, payout, ledger, he⟩ := mmSelfRedeem_effect hx
      exact he.shaped h
    | physicalRedeem ctx amount maxCollateralSpent swap =>
      obtain ⟨r, he⟩ := physicalRedeem_effect hx
      rw [he.state_eq]
      have hlowered := h.insert_makerOtokenBalance
        (State.opens_of_inUse (Option.isSome_of_eq_some he.loaded.balance_eq)) { r.acc.balance with
          balance := r.acc.balance.balance - amount }
      exact hlowered.insert_vaultMM
        (State.opens_of_inUse (Option.isSome_of_eq_some he.vaultMM_eq)) _
    | _ => exact shaped_of_administrative h hx trivial

theorem Initial.shaped (h : Initial D s) : s.Shaped D := by
  intro k hk
  have hnone : s.inUse k = false := by
    cases k <;> simp [State.inUse, h.config, h.makerStates, h.quoteFills, h.makerOtokenBalances,
      h.vaultMMs]
  rw [hnone]
  exact SystemAccounts.isPlain_iff.mp (h.plain k hk)

/-- **In every run the settler's records say what is at its addresses.** -/
theorem shaped_of_run (hrun : Run (Step D T rent verifies) s₀ tr s) (h₀ : Initial D s₀) :
    s.Shaped D :=
  Run.invariant h₀.shaped (fun _ _ _ h hs ↦ shaped_step h hs) hrun

end Settler

end OptionsProtocol
