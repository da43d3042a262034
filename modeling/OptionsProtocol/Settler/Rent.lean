import OptionsProtocol.Settler.Funding
import OptionsProtocol.Settler.Quotes

/-!
# Lamports

An account that holds the rent for its space is never purged. The settler's accounts are created with that
much, by the owner, by makers, or out of the rent reserve, and no instruction takes lamports out of one.
The reserve pays for the accounts of orders, each time what is due, and what is due has a bound that nobody
can move; the rest leaves it only with the owner.

Only lower bounds are followed, since anybody may send lamports anywhere.
-/

namespace OptionsProtocol

/-! ## The system program -/

section System

variable {A : Type} [DecidableEq A] {S S' S'' : SystemAccounts A} {src dst k payer : A} {n m space : ℕ}
  {owner : Pubkey}

/-- No address has less than before, but for what one of them spent. -/
def SystemAccounts.Spent (S S' : SystemAccounts A) (src : A) (n : ℕ) : Prop :=
  ∀ k, (S.get k).lamports ≤ (S'.get k).lamports + if k = src then n else 0

namespace SystemAccounts.Spent

theorem refl (S : SystemAccounts A) (src : A) : S.Spent S src 0 := fun _ ↦ Nat.le_add_right _ _

theorem mono (h : S.Spent S' src n) (hle : n ≤ m) : S.Spent S' src m := by
  intro k
  have hk := h k
  split_ifs at hk ⊢ <;> omega

theorem trans (h : S.Spent S' src n) (h' : S'.Spent S'' src m) : S.Spent S'' src (n + m) := by
  intro k
  have hk := h k
  have hk' := h' k
  split_ifs at hk hk' ⊢ <;> omega

theorem le_of_ne (h : S.Spent S' src n) (hk : k ≠ src) : (S.get k).lamports ≤ (S'.get k).lamports := by
  have hle := h k
  rwa [if_neg hk] at hle

end SystemAccounts.Spent

namespace SystemProgram

theorem transfer_spent (h : transfer S src dst n = some S') : S.Spent S' src n := by
  obtain ⟨⟨-, hle⟩, h⟩ := Option.ite_none_right_eq_some.mp h
  rw [← Option.some.inj h]
  intro k
  by_cases hd : k = dst
  · subst hd
    by_cases hs : k = src
    · subst hs
      simp
      omega
    · simp [hs]
  · by_cases hs : k = src
    · subst hs
      simp [hd]
      omega
    · simp [hd, hs]

theorem lamports_transfer_dst (h : transfer S src dst n = some S') (hne : dst ≠ src) :
    (S'.get dst).lamports = (S.get dst).lamports + n := by
  obtain ⟨-, h⟩ := Option.ite_none_right_eq_some.mp h
  rw [← Option.some.inj h]
  simp [hne]

theorem lamports_claim {S₁ S₂ : SystemAccounts A} (h₁ : allocate S dst space = some S₁)
    (h₂ : assign S₁ dst owner = some S₂) (k : A) : (S₂.get k).lamports = (S.get k).lamports := by
  obtain ⟨-, h₁⟩ := Option.ite_none_right_eq_some.mp h₁
  obtain ⟨-, h₂⟩ := Option.ite_none_right_eq_some.mp h₂
  rw [← Option.some.inj h₂, ← Option.some.inj h₁]
  by_cases hk : k = dst
  · subst hk
    simp
  · simp [hk]

theorem createAccount_spent (h : createAccount S src dst n space owner = some S') (hne : dst ≠ src) :
    S.Spent S' src n ∧ n ≤ (S'.get dst).lamports := by
  obtain ⟨-, h⟩ := Option.ite_none_right_eq_some.mp h
  obtain ⟨S₁, h₁, h⟩ := Option.bind_eq_some_iff.mp h
  obtain ⟨S₂, h₂, h₃⟩ := Option.bind_eq_some_iff.mp h
  constructor
  · intro k
    rw [← lamports_claim h₁ h₂ k]
    exact transfer_spent h₃ k
  · rw [lamports_transfer_dst h₃ hne]
    exact Nat.le_add_left _ _

theorem initAccount_spent {rent : ℕ → ℕ} (h : initAccount S rent payer dst space owner = some S')
    (hne : dst ≠ payer) : S.Spent S' payer (rent space) ∧ rent space ≤ (S'.get dst).lamports := by
  rw [initAccount] at h
  split at h
  · exact createAccount_spent h hne
  · dsimp only at h
    split at h
    · obtain ⟨S₁, h₁, h⟩ := Option.bind_eq_some_iff.mp h
      obtain ⟨S₂, h₂, h₃⟩ := Option.bind_eq_some_iff.mp h
      constructor
      · intro k
        rw [lamports_claim h₂ h₃ k]
        exact ((transfer_spent h₁).mono (Nat.sub_le _ _)) k
      · rw [lamports_claim h₂ h₃, lamports_transfer_dst h₁ hne]
        omega
    · rename_i henough
      obtain ⟨S₁, h₁, h⟩ := Option.bind_eq_some_iff.mp h
      obtain ⟨S₂, h₂, h₃⟩ := Option.bind_eq_some_iff.mp h
      obtain rfl := Option.some.inj h₁
      constructor
      · intro k
        rw [lamports_claim h₂ h₃ k]
        exact Nat.le_add_right _ _
      · rw [lamports_claim h₂ h₃]
        exact Nat.le_of_not_lt henough

end SystemProgram

end System

namespace Settler

open Except SystemProgram

variable {D : Deployment} {T : TokenProgram} {rent : ℕ → ℕ} {verifies : Ed25519.Signed → Bool}
  {s s' s₀ : State} {l : Label} {tr : List (Transition State Label)} {S S' : SystemAccounts Address}
  {k target : Address} {space : ℕ}

/-! ## Opening an address -/

theorem createProgramPda_spent (h : createProgramPda D rent S target space = .ok S')
    (hne : target ≠ .rentReserve) : S.Spent S' .rentReserve (shortfall rent (S.get target) space) ∧
      rent space ≤ (S'.get target).lamports := by
  by_cases hzero : (S.get target).lamports = 0
  · rw [createProgramPda, if_pos hzero] at h
    rw [shortfall, hzero, Nat.sub_zero]
    exact createAccount_spent (fromOption_eq_ok.mp h) hne
  · rw [createProgramPda_of_funded hzero] at h
    simp only [require_bind_eq_ok] at h
    obtain ⟨-, -, h⟩ := h
    obtain ⟨S₁, h₁, h⟩ := bind_eq_ok.mp h
    obtain ⟨S₂, h₂, h⟩ := fromOption_bind_eq_ok.mp h
    have h₃ := fromOption_eq_ok.mp h
    rw [lamports_claim h₂ h₃]
    have hclaim : S₁.Spent S' .rentReserve 0 := fun k ↦ by
      rw [lamports_claim h₂ h₃ k]
      exact Nat.le_add_right _ _
    rw [topUp] at h₁
    split at h₁
    · have hpaid := fromOption_eq_ok.mp h₁
      refine ⟨(transfer_spent hpaid).trans hclaim, ?_⟩
      rw [lamports_transfer_dst hpaid hne]
      omega
    · rename_i henough
      obtain rfl := pure_eq_ok.mp h₁
      exact ⟨hclaim.mono (Nat.zero_le _), Nat.le_of_not_lt henough⟩

/-- The address is in use, or holds its rent. -/
def State.Covered (rent : ℕ → ℕ) (s : State) (k : Address) (S : SystemAccounts Address) : Prop :=
  s.inUse k = true ∨ rent k.space ≤ (S.get k).lamports

theorem loadOrInit_spent {α : Type} {stored : Option α} {fresh a : α} (hk : k.IsSettlers)
    (hne : k ≠ .rentReserve) (hstored : s.inUse k = stored.isSome)
    (h : loadOrInit D rent s k k.space stored fresh = .ok (S', a)) :
    s.system.Spent S' .rentReserve (s.due rent k) ∧ s.Covered rent k S' := by
  cases stored with
  | some _ =>
    obtain rfl : s.system = S' := congrArg Prod.fst (Except.ok.inj h)
    exact ⟨(SystemAccounts.Spent.refl _ _).mono (Nat.zero_le _), .inl hstored⟩
  | none =>
    obtain ⟨S, hS, h⟩ := bind_eq_ok.mp h
    obtain rfl : S = S' := congrArg Prod.fst (pure_eq_ok.mp h)
    have hdue : s.due rent k = shortfall rent (s.system.get k) k.space := by
      have hnew : s.inUse k = false := hstored
      cases k <;> simp_all [State.due, Address.IsSettlers]
    rw [hdue]
    obtain ⟨hspent, henough⟩ := createProgramPda_spent hS hne
    exact ⟨hspent, .inr henough⟩

/-- What is due for an address is at most its rent, and less if it has more. -/
theorem State.due_mono (h : (s.system.get k).lamports ≤ (S.get k).lamports) :
    State.due rent { s with system := S } k ≤ s.due rent k := by
  have hshort : ∀ space, shortfall rent (S.get k) space ≤ shortfall rent (s.system.get k) space := by
    intro space
    rw [shortfall, shortfall]
    omega
  have hused : State.inUse { s with system := S } k = s.inUse k := by cases k <;> rfl
  cases k <;> simp only [due, hused] <;> first | exact le_rfl | (split_ifs <;> simp [hshort])

theorem State.due_le (rent : ℕ → ℕ) (s : State) (hk : k.IsSettlers) : s.due rent k ≤ rent k.space := by
  have hle : (if s.inUse k then 0 else shortfall rent (s.system.get k) k.space) ≤ rent k.space := by
    split_ifs
    · exact Nat.zero_le _
    · exact Nat.sub_le _ _
  cases k <;> first | exact hle | exact absurd hk id

theorem State.Covered.mono (h : s.Covered rent k S) (hle : (S.get k).lamports ≤ (S'.get k).lamports) :
    s.Covered rent k S' :=
  h.imp id fun hrent ↦ hrent.trans hle

/-! ## Orders -/

/-- **What an order takes from the reserve**, and that its addresses then hold their rent. -/
theorem ExecuteOrder.Creates.spent {ctx : ExecuteOrder} {ord : Order}
    (h : ctx.Creates D rent s ord S') : s.system.Spent S' .rentReserve (ctx.due rent ord s) ∧
      s.Covered rent (.quoteFill (ctx.quoteKey ord)) S' ∧
      s.Covered rent (.makerOtokenBalance ctx.balanceKey) S' ∧ s.Covered rent (.vaultMM ctx.vault) S' := by
  obtain ⟨S₁, fill, S₂, S₃, balance, hfill, hvault, hbalance, hmm⟩ := h
  rw [loadOrInitQuoteFill_def] at hfill
  rw [loadOrInitMakerOtokenBalance_def] at hbalance
  obtain ⟨hspent₁, hcovered₁⟩ :=
    loadOrInit_spent (k := .quoteFill (ctx.quoteKey ord)) trivial (by simp) rfl hfill
  have hspent₂ := transfer_spent hvault
  obtain ⟨hspent₃, hcovered₃⟩ :=
    loadOrInit_spent (k := .makerOtokenBalance ctx.balanceKey) trivial (by simp) rfl hbalance
  obtain ⟨hnew, hcreate⟩ := require_bind_eq_ok.mp hmm
  obtain ⟨hspent₄, hrent₄⟩ := createProgramPda_spent hcreate (by simp)
  have h₂ := hspent₁.trans hspent₂
  have h₃ := h₂.trans (hspent₃.mono (State.due_mono (h₂.le_of_ne (by simp))))
  have hdue : shortfall rent (S₃.get (.vaultMM ctx.vault)) VAULT_MM_SPACE ≤
      s.due rent (.vaultMM ctx.vault) := by
    have hle := h₃.le_of_ne (k := .vaultMM ctx.vault) (by simp)
    have hunused : s.inUse (.vaultMM ctx.vault) = false := by
      rw [State.inUse, hnew, Option.isSome_none]
    simp only [State.due, hunused, shortfall, Address.space]
    simp only [Bool.false_eq_true, if_false]
    omega
  have h₄ := h₃.trans (hspent₄.mono hdue)
  refine ⟨h₄.mono ?_, hcovered₁.mono ?_, ?_, .inr hrent₄⟩
  · simp only [due, addresses, List.map_cons, List.map_nil, List.sum_cons, List.sum_nil, State.due]
    omega
  · exact (hspent₂.trans (hspent₃.trans hspent₄)).le_of_ne (by simp)
  · exact State.Covered.mono (s := s) hcovered₃ (hspent₄.le_of_ne (by simp))

/-! ## Records -/

theorem inUse_insert_config (s : State) (config : SettlerConfig) :
    State.inUse { s with config := some config } = Function.update s.inUse .settlerConfig true := by
  funext k
  rw [Function.update_apply]
  cases k <;> simp [State.inUse]

theorem inUse_insert_makerState (s : State) (maker : Pubkey) (state : MakerState) :
    State.inUse { s with makerStates := s.makerStates.insert maker state } =
      Function.update s.inUse (.makerState maker) true := by
  funext k
  rw [Function.update_apply]
  cases k <;> simp [State.inUse, Store.isSome_lookup_insert]

theorem inUse_insert_quoteFill (s : State) (q : QuoteKey) (fill : QuoteFill) :
    State.inUse { s with quoteFills := s.quoteFills.insert q fill } =
      Function.update s.inUse (.quoteFill q) true := by
  funext k
  rw [Function.update_apply]
  cases k <;> simp [State.inUse, Store.isSome_lookup_insert]

theorem inUse_insert_balance (s : State) (b : BalanceKey) (balance : MakerOTokenBalance) :
    State.inUse { s with makerOtokenBalances := s.makerOtokenBalances.insert b balance } =
      Function.update s.inUse (.makerOtokenBalance b) true := by
  funext k
  rw [Function.update_apply]
  cases k <;> simp [State.inUse, Store.isSome_lookup_insert]

theorem inUse_insert_vaultMM (s : State) (v : Controller.VaultKey) (vaultMM : VaultMM) :
    State.inUse { s with vaultMMs := s.vaultMMs.insert v vaultMM } =
      Function.update s.inUse (.vaultMM v) true := by
  funext k
  rw [Function.update_apply]
  cases k <;> simp [State.inUse, Store.isSome_lookup_insert]

/-- Every address of the settler has as much as before, but for what the reserve may have spent. -/
def SpentOnly (s s' : State) (n : ℕ) : Prop :=
  ∀ k : Address, k.IsSettlers →
    (s.system.get k).lamports ≤ (s'.system.get k).lamports + if k = .rentReserve then n else 0

theorem spentOnly_of_eq (h : s'.system = s.system) (n : ℕ) : SpentOnly s s' n := by
  intro k _
  rw [h]
  exact Nat.le_add_right _ _

theorem spentOnly_of_wallet {payer : Pubkey} {m : ℕ} (h : s.system.Spent s'.system (.wallet payer) m)
    (n : ℕ) : SpentOnly s s' n := by
  intro k hk
  have hne : k ≠ .wallet payer := by
    rintro rfl
    exact hk
  exact (h.le_of_ne hne).trans (Nat.le_add_right _ _)

/-- Of these accounts, all were there before or hold their rent. -/
def AllCovered (rent : ℕ → ℕ) (s : State) (used : Address → Bool) (S : SystemAccounts Address) : Prop :=
  ∀ k, used k = true → s.Covered rent k S

theorem allCovered_self (rent : ℕ → ℕ) (s : State) (S : SystemAccounts Address) :
    AllCovered rent s s.inUse S := fun _ hk ↦ .inl hk

theorem AllCovered.update {used : Address → Bool} (h : AllCovered rent s used S)
    (ht : s.Covered rent target S) : AllCovered rent s (Function.update used target true) S := by
  intro k hk
  by_cases heq : k = target
  · rw [heq]
    exact ht
  · rw [Function.update_of_ne heq] at hk
    exact h k hk

theorem InitIfNeeded.spent {payer : Pubkey} (hk : k.IsSettlers)
    (h : InitIfNeeded D rent (s.inUse k) payer k k.space s.system S') :
    (∃ m, s.system.Spent S' (.wallet payer) m) ∧ s.Covered rent k S' := by
  rw [InitIfNeeded] at h
  split at h
  · rename_i hold
    subst h
    exact ⟨⟨0, .refl _ _⟩, .inl hold⟩
  · have hne : k ≠ .wallet payer := by
      rintro rfl
      exact hk
    obtain ⟨hspent, henough⟩ := initAccount_spent h hne
    exact ⟨⟨_, hspent⟩, .inr henough⟩

/-! ## Steps -/

/-- What a step takes from the rent reserve. -/
def reserveSpent (rent : ℕ → ℕ) (t : Transition State Label) : ℕ :=
  match t.label with
  | .call (.executeOrder ctx ord _ _) => ctx.due rent ord t.pre
  | .call (.withdrawRentReserve _ _ lamports) => lamports
  | _ => 0

theorem lamports_of_exec {ix : Instruction} (h : exec D T rent ix s = .ok s') :
    SpentOnly s s' (reserveSpent rent ⟨s, .call ix, s'⟩) ∧ AllCovered rent s s'.inUse s'.system := by
  -- instructions that only rewrite one of the settler's accounts
  have hrewritten : ∀ {k}, s'.system = s.system → s.inUse k = true →
      s'.inUse = Function.update s.inUse k true →
      SpentOnly s s' (reserveSpent rent ⟨s, .call ix, s'⟩) ∧ AllCovered rent s s'.inUse s'.system := by
    intro k hsystem hold hused
    rw [hused]
    exact ⟨spentOnly_of_eq hsystem _, (allCovered_self rent s _).update (.inl hold)⟩
  cases ix with
  | initializeConfig payer operator treasury fee delay jupiter =>
    simp only [exec, initializeConfig, require_bind_eq_ok, fromOption_bind_eq_ok, pure_eq_ok] at h
    obtain ⟨-, system, hinit, -, -, -, -, rfl⟩ := h
    obtain ⟨hspent, henough⟩ := initAccount_spent hinit (by simp)
    rw [inUse_insert_config { s with system }]
    exact ⟨spentOnly_of_wallet hspent _, (allCovered_self rent s _).update (.inr henough)⟩
  | initVaultCounter owner vaultCounter =>
    obtain ⟨system, ctrl, hrent, -, rfl⟩ := initVaultCounter_effect h
    exact ⟨spentOnly_of_wallet (transfer_spent hrent) _, allCovered_self rent s _⟩
  | whitelistMaker owner maker whitelisted =>
    obtain ⟨system, hinit, rfl⟩ := whitelistMaker_effect h
    obtain ⟨⟨m, hspent⟩, hcovered⟩ := InitIfNeeded.spent (k := .makerState maker) trivial hinit
    rw [inUse_insert_makerState { s with system }]
    exact ⟨spentOnly_of_wallet hspent _, (allCovered_self rent s _).update hcovered⟩
  | incrementMakerNonce maker =>
    obtain ⟨state, hstate, rfl⟩ := incrementMakerNonce_effect h
    exact hrewritten (k := .makerState maker) rfl (Option.isSome_of_eq_some hstate)
      (inUse_insert_makerState s maker _)
  | cancelQuote maker quoteId =>
    obtain ⟨system, hinit, rfl⟩ := cancelQuote_effect h
    obtain ⟨⟨m, hspent⟩, hcovered⟩ := InitIfNeeded.spent (k := .quoteFill _) trivial hinit
    rw [inUse_insert_quoteFill { s with system }]
    exact ⟨spentOnly_of_wallet hspent _, (allCovered_self rent s _).update hcovered⟩
  | executeOrder ctx ord tx i =>
    obtain ⟨r, he, hc⟩ := executeOrder_course h
    obtain ⟨hspent, hfill, hbalance, hvault⟩ := hc.spent
    have hsystem : s'.system = r.system := by rw [he.state_eq]
    have hused : s'.inUse = Function.update (Function.update (Function.update s.inUse
        (.quoteFill (ctx.quoteKey ord)) true) (.makerOtokenBalance ctx.balanceKey) true)
        (.vaultMM ctx.vault) true := by
      rw [he.state_eq, ← inUse_insert_quoteFill s, ← inUse_insert_balance, ← inUse_insert_vaultMM]
      rfl
    rw [hused, hsystem]
    refine ⟨fun k _ ↦ ?_, (((allCovered_self rent s _).update hfill).update hbalance).update hvault⟩
    rw [hsystem]
    exact hspent k
  | settleVault operator ctx =>
    obtain ⟨-, c, -, rfl⟩ := settleVault_eq_ok.mp h
    exact ⟨spentOnly_of_eq rfl _, allCovered_self rent s _⟩
  | emergencyWithdraw ctx =>
    obtain ⟨vault, vaultMM, balance, ledger, ctrl, he⟩ := emergencyWithdraw_effect h
    have hbalance : s.inUse (.makerOtokenBalance ⟨ctx.maker, ctx.otokenMint⟩) = true :=
      Option.isSome_of_eq_some he.balance_eq
    have hvaultMM : s.inUse (.vaultMM ctx.vault) = true := Option.isSome_of_eq_some he.vaultMM_eq
    rw [he.state_eq, inUse_insert_vaultMM { s with ctrl, makerOtokenBalances := _ },
      inUse_insert_balance { s with ctrl }]
    exact ⟨spentOnly_of_eq rfl _,
      ((allCovered_self rent s _).update (.inl hbalance)).update (.inl hvaultMM)⟩
  | redeemForMM ctx amount =>
    obtain ⟨acc, redeemed, payout, ledger, he⟩ := redeemForMM_effect h
    exact hrewritten (k := .makerOtokenBalance ctx.makerOtokenBalance) (by rw [he.state_eq])
      (Option.isSome_of_eq_some he.loaded.balance_eq)
      (by rw [he.state_eq]; exact inUse_insert_balance { s with ctrl := _ } _ _)
  | mmSelfRedeem ctx amount =>
    obtain ⟨acc, redeemed, payout, ledger, he⟩ := mmSelfRedeem_effect h
    exact hrewritten (k := .makerOtokenBalance ctx.makerOtokenBalance) (by rw [he.state_eq])
      (Option.isSome_of_eq_some he.loaded.balance_eq)
      (by rw [he.state_eq]; exact inUse_insert_balance { s with ctrl := _ } _ _)
  | physicalRedeem ctx amount maxCollateralSpent swap =>
    obtain ⟨r, he⟩ := physicalRedeem_effect h
    have hbalance : s.inUse (.makerOtokenBalance ctx.makerOtokenBalance) = true :=
      Option.isSome_of_eq_some he.loaded.balance_eq
    have hvaultMM : s.inUse (.vaultMM ctx.vault) = true := Option.isSome_of_eq_some he.vaultMM_eq
    rw [he.state_eq, inUse_insert_vaultMM { s with ctrl := _, makerOtokenBalances := _ },
      inUse_insert_balance { s with ctrl := _ }]
    exact ⟨spentOnly_of_eq rfl _,
      ((allCovered_self rent s _).update (.inl hbalance)).update (.inl hvaultMM)⟩
  | withdrawRentReserve owner recipient lamports =>
    obtain ⟨_, -, h⟩ := bind_eq_ok.mp h
    simp only [require_bind_eq_ok, fromOption_bind_eq_ok, pure_eq_ok] at h
    obtain ⟨-, -, -, system, hsent, rfl⟩ := h
    exact ⟨fun k _ ↦ transfer_spent hsent k, allCovered_self rent s _⟩
  | pause owner paused =>
    obtain ⟨config, howner, h⟩ := bind_eq_ok.mp h
    rw [pure_eq_ok] at h
    subst h
    exact hrewritten (k := .settlerConfig) rfl (ownerConfig_isSome howner) (inUse_insert_config s _)
  | setTreasury _ _ | setProtocolFee _ _ | setOperator _ _ | setEscapeDelay _ _
  | setJupiterProgram _ _ =>
    obtain ⟨config, howner, h⟩ := bind_eq_ok.mp h
    obtain ⟨-, h⟩ := require_bind_eq_ok.mp h
    rw [pure_eq_ok] at h
    subst h
    exact hrewritten (k := .settlerConfig) rfl (ownerConfig_isSome howner) (inUse_insert_config s _)

/-- **What a step does to the settler's lamports.** -/
theorem Step.lamportsKept (h : Step D T rent verifies s l s') :
    SpentOnly s s' (reserveSpent rent ⟨s, l, s'⟩) ∧ AllCovered rent s s'.inUse s'.system := by
  cases h with
  | call _ _ h => exact lamports_of_exec h
  | controller _ _ _ => exact ⟨spentOnly_of_eq rfl _, allCovered_self rent s _⟩
  | lamports hrely =>
    exact ⟨fun k hk ↦ (hrely k hk).2.2.trans (Nat.le_add_right _ _), allCovered_self rent s _⟩

/-! ## Runs -/

/-- What the rent of an order's four accounts adds up to. -/
def ExecuteOrder.fullRent (rent : ℕ → ℕ) : ℕ :=
  rent QUOTE_FILL_SPACE + rent VAULT_SPACE + rent MAKER_OTOKEN_BALANCE_SPACE + rent VAULT_MM_SPACE

/-- Nobody can make an order more expensive. -/
theorem ExecuteOrder.due_le (ctx : ExecuteOrder) (ord : Order) (s : State) :
    ctx.due rent ord s ≤ ExecuteOrder.fullRent rent := by
  have hfill : s.due rent (.quoteFill (ctx.quoteKey ord)) ≤ rent QUOTE_FILL_SPACE :=
    s.due_le rent trivial
  have hbalance : s.due rent (.makerOtokenBalance ctx.balanceKey) ≤ rent MAKER_OTOKEN_BALANCE_SPACE :=
    s.due_le rent trivial
  have hvault : s.due rent (.vaultMM ctx.vault) ≤ rent VAULT_MM_SPACE := s.due_le rent trivial
  have hpaid : s.due rent (.vault ctx.vault) = rent VAULT_SPACE := rfl
  simp only [due, addresses, List.map_cons, List.map_nil, List.sum_cons, List.sum_nil, fullRent]
  omega

/-- The account at the address holds the rent for its space. -/
def State.Exempt (rent : ℕ → ℕ) (s : State) : Prop :=
  ∀ k, s.inUse k = true → rent k.space ≤ (s.system.get k).lamports

theorem State.isSettlers_of_inUse (h : s.inUse k = true) : k.IsSettlers := by
  cases k <;> trivial

theorem Step.exempt (h : Step D T rent verifies s l s') (hs : s.Exempt rent) : s'.Exempt rent := by
  intro k hk
  obtain ⟨hspent, hcovered⟩ := h.lamportsKept
  rcases hcovered k hk with hold | hnew
  · have hne : k ≠ .rentReserve := by
      rintro rfl
      exact absurd hold Bool.false_ne_true
    have hle := hspent k (State.isSettlers_of_inUse hold)
    rw [if_neg hne, Nat.add_zero] at hle
    exact (hs k hold).trans hle
  · exact hnew

/-- **The settler's accounts live, and the reserve is accounted for.** In every reachable state each account
of the settler holds the rent for its space. Over any run the reserve loses at most what was due for the
orders that were executed and what its owner withdrew, and no order is due more than the rent of its four
accounts, whatever was sent where. -/
theorem rent_accounted (hrun : Run (Step D T rent verifies) s₀ tr s) (h₀ : Initial D s₀) :
    (∀ k, s.inUse k = true →
      rent k.space ≤ (s.system.get k).lamports ∧ s.system.shape k = (D.settlerProgram, k.space)) ∧
    (s₀.system.get .rentReserve).lamports ≤
      (s.system.get .rentReserve).lamports + Run.history (reserveSpent rent) tr ∧
    ∀ (ctx : ExecuteOrder) (ord : Order) (u : State), ctx.due rent ord u ≤ ExecuteOrder.fullRent rent := by
  have hexempt : s.Exempt rent := by
    refine Run.invariant (I := State.Exempt rent) ?_ (fun _ _ _ hI hs ↦ hs.exempt hI) hrun
    intro k hk
    cases k <;> simp [State.inUse, h₀.config, h₀.makerStates, h₀.quoteFills, h₀.makerOtokenBalances,
      h₀.vaultMMs] at hk
  have hshaped := shaped_of_run hrun h₀
  refine ⟨fun k hk ↦ ⟨hexempt k hk, ?_⟩, ?_, fun ctx ord u ↦ ctx.due_le ord u⟩
  · rw [hshaped k (State.isSettlers_of_inUse hk), if_pos hk]
  · have hbalance := Run.accounting_le (I := fun _ ↦ True) (Q := fun _ ↦ True) (fun _ ↦ 0)
      (fun s ↦ (s.system.get .rentReserve).lamports) (reserveSpent rent) (fun _ ↦ 0) trivial
      (fun _ _ _ _ _ _ ↦ trivial) (fun _ _ _ _ hs _ ↦ by
        have hle := hs.lamportsKept.1 .rentReserve trivial
        rw [if_pos rfl] at hle
        omega) hrun fun _ _ ↦ trivial
    rw [Run.history_zero] at hbalance
    omega

theorem rent_accounted_sample : (sampleState.system.get .rentReserve).lamports ≤
    ((sampleRun sampleFilled).system.get .rentReserve).lamports +
      Run.history (reserveSpent id) (sampleTrace sampleFilled) := by
  have hrun : Run (Step sampleDeployment splToken id sampleScheme) sampleState
      (sampleTrace sampleFilled) (sampleRun sampleFilled) :=
    sampleRun_run (by decide +kernel) (by decide +kernel)
  exact (rent_accounted hrun sampleState_initial).2.1

end Settler

end OptionsProtocol
