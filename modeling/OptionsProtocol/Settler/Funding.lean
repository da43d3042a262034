import OptionsProtocol.Settler.Accounts

/-!
# Addresses that hold lamports before they are created

The settler pays the rent of the addresses an order creates out of its rent reserve. Anybody may send lamports
to such an address beforehand, and the system program creates no account at an address that has any. The
settler then tops the address up, allocates and assigns it.

Both ways lead to one result: the settler owns the address, with the space it needs and at least the rent for
it, and the reserve has paid what was missing. What else an order does is the same whatever was sent.
-/

namespace OptionsProtocol

namespace Settler

open Except SystemProgram
open Controller (VaultKey)

variable {D : Deployment} {T : TokenProgram} {rent : ℕ → ℕ} {verifies : Ed25519.Signed → Bool}
  {s s' s₀ : State} {l : Label} {tr : List (Transition State Label)} {S S' : SystemAccounts Address}
  {k target : Address} {space : ℕ}

/-! ## Creating an address -/

/-- What an account lacks of the rent for its space. -/
def shortfall (rent : ℕ → ℕ) (a : SystemAccount) (space : ℕ) : ℕ := rent space - a.lamports

/-- The account once the settler owns it and its rent is paid. -/
def claimed (D : Deployment) (rent : ℕ → ℕ) (a : SystemAccount) (space : ℕ) : SystemAccount :=
  ⟨max a.lamports (rent space), D.settlerProgram, space⟩

/-- The accounts after the rent reserve paid for an address. -/
def sponsor (D : Deployment) (rent : ℕ → ℕ) (f : Address → SystemAccount) (target : Address) (space : ℕ) :
    Address → SystemAccount :=
  Function.update (Function.update f .rentReserve
    ((f .rentReserve).spend (shortfall rent (f target) space))) target (claimed D rent (f target) space)

theorem createProgramPda_of_zero (hne : target ≠ .rentReserve) (htarget : (S.get target).IsPlain)
    (hreserve : (S.get .rentReserve).IsPlain) (hzero : (S.get target).lamports = 0)
    (hcovers : shortfall rent (S.get target) space ≤ (S.get .rentReserve).lamports) :
    ∃ S', createProgramPda D rent S target space = .ok S' ∧ S'.get = sponsor D rent S.get target space := by
  rw [shortfall, hzero, Nat.sub_zero] at hcovers
  obtain ⟨S', h, hget⟩ := exists_createAccount hzero htarget hreserve hcovers hne.symm space
    D.settlerProgram
  refine ⟨S', ?_, ?_⟩
  · rw [createProgramPda, if_pos hzero, h]
    rfl
  · rw [hget]
    funext k
    by_cases hk : k = target
    · subst hk
      simp [pay, sponsor, claimed, SystemAccount.receive, hzero]
    · by_cases hr : k = .rentReserve
      · subst hr
        simp [pay, sponsor, shortfall, hne.symm, hzero]
      · simp [pay, sponsor, hk, hr]

/-- An address that holds some is brought to its rent, from below only. -/
theorem topUp_ok (hne : target ≠ .rentReserve) (hreserve : (S.get .rentReserve).IsPlain)
    (hcovers : shortfall rent (S.get target) space ≤ (S.get .rentReserve).lamports) :
    ∃ S', topUp rent S target space = .ok S' ∧
      S'.get = pay S.get .rentReserve target (shortfall rent (S.get target) space) := by
  rw [topUp, shortfall]
  split
  · obtain ⟨S', h, hget⟩ := exists_transfer hreserve hcovers hne.symm
    exact ⟨S', fromOption_eq_ok.mpr h, hget⟩
  · rename_i hlow
    refine ⟨S, rfl, ?_⟩
    rw [Nat.sub_eq_zero_of_le (Nat.le_of_not_lt hlow), pay, SystemAccount.spend_zero,
      SystemAccount.receive_zero, Function.update_eq_self, Function.update_eq_self]

/-- **An address can be created whatever it holds.** -/
theorem createProgramPda_ok (hne : target ≠ .rentReserve) (htarget : (S.get target).IsPlain)
    (hreserve : (S.get .rentReserve).IsPlain)
    (hcovers : shortfall rent (S.get target) space ≤ (S.get .rentReserve).lamports) :
    ∃ S', createProgramPda D rent S target space = .ok S' ∧ S'.get = sponsor D rent S.get target space := by
  by_cases hzero : (S.get target).lamports = 0
  · exact createProgramPda_of_zero hne htarget hreserve hzero hcovers
  · obtain ⟨S₁, h₁, hpaid⟩ := topUp_ok hne hreserve hcovers
    have htop : S₁.get target = (S.get target).receive (shortfall rent (S.get target) space) := by
      rw [hpaid, pay, Function.update_self]
    obtain ⟨S₂, S₃, h₂, h₃, hget⟩ := exists_claim (htop ▸ SystemAccount.isPlain_receive.mpr htarget) space
      D.settlerProgram
    refine ⟨S₃, ?_, ?_⟩
    · rw [createProgramPda_of_funded hzero, require_bind_of htarget.1, require_bind_of htarget.2, h₁]
      exact (fromOption_bind_of h₂).trans (fromOption_eq_ok.mpr h₃)
    · have hmax : (S.get target).lamports + shortfall rent (S.get target) space =
          max (S.get target).lamports (rent space) := by
        rw [shortfall]
        omega
      rw [hget, htop, SystemAccount.receive_lamports, hmax, hpaid, pay, Function.update_idem]
      rfl

/-! ## The addresses of an order

An order comes to four addresses: it opens three of the settler's own, unless they are in use, and pays the rent
of the vault. -/

/-- What the reserve pays for an address. -/
def State.due (rent : ℕ → ℕ) (s : State) : Address → ℕ
  | .vault _ => rent VAULT_SPACE
  | k => if s.inUse k then 0 else shortfall rent (s.system.get k) k.space

/-- The account there afterwards. -/
def State.paid (D : Deployment) (rent : ℕ → ℕ) (s : State) : Address → SystemAccount
  | .vault k => (s.system.get (.vault k)).receive (rent VAULT_SPACE)
  | k => if s.inUse k then s.system.get k else claimed D rent (s.system.get k) k.space

/-- The accounts after the reserve paid for some addresses. -/
def State.after (D : Deployment) (rent : ℕ → ℕ) (s : State) (ks : List Address) (k : Address) :
    SystemAccount :=
  if k = .rentReserve then (s.system.get k).spend (ks.map (s.due rent)).sum
  else if k ∈ ks then s.paid D rent k else s.system.get k

/-- The accounts after it paid for one. -/
def State.charged (D : Deployment) (rent : ℕ → ℕ) (s : State) (k : Address) : Address → SystemAccount :=
  Function.update (Function.update s.system.get .rentReserve
    ((s.system.get .rentReserve).spend (s.due rent k))) k (s.paid D rent k)

theorem State.after_nil : s.after D rent [] = s.system.get := by
  funext k
  simp [after]

theorem State.due_congr (h : S.get k = s.system.get k) :
    State.due rent { s with system := S } k = s.due rent k := by
  cases k <;> simp only [due, h] <;> rfl

theorem State.paid_congr (h : S.get k = s.system.get k) :
    State.paid D rent { s with system := S } k = s.paid D rent k := by
  cases k <;> simp only [paid, h] <;> rfl

/-- **Paying for one more address.** -/
theorem State.after_snoc {ks : List Address} (hS : S.get = s.after D rent ks) (hk : k ∉ ks)
    (hr : k ≠ .rentReserve) (hS' : S'.get = State.charged D rent { s with system := S } k) :
    S'.get = s.after D rent (ks ++ [k]) := by
  have hsame : S.get k = s.system.get k := by rw [hS, after, if_neg hr, if_neg hk]
  rw [hS', charged, due_congr hsame, paid_congr hsame]
  funext l
  by_cases hl : l = k
  · rw [hl, Function.update_self, after, if_neg hr, if_pos (by simp)]
  · rw [Function.update_of_ne hl]
    by_cases hlr : l = .rentReserve
    · subst hlr
      rw [Function.update_self, after, if_pos rfl]
      dsimp only
      rw [hS, after, if_pos rfl, SystemAccount.spend_spend, List.map_append, List.sum_append,
        List.map_singleton, List.sum_singleton]
    · rw [Function.update_of_ne hlr]
      dsimp only
      rw [hS, after, after, if_neg hlr, if_neg hlr]
      simp [hl]

/-! ## What the reserve can pay for -/

/-- The reserve can pay for the address, and the address can be opened. -/
structure State.CanPay (rent : ℕ → ℕ) (s : State) (k : Address) : Prop where
  plain : k.IsSettlers → s.inUse k = false → (s.system.get k).IsPlain
  reserve : (s.system.get .rentReserve).IsPlain
  covers : s.due rent k ≤ (s.system.get .rentReserve).lamports

theorem State.CanPay.vault {vault : VaultKey} (h : s.CanPay rent (.vault vault)) :
    ∃ S', transfer s.system .rentReserve (.vault vault) (rent VAULT_SPACE) = some S' ∧
      S'.get = s.charged D rent (.vault vault) :=
  exists_transfer h.reserve h.covers (by simp)

theorem State.charged_of_inUse (hold : s.inUse k = true) : s.system.get = s.charged D rent k := by
  have hdue : s.due rent k = 0 := by cases k <;> simp_all [due, inUse]
  have hpaid : s.paid D rent k = s.system.get k := by cases k <;> simp_all [paid, inUse]
  rw [charged, hdue, hpaid, SystemAccount.spend_zero, Function.update_eq_self, Function.update_eq_self]

theorem State.CanPay.create (h : s.CanPay rent k) (hs : k.IsSettlers) (hr : k ≠ .rentReserve)
    (hnew : s.inUse k = false) :
    ∃ S', createProgramPda D rent s.system k k.space = .ok S' ∧ S'.get = s.charged D rent k := by
  have hdue : s.due rent k = shortfall rent (s.system.get k) k.space := by
    cases k <;> simp_all [due, Address.IsSettlers]
  have hpaid : s.paid D rent k = claimed D rent (s.system.get k) k.space := by
    cases k <;> simp_all [paid, Address.IsSettlers]
  rw [charged, hdue, hpaid]
  exact createProgramPda_ok hr (h.plain hs hnew) h.reserve (hdue ▸ h.covers)

theorem State.CanPay.loadOrInit {α : Type} {stored : Option α} (h : s.CanPay rent k) (hs : k.IsSettlers)
    (hr : k ≠ .rentReserve) (hstored : s.inUse k = stored.isSome) (fresh : α) :
    ∃ S', loadOrInit D rent s k k.space stored fresh = .ok (S', stored.getD fresh) ∧
      S'.get = s.charged D rent k := by
  cases stored with
  | some a => exact ⟨s.system, rfl, charged_of_inUse hstored⟩
  | none =>
    obtain ⟨S', hcreate, hget⟩ := h.create (D := D) hs hr hstored
    exact ⟨S', bind_eq_ok.mpr ⟨S', hcreate, rfl⟩, hget⟩

theorem State.CanPay.vaultMM {vault : VaultKey} (h : s.CanPay rent (.vaultMM vault))
    (hnew : s.vaultMMs.lookup vault = none) :
    ∃ S', initVaultMMAccount D rent s vault = .ok S' ∧ S'.get = s.charged D rent (.vaultMM vault) := by
  obtain ⟨S', hcreate, hget⟩ := h.create (D := D) trivial (by simp)
    (by rw [State.inUse, hnew, Option.isSome_none])
  exact ⟨S', require_bind_eq_ok.mpr ⟨hnew, hcreate⟩, hget⟩

/-! ## Orders -/

/-- The addresses an order comes to. -/
def ExecuteOrder.addresses (ctx : ExecuteOrder) (ord : Order) : List Address :=
  [.quoteFill (ctx.quoteKey ord), .vault ctx.vault, .makerOtokenBalance ctx.balanceKey,
    .vaultMM ctx.vault]

/-- What an order costs the reserve. -/
def ExecuteOrder.due (rent : ℕ → ℕ) (ctx : ExecuteOrder) (ord : Order) (s : State) : ℕ :=
  ((ctx.addresses ord).map (s.due rent)).sum

/-- The reserve can pay for the order. -/
structure ExecuteOrder.Sponsored (rent : ℕ → ℕ) (ctx : ExecuteOrder) (ord : Order) (s : State) : Prop where
  plain : ∀ k ∈ ctx.addresses ord, k.IsSettlers → s.inUse k = false → (s.system.get k).IsPlain
  reserve : (s.system.get .rentReserve).IsPlain
  covers : ctx.due rent ord s ≤ (s.system.get .rentReserve).lamports

section Order

variable {ctx : ExecuteOrder} {ord : Order} {ks rest : List Address}

theorem ExecuteOrder.addresses_nodup (ctx : ExecuteOrder) (ord : Order) :
    (.rentReserve :: ctx.addresses ord).Nodup := by
  simp [addresses]

/-- Having paid for some of the addresses, the reserve can pay for the next. -/
theorem ExecuteOrder.Sponsored.canPay (h : ctx.Sponsored rent ord s)
    (hsplit : ctx.addresses ord = ks ++ k :: rest) (hS : S.get = s.after D rent ks) :
    State.CanPay rent { s with system := S } k := by
  have hmem : k ∈ ctx.addresses ord := by simp [hsplit]
  obtain ⟨hreserve, hnodup⟩ := List.nodup_cons.mp (addresses_nodup ctx ord)
  have hr : k ≠ .rentReserve := fun heq ↦ hreserve (heq ▸ hmem)
  have hk : k ∉ ks := fun hks ↦ by
    rw [hsplit] at hnodup
    exact (List.nodup_append.mp hnodup).2.2 k hks k List.mem_cons_self rfl
  have hsame : S.get k = s.system.get k := by rw [hS, State.after, if_neg hr, if_neg hk]
  have hspent : S.get .rentReserve = (s.system.get .rentReserve).spend (ks.map (s.due rent)).sum := by
    rw [hS, State.after, if_pos rfl]
  have hcovers := h.covers
  rw [due, hsplit, List.map_append, List.sum_append, List.map_cons, List.sum_cons] at hcovers
  refine ⟨fun hs hnew ↦ hsame ▸ h.plain k hmem hs hnew,
    hspent ▸ SystemAccount.isPlain_spend.mpr h.reserve, ?_⟩
  rw [State.due_congr hsame]
  dsimp only
  rw [hspent, SystemAccount.spend_lamports]
  omega

/-- **The reserve pays for what an order needs.** -/
theorem ExecuteOrder.Sponsored.creates (h : ctx.Sponsored rent ord s) :
    ∃ S₁ S₂ S₃, loadOrInitQuoteFill D rent s (ctx.quoteKey ord) =
        .ok (S₁, (s.quoteFills.lookup (ctx.quoteKey ord)).getD .zeroed) ∧
      transfer S₁ .rentReserve (.vault ctx.vault) (rent VAULT_SPACE) = some S₂ ∧
      loadOrInitMakerOtokenBalance D rent { s with system := S₂ } ctx.balanceKey =
        .ok (S₃, (s.makerOtokenBalances.lookup ctx.balanceKey).getD
          { maker := Pubkey.default, otokenMint := Pubkey.default, balance := 0 }) ∧
      (s.vaultMMs.lookup ctx.vault = none →
        ∃ S₄, initVaultMMAccount D rent { s with system := S₃ } ctx.vault = .ok S₄ ∧
          S₄.get = s.after D rent (ctx.addresses ord)) := by
  simp only [loadOrInitQuoteFill_def, loadOrInitMakerOtokenBalance_def]
  have hcounter : State.CanPay rent s (.quoteFill (ctx.quoteKey ord)) :=
    h.canPay (D := D) (S := s.system) rfl State.after_nil.symm
  obtain ⟨S₁, h₁, hget₁⟩ := hcounter.loadOrInit (D := D) trivial (by simp) rfl .zeroed
  have hafter₁ := State.after_snoc State.after_nil.symm (by simp) (by simp) hget₁
  obtain ⟨S₂, h₂, hget₂⟩ := (h.canPay rfl hafter₁).vault (D := D)
  have hafter₂ := State.after_snoc hafter₁ (by simp) (by simp) hget₂
  have hbalance : State.CanPay rent { s with system := S₂ } (.makerOtokenBalance ctx.balanceKey) :=
    h.canPay rfl hafter₂
  obtain ⟨S₃, h₃, hget₃⟩ := hbalance.loadOrInit (D := D) trivial (by simp) rfl
    { maker := Pubkey.default, otokenMint := Pubkey.default, balance := 0 }
  have hafter₃ := State.after_snoc hafter₂ (by simp) (by simp) hget₃
  refine ⟨S₁, S₂, S₃, h₁, h₂, h₃, fun hnew ↦ ?_⟩
  obtain ⟨S₄, h₄, hget₄⟩ := (h.canPay rfl hafter₃).vaultMM (D := D) hnew
  exact ⟨S₄, h₄, State.after_snoc hafter₃ (by simp) (by simp) hget₄⟩

theorem initVaultMMAccount_of_inUse {vault : VaultKey} (h : s.vaultMMs.lookup vault ≠ none)
    (S : SystemAccounts Address) :
    initVaultMMAccount D rent { s with system := S } vault = .error (err .invalidCustodyAccount) :=
  bind_eq_error.mpr (.inl (require_eq_error.mpr ⟨h, rfl⟩))

/-- The accounts of `t` but for its lamports are those of `s`, and both orders were paid for. -/
structure ExecuteOrder.Matches (D : Deployment) (rent : ℕ → ℕ) (ctx : ExecuteOrder) (ord : Order)
    (s t s' t' : State) : Prop where
  eq : t' = { s' with system := t'.system }
  left : s'.system.get = s.after D rent (ctx.addresses ord)
  right : t'.system.get = t.after D rent (ctx.addresses ord)

/-- **An order does the same whatever its addresses held before.** -/
theorem executeOrder_alike {tx : Transaction} {i : ℕ} (hs : ctx.Sponsored rent ord s)
    (ht : ctx.Sponsored rent ord { s with system := S }) :
    Alike (ctx.Matches D rent ord s { s with system := S }) (executeOrder D T rent ctx ord tx i s)
      (executeOrder D T rent ctx ord tx i { s with system := S }) := by
  obtain ⟨S₁, S₂, S₃, hs₁, hs₂, hs₃, hs₄⟩ := hs.creates (D := D)
  obtain ⟨T₁, T₂, T₃, ht₁, ht₂, ht₃, ht₄⟩ := ht.creates (D := D)
  rw [executeOrder, executeOrder]
  refine .bind_same _ fun config _ ↦ ?_
  rw [require_bind_of hs.reserve.1, require_bind_of ht.reserve.1]
  -- the checks
  repeat refine .bind_same _ fun _ _ ↦ ?_
  refine .bind_of_ok hs₁ ht₁ ?_
  refine .bind_same _ fun fill _ ↦ ?_
  refine .bind_same _ fun split _ ↦ ?_
  refine .bind_of_ok (fromOption_eq_ok.mpr hs₂) (fromOption_eq_ok.mpr ht₂) ?_
  -- the calls to the controller
  repeat refine .bind_same _ fun _ _ ↦ ?_
  refine .bind_of_ok hs₃ ht₃ ?_
  dsimp only
  repeat refine .bind_same _ fun _ _ ↦ ?_
  by_cases hnew : s.vaultMMs.lookup ctx.vault = none
  · obtain ⟨S₄, hs₄, hleft⟩ := hs₄ hnew
    obtain ⟨T₄, ht₄, hright⟩ := ht₄ hnew
    refine .bind_of_ok hs₄ ht₄ ?_
    -- the premium
    repeat refine .bind_same _ fun _ _ ↦ ?_
    exact .ok ⟨rfl, hleft, hright⟩
  · exact .bind_of_error (initVaultMMAccount_of_inUse hnew S₃) (initVaultMMAccount_of_inUse hnew T₃)

theorem State.Shaped.sponsored (h : s.Shaped D)
    (hcovers : ctx.due rent ord s ≤ (s.system.get .rentReserve).lamports) : ctx.Sponsored rent ord s :=
  ⟨fun _ _ hk hnew ↦ h.isPlain hk hnew, h.isPlain trivial rfl, hcovers⟩

end Order

/-- **Lamports sent in advance block nothing and change nothing.** An empty account of the system program can
be created whatever it holds, for exactly what it lacks, by a reserve that stays exempt from rent. In every
run, therefore, an order ends the same way, and does the same to everything but lamports, whatever the
settler's addresses were sent before it. -/
theorem prefunding_harmless :
    (∀ (D : Deployment) (rent : ℕ → ℕ) (S : SystemAccounts Address) (target : Address) (space : ℕ),
      target ≠ .rentReserve → (S.get target).IsPlain → (S.get .rentReserve).IsPlain →
      shortfall rent (S.get target) space + rent 0 ≤ (S.get .rentReserve).lamports →
      ∃ S', createProgramPda D rent S target space = .ok S' ∧
        S'.get target = ⟨max (S.get target).lamports (rent space), D.settlerProgram, space⟩ ∧
        S'.get .rentReserve = (S.get .rentReserve).spend (shortfall rent (S.get target) space) ∧
        rent 0 ≤ (S'.get .rentReserve).lamports ∧
        ∀ k, k ≠ target → k ≠ .rentReserve → S'.get k = S.get k) ∧
    ∀ (D : Deployment) (T : TokenProgram) (rent : ℕ → ℕ) (verifies : Ed25519.Signed → Bool)
      (s₀ s : State) (tr : List (Transition State Label)), Initial D s₀ →
      Run (Step D T rent verifies) s₀ tr s →
      ∀ S : SystemAccounts Address, (∀ k : Address, k.IsSettlers → S.shape k = s.system.shape k) →
      ∀ (ctx : ExecuteOrder) (ord : Order) (tx : Transaction) (i : ℕ),
        ctx.due rent ord s + rent 0 ≤ (s.system.get .rentReserve).lamports →
        ctx.due rent ord { s with system := S } + rent 0 ≤ (S.get .rentReserve).lamports →
        Alike (ctx.Matches D rent ord s { s with system := S }) (executeOrder D T rent ctx ord tx i s)
          (executeOrder D T rent ctx ord tx i { s with system := S }) := by
  constructor
  · intro D rent S target space hne htarget hreserve hcovers
    obtain ⟨S', h, hget⟩ := createProgramPda_ok (D := D) hne htarget hreserve
      (Nat.le_of_add_right_le hcovers)
    have hpaid : S'.get .rentReserve =
        (S.get .rentReserve).spend (shortfall rent (S.get target) space) := by
      rw [hget, sponsor, Function.update_of_ne hne.symm, Function.update_self]
    refine ⟨S', h, ?_, hpaid, ?_, fun k hk hr ↦ ?_⟩
    · rw [hget, sponsor, Function.update_self, claimed]
    · rw [hpaid, SystemAccount.spend_lamports]
      omega
    · rw [hget, sponsor, Function.update_of_ne hk, Function.update_of_ne hr]
  · intro D T rent verifies s₀ s tr h₀ hrun S hS ctx ord tx i hs ht
    have hshaped := shaped_of_run hrun h₀
    have hother : State.Shaped D { s with system := S } := hshaped.congr hS rfl
    exact executeOrder_alike (hshaped.sponsored (Nat.le_of_add_right_le hs))
      (hother.sponsored (Nat.le_of_add_right_le ht))

section Sample

/-- Somebody sends lamports to an address. -/
def donate (k : Address) (n : ℕ) (S : SystemAccounts Address) : SystemAccounts Address :=
  S.insert k { S.get k with lamports := (S.get k).lamports + n }

/-- One lamport, the rent less one, and more than the rent, at the three addresses of the sample order. -/
def sampleDonated : SystemAccounts Address :=
  donate (.quoteFill ⟨otherKey, 0, 1⟩) 1 <| donate (.makerOtokenBalance ⟨otherKey, 20⟩) 80 <|
    donate (.vaultMM ⟨4, 0⟩) 1000 (sampleRun sampleSetup).system

theorem prefunding_harmless_sample :
    (∃ S', createProgramPda sampleDeployment id sampleDonated (.quoteFill ⟨otherKey, 0, 1⟩)
        QUOTE_FILL_SPACE = .ok S' ∧
      S'.get (.quoteFill ⟨otherKey, 0, 1⟩) = ⟨18, sampleDeployment.settlerProgram, 18⟩) ∧
    ∃ s' t', executeOrder sampleDeployment splToken id (sampleExecuteOrder 0) sampleOrder
        sampleTransaction 1 (sampleRun sampleSetup) = .ok s' ∧
      executeOrder sampleDeployment splToken id (sampleExecuteOrder 0) sampleOrder sampleTransaction 1
        { sampleRun sampleSetup with system := sampleDonated } = .ok t' ∧
      t' = { s' with system := t'.system } := by
  constructor
  · obtain ⟨S', h, htarget, -⟩ := prefunding_harmless.1 sampleDeployment id sampleDonated
      (.quoteFill ⟨otherKey, 0, 1⟩) QUOTE_FILL_SPACE (by decide) (by decide +kernel) (by decide +kernel)
      (by decide +kernel)
    refine ⟨S', h, htarget.trans ?_⟩
    decide +kernel
  · have hshape : ∀ k : Address, k.IsSettlers →
        sampleDonated.shape k = (sampleRun sampleSetup).system.shape k := by
      intro k _
      simp only [sampleDonated, donate, SystemAccounts.shape_insert_lamports]
    have hrun : Run (Step sampleDeployment splToken id sampleScheme) sampleState
        (sampleTrace sampleSetup) (sampleRun sampleSetup) :=
      sampleRun_run (by decide +kernel) (by decide +kernel)
    have halike := prefunding_harmless.2 sampleDeployment splToken id sampleScheme sampleState _ _
      sampleState_initial hrun sampleDonated hshape (sampleExecuteOrder 0) sampleOrder sampleTransaction 1
      (by decide +kernel) (by decide +kernel)
    obtain ⟨s', hs⟩ := exists_of_isSome (x := executeOrder sampleDeployment splToken id
      (sampleExecuteOrder 0) sampleOrder sampleTransaction 1 (sampleRun sampleSetup)) (by decide +kernel)
    obtain ⟨t', ht, hmatches⟩ := halike.of_ok hs
    exact ⟨s', t', hs, ht, hmatches.eq⟩

end Sample

end Settler

end OptionsProtocol
