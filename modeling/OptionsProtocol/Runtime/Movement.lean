import OptionsProtocol.Library.Reorder
import OptionsProtocol.Runtime.Spl

/-!
# Movements of tokens

Transfers and burns, seen as one thing: tokens leave an account, for another account or to be destroyed.
Two movements are independent if neither pays an account the other takes from. They may take from the same
account, pay the same account and burn the same mint; still they can be exchanged, since whatever both
need is there for both.

There is one exception. An account whose delegate is its own owner is spent under the allowance until that
is used up, and without a limit afterwards, so that a small payment may have to come before a large one.
Independent movements therefore share only accounts that are not delegated to the signer.
-/

namespace OptionsProtocol

/-! ## Repeating a call -/

/-- The same accounts and mints, with other amounts. -/
structure Ledger.SameShape (L M : Ledger) : Prop where
  account : ∀ k, (L.accounts.lookup k).map (fun a ↦ (a.mint, a.owner)) =
    (M.accounts.lookup k).map fun a ↦ (a.mint, a.owner)
  mint : ∀ m, (L.mints.lookup m).map Mint.decimals = (M.mints.lookup m).map Mint.decimals

/-- A token program that looks at amounts only for the documented checks: what a transfer credits is
determined by the mint and the amount, amounts are 64-bit numbers, and a call that went through once goes
through wherever the same accounts cover and authorise it and nothing overflows. Fees are admitted, and so
are accounts that it refuses for reasons of its own. -/
structure TokenProgram.Steady (T : TokenProgram) (received : Pubkey → ℕ → ℕ) : Prop where
  transferred : ∀ {L L' src mint dst auth n d},
    T.transferChecked L src mint dst auth n d = some L' →
      L.Transferred L' src mint dst auth n (received mint n)
  transfer_lt : ∀ {L L' src mint dst auth n d},
    T.transferChecked L src mint dst auth n d = some L' → src ≠ dst → L'.amount dst < 2 ^ 64
  transfer_again : ∀ {L L' M src mint dst auth n d a b},
    T.transferChecked L src mint dst auth n d = some L' → L.SameShape M →
      M.accounts.lookup src = some a → M.accounts.lookup dst = some b → n ≤ a.amount →
      a.Authorizes auth n → (src ≠ dst → b.amount + received mint n < 2 ^ 64) →
      (T.transferChecked M src mint dst auth n d).isSome
  burn_again : ∀ {L L' M mint src auth n d a x},
    T.burnChecked L mint src auth n d = some L' → L.SameShape M →
      M.accounts.lookup src = some a → M.mints.lookup mint = some x → n ≤ a.amount →
      n ≤ x.supply → a.Authorizes auth n → (T.burnChecked M mint src auth n d).isSome

namespace Ledger

variable {L M N : Ledger}

theorem SameShape.refl (L : Ledger) : L.SameShape L := ⟨fun _ ↦ rfl, fun _ ↦ rfl⟩

theorem SameShape.symm (h : L.SameShape M) : M.SameShape L :=
  ⟨fun k ↦ (h.account k).symm, fun m ↦ (h.mint m).symm⟩

theorem SameShape.trans (h : L.SameShape M) (h' : M.SameShape N) : L.SameShape N :=
  ⟨fun k ↦ (h.account k).trans (h'.account k), fun m ↦ (h.mint m).trans (h'.mint m)⟩

theorem SameShape.account_some (h : L.SameShape M) {k : Pubkey} {a : TokenAccount}
    (ha : L.accounts.lookup k = some a) :
    ∃ b, M.accounts.lookup k = some b ∧ b.mint = a.mint ∧ b.owner = a.owner := by
  have heq := h.account k
  rw [ha, Option.map_some] at heq
  obtain ⟨b, hb, hab⟩ := Option.map_eq_some_iff.mp heq.symm
  exact ⟨b, hb, congrArg Prod.fst hab, congrArg Prod.snd hab⟩

theorem SameShape.mint_some (h : L.SameShape M) {m : Pubkey} {x : Mint}
    (hx : L.mints.lookup m = some x) : ∃ y, M.mints.lookup m = some y ∧ y.decimals = x.decimals := by
  have heq := h.mint m
  rw [hx, Option.map_some] at heq
  exact Option.map_eq_some_iff.mp heq.symm

end Ledger

theorem splToken_steady : splToken.Steady fun _ n ↦ n where
  transferred h := splToken_plain h
  transfer_lt {L L' src mint dst auth n d} h hne := by
    obtain ⟨a, b, x, ha, hb, -, ⟨-, -, -, -, -, hfit⟩, rfl⟩ := Spl.transferChecked_eq_some.mp h
    rw [if_neg hne, Ledger.amount, Finmap.lookup_insert]
    exact hfit hne
  transfer_again {L L' M src mint dst auth n d a b} h hs ha hb hn hauth hfit := by
    obtain ⟨a', b', x, ha', hb', hx, ⟨hma, hmb, hd, -⟩, -⟩ := Spl.transferChecked_eq_some.mp h
    obtain ⟨a₂, ha₂, hma₂, -⟩ := hs.account_some ha'
    obtain ⟨b₂, hb₂, hmb₂, -⟩ := hs.account_some hb'
    obtain ⟨y, hy, hyd⟩ := hs.mint_some hx
    obtain rfl := Option.some.inj (ha.symm.trans ha₂)
    obtain rfl := Option.some.inj (hb.symm.trans hb₂)
    exact splToken_live ha hb hy (hma₂.trans hma) (hmb₂.trans hmb) (hyd.trans hd) hn hauth hfit
  burn_again {L L' M mint src auth n d a x} h hs ha hx hn hsupply hauth := by
    obtain ⟨x', a', hx', ha', ⟨hma, hd, -⟩, -⟩ := Spl.burnChecked_eq_some.mp h
    obtain ⟨a₂, ha₂, hma₂, -⟩ := hs.account_some ha'
    obtain ⟨y, hy, hyd⟩ := hs.mint_some hx'
    obtain rfl := Option.some.inj (ha.symm.trans ha₂)
    obtain rfl := Option.some.inj (hx.symm.trans hy)
    exact splToken_burnLive ha hx (hma₂.trans hma) (hyd.trans hd) hn hsupply hauth

/-! ## Movements -/

/-- Tokens leave an account. -/
structure Movement where
  src : Pubkey
  mint : Pubkey
  auth : Pubkey
  amount : ℕ
  decimals : ℕ
  /-- Where they go; nowhere if they are burned. -/
  dst : Option Pubkey
  deriving DecidableEq

namespace Movement

/-- Carry it out. How it fails does not matter here. -/
def run (T : TokenProgram) (L : Ledger) (x : Movement) : Except Unit Ledger :=
  match x.dst with
  | some dst =>
    Except.fromOption (T.transferChecked L x.src x.mint dst x.auth x.amount x.decimals) ()
  | none => Except.fromOption (T.burnChecked L x.mint x.src x.auth x.amount x.decimals) ()

variable (received : Pubkey → ℕ → ℕ)

/-- What it does to the account `k`. -/
def onAccount (x : Movement) (k : Pubkey) (a : TokenAccount) : TokenAccount :=
  if x.dst = some x.src then a
  else if k = x.src then a.debit x.auth x.amount
  else if x.dst = some k then a.credit (received x.mint x.amount)
  else a

/-- What it does to the mint `m`. -/
def onMint (x : Movement) (m : Pubkey) (y : Mint) : Mint :=
  if x.dst = none ∧ m = x.mint then { y with supply := y.supply - x.amount } else y

/-- It is covered and authorised, and nothing overflows. -/
structure Fits (x : Movement) (L : Ledger) : Prop where
  src : ∃ a, L.accounts.lookup x.src = some a ∧ x.amount ≤ a.amount ∧ a.Authorizes x.auth x.amount
  dst : ∀ k, x.dst = some k → k ≠ x.src →
    ∃ b, L.accounts.lookup k = some b ∧ b.amount + received x.mint x.amount < 2 ^ 64
  supply : x.dst = none → ∃ y, L.mints.lookup x.mint = some y ∧ x.amount ≤ y.supply

/-- Two movements are independent, if the accounts `Q` have no delegate of the given address. -/
structure Independent (Q : Pubkey → Pubkey → Prop) (x y : Movement) : Prop where
  left : x.dst ≠ some y.src
  right : y.dst ≠ some x.src
  shared : x.src = y.src → Q x.src x.auth ∧ Q y.src y.auth

variable {received} {T : TokenProgram} {L L' M : Ledger} {x y : Movement} {k m : Pubkey}
  {a : TokenAccount} {z : Mint}

/-! ## What a movement does -/

theorem onAccount_src (hself : x.dst ≠ some x.src) :
    x.onAccount received x.src a = a.debit x.auth x.amount := by
  rw [onAccount, if_neg hself, if_pos rfl]

theorem onAccount_dst (hd : x.dst = some k) (hs : k ≠ x.src) :
    x.onAccount received k a = a.credit (received x.mint x.amount) := by
  have hself : x.dst ≠ some x.src := by
    rw [hd]
    exact fun h ↦ hs (Option.some.inj h)
  rw [onAccount, if_neg hself, if_neg hs, if_pos hd]

theorem onAccount_other (hs : k ≠ x.src) (hd : x.dst ≠ some k) : x.onAccount received k a = a := by
  rw [onAccount, if_neg hs, if_neg hd, ite_self]

@[simp] theorem onAccount_mint : (x.onAccount received k a).mint = a.mint := by
  rw [onAccount]
  split_ifs <;> simp

@[simp] theorem onAccount_owner : (x.onAccount received k a).owner = a.owner := by
  rw [onAccount]
  split_ifs <;> simp

@[simp] theorem onMint_decimals : (x.onMint m z).decimals = z.decimals := by
  rw [onMint]
  split_ifs <;> rfl

theorem onAccount_delegate {auth : Pubkey} (h : a.delegate ≠ some auth) :
    (x.onAccount received k a).delegate ≠ some auth := by
  rw [onAccount]
  split_ifs
  · exact h
  · rw [TokenAccount.debit]
    split_ifs
    · simp
    · exact h
    · exact h
  · exact h
  · exact h

theorem map_onAccount_other (o : Option TokenAccount) (hs : k ≠ x.src) (hd : x.dst ≠ some k) :
    o.map (x.onAccount received k) = o := by
  rw [show x.onAccount received k = id from funext fun _ ↦ onAccount_other hs hd, Option.map_id, id]

theorem map_onMint_other (o : Option Mint) (h : ¬(x.dst = none ∧ m = x.mint)) :
    o.map (x.onMint m) = o := by
  rw [show x.onMint m = id from funext fun _ ↦ if_neg h, Option.map_id, id]

theorem run_spec (hT : T.Steady received) (h : x.run T L = .ok L') :
    (∀ k, L'.accounts.lookup k = (L.accounts.lookup k).map (x.onAccount received k)) ∧
      ∀ m, L'.mints.lookup m = (L.mints.lookup m).map (x.onMint m) := by
  obtain ⟨src, mint, auth, n, d, dst⟩ := x
  cases dst with
  | some dst =>
    have ht := hT.transferred (Except.fromOption_eq_ok.mp h)
    refine ⟨fun k ↦ ?_, fun m ↦ ?_⟩
    · obtain ⟨a, b, ha, hb, -, -, -, -, -, ⟨hsd, -, rfl⟩ | ⟨hne, rfl⟩⟩ := ht.cases
      · -- an account that pays itself
        have hid : onAccount received ⟨src, mint, auth, n, d, some dst⟩ k = id :=
          funext fun _ ↦ if_pos (congrArg some hsd.symm)
        rw [hid, Option.map_id, id]
      · have hself : some dst ≠ some src := fun h ↦ hne (Option.some.inj h).symm
        by_cases hsrc : k = src
        · subst hsrc
          rw [Finmap.lookup_insert_of_ne _ hne, Finmap.lookup_insert, ha, Option.map_some,
            onAccount_src hself]
        · by_cases hdst : k = dst
          · subst hdst
            rw [Finmap.lookup_insert, hb, Option.map_some, onAccount_dst rfl hsrc]
          · have hother : some dst ≠ some k := fun h ↦ hdst (Option.some.inj h).symm
            rw [Finmap.lookup_insert_of_ne _ hdst, Finmap.lookup_insert_of_ne _ hsrc,
              map_onAccount_other _ hsrc hother]
    · rw [ht.mints_eq, map_onMint_other _ (by simp)]
  | none =>
    obtain ⟨z, a, hz, ha, -, -, -, -, rfl⟩ := T.burnChecked_spec (Except.fromOption_eq_ok.mp h)
    refine ⟨fun k ↦ ?_, fun m ↦ ?_⟩
    · by_cases hsrc : k = src
      · subst hsrc
        rw [Finmap.lookup_insert, ha, Option.map_some, onAccount_src (by simp)]
      · rw [Finmap.lookup_insert_of_ne _ hsrc, map_onAccount_other _ hsrc (by simp)]
    · by_cases hm : m = mint
      · subst hm
        rw [Finmap.lookup_insert, hz, Option.map_some, onMint, if_pos ⟨rfl, rfl⟩]
      · rw [Finmap.lookup_insert_of_ne _ hm, map_onMint_other _ fun h ↦ hm h.2]

theorem run_sameShape (hT : T.Steady received) (h : x.run T L = .ok L') : L.SameShape L' := by
  obtain ⟨haccounts, hmints⟩ := run_spec hT h
  constructor
  · intro k
    rw [haccounts k, Option.map_map]
    exact congrFun (congrArg _ (funext fun a ↦ by simp)) _
  · intro m
    rw [hmints m, Option.map_map]
    exact congrFun (congrArg _ (funext fun z ↦ by simp)) _

theorem run_fits (hT : T.Steady received) (h : x.run T L = .ok L') : x.Fits received L := by
  obtain ⟨src, mint, auth, n, d, dst⟩ := x
  cases dst with
  | some dst =>
    have ht := Except.fromOption_eq_ok.mp h
    obtain ⟨a, b, ha, hb, -, -, hn, hauth, -, hL'⟩ := (hT.transferred ht).cases
    refine ⟨⟨a, ha, hn, hauth⟩, fun k hk hne ↦ ?_, fun hnone ↦ absurd hnone (by simp)⟩
    obtain rfl : dst = k := Option.some.inj hk
    refine ⟨b, hb, ?_⟩
    have hlt := hT.transfer_lt ht (Ne.symm hne)
    have hb' := (run_spec hT h).1 dst
    rw [hb, Option.map_some, onAccount_dst rfl hne] at hb'
    rwa [Ledger.amount_eq hb'] at hlt
  | none =>
    obtain ⟨z, a, hz, ha, -, hn, hsupply, hauth, -⟩ :=
      T.burnChecked_spec (Except.fromOption_eq_ok.mp h)
    exact ⟨⟨a, ha, hn, hauth⟩, fun k hk ↦ absurd hk (by simp), fun _ ↦ ⟨z, hz, hsupply⟩⟩

theorem run_again (hT : T.Steady received) (h : x.run T L = .ok L') (hs : L.SameShape M)
    (hfits : x.Fits received M) : ∃ M', x.run T M = .ok M' := by
  obtain ⟨src, mint, auth, n, d, dst⟩ := x
  obtain ⟨a, ha, hn, hauth⟩ := hfits.src
  cases dst with
  | some dst =>
    have ht := Except.fromOption_eq_ok.mp h
    obtain ⟨b, hb, hfit⟩ : ∃ b, M.accounts.lookup dst = some b ∧
        (src ≠ dst → b.amount + received mint n < 2 ^ 64) := by
      by_cases hsd : dst = src
      · exact ⟨a, hsd ▸ ha, fun hne ↦ absurd hsd.symm hne⟩
      · obtain ⟨b, hb, hfit⟩ := hfits.dst dst rfl hsd
        exact ⟨b, hb, fun _ ↦ hfit⟩
    obtain ⟨M', hM'⟩ := Option.isSome_iff_exists.mp (hT.transfer_again ht hs ha hb hn hauth hfit)
    exact ⟨M', Except.fromOption_eq_ok.mpr hM'⟩
  | none =>
    obtain ⟨z, hz, hsupply⟩ := hfits.supply rfl
    obtain ⟨M', hM'⟩ := Option.isSome_iff_exists.mp
      (hT.burn_again (Except.fromOption_eq_ok.mp h) hs ha hz hn hsupply hauth)
    exact ⟨M', Except.fromOption_eq_ok.mpr hM'⟩

/-! ## Exchanging two movements -/

/-- No account has a delegate that `Q` rules out. -/
def Undelegated (Q : Pubkey → Pubkey → Prop) (L : Ledger) : Prop :=
  ∀ k auth a, Q k auth → L.accounts.lookup k = some a → a.delegate ≠ some auth

variable {Q : Pubkey → Pubkey → Prop}

theorem Undelegated.run (hT : T.Steady received) (hQ : Undelegated Q L) (h : x.run T L = .ok L') :
    Undelegated Q L' := by
  intro k auth a' hk ha'
  rw [(run_spec hT h).1 k] at ha'
  obtain ⟨a, ha, rfl⟩ := Option.map_eq_some_iff.mp ha'
  exact onAccount_delegate (hQ k auth a hk ha)

theorem Independent.symm (h : Independent Q x y) : Independent Q y x :=
  ⟨h.right, h.left, fun hsrc ↦ (h.shared hsrc.symm).symm⟩

/-- Two payments of one account can be made in either order, unless one of them uses up an allowance. -/
theorem debit_comm {a : TokenAccount} {u v : Pubkey} (m n : ℕ) (hu : a.delegate ≠ some u)
    (hv : a.delegate ≠ some v) : (a.debit u m).debit v n = (a.debit v n).debit u m := by
  rw [TokenAccount.debit, TokenAccount.debit, TokenAccount.debit, TokenAccount.debit, if_neg hu,
    if_neg hv, if_neg hv, if_neg hu]
  simp only [Nat.sub_right_comm]

/-- Unless one of them uses up an allowance, neither payment decides who may make the other. -/
theorem debit_authorizes {a : TokenAccount} {u v : Pubkey} {m n : ℕ} (hu : a.delegate ≠ some u)
    (hv : a.delegate ≠ some v) : (a.debit u m).Authorizes v n ↔ a.Authorizes v n := by
  have hv' : (a.debit u m).delegate ≠ some v := by
    rwa [TokenAccount.debit, if_neg hu]
  rw [TokenAccount.authorizes_of_ne hv', TokenAccount.authorizes_of_ne hv, TokenAccount.debit_owner]

theorem onAccount_comm (hind : Independent Q x y)
    (hQ : ∀ auth, Q k auth → a.delegate ≠ some auth) :
    x.onAccount received k (y.onAccount received k a) =
      y.onAccount received k (x.onAccount received k a) := by
  by_cases hx : k = x.src
  · subst hx
    by_cases hy : x.src = y.src
    · -- both take from the account, so neither pays it
      obtain ⟨hqx, hqy⟩ := hind.shared hy
      rw [onAccount_src (hy ▸ hind.left), onAccount_src (hy ▸ hind.left), hy,
        onAccount_src (hy ▸ hind.right), onAccount_src (hy ▸ hind.right)]
      exact debit_comm _ _ (hQ _ (hy ▸ hqy)) (hQ _ hqx)
    · rw [onAccount_other hy hind.right, onAccount_other hy hind.right]
  · by_cases hy : k = y.src
    · subst hy
      rw [onAccount_other hx hind.left, onAccount_other hx hind.left]
    · -- neither takes from it: whatever they pay adds up
      by_cases hdx : x.dst = some k
      · by_cases hdy : y.dst = some k
        · rw [onAccount_dst hdx hx, onAccount_dst hdy hy, onAccount_dst hdy hy, onAccount_dst hdx hx]
          simp only [TokenAccount.credit, Nat.add_right_comm]
        · rw [onAccount_other hy hdy, onAccount_other hy hdy]
      · rw [onAccount_other hx hdx, onAccount_other hx hdx]

theorem onMint_comm (x y : Movement) (m : Pubkey) (z : Mint) :
    x.onMint m (y.onMint m z) = y.onMint m (x.onMint m z) := by
  rw [onMint, onMint, onMint, onMint]
  split_ifs
  · simp only [Nat.sub_right_comm]
  all_goals rfl

theorem le_onAccount (hs : k ≠ x.src) : a.amount ≤ (x.onAccount received k a).amount := by
  by_cases hd : x.dst = some k
  · rw [onAccount_dst hd hs]
    exact Nat.le_add_right _ _
  · rw [onAccount_other hs hd]

theorem onMint_supply_le : (x.onMint m z).supply ≤ z.supply := by
  rw [onMint]
  split
  · exact Nat.sub_le _ _
  · exact le_rfl

section Exchange

variable (hT : T.Steady received) (hQ : Undelegated Q L) (hind : Independent Q x y)
  (hx : x.run T L = .ok M)

include hT hQ hind hx

theorem Fits.before (hy : y.Fits received M) : y.Fits received L := by
  obtain ⟨haccounts, hmints⟩ := run_spec hT hx
  refine ⟨?_, fun k hk hne ↦ ?_, fun hd ↦ ?_⟩
  -- what `y` takes from was not paid by `x`
  · obtain ⟨a', ha', hn, hauth⟩ := hy.src
    rw [haccounts y.src] at ha'
    obtain ⟨a, ha, rfl⟩ := Option.map_eq_some_iff.mp ha'
    refine ⟨a, ha, ?_⟩
    by_cases hsrc : y.src = x.src
    · obtain ⟨hqx, hqy⟩ := hind.shared hsrc.symm
      have hdx := hQ _ _ a (hsrc ▸ hqx) ha
      have hdy := hQ _ _ a hqy ha
      rw [hsrc, onAccount_src (hsrc ▸ hind.left)] at hn hauth
      rw [TokenAccount.debit_amount] at hn
      exact ⟨hn.trans (Nat.sub_le _ _), (debit_authorizes hdx hdy).mp hauth⟩
    · rw [onAccount_other hsrc hind.left] at hn hauth
      exact ⟨hn, hauth⟩
  -- what `y` pays was not taken from by `x`
  · obtain ⟨b', hb', hlt⟩ := hy.dst k hk hne
    rw [haccounts k] at hb'
    obtain ⟨b, hb, rfl⟩ := Option.map_eq_some_iff.mp hb'
    have hsrc : k ≠ x.src := fun h ↦ hind.right (h ▸ hk)
    exact ⟨b, hb, (Nat.add_le_add_right (le_onAccount hsrc) _).trans_lt hlt⟩
  · obtain ⟨z', hz', hn⟩ := hy.supply hd
    rw [hmints y.mint] at hz'
    obtain ⟨z, hz, rfl⟩ := Option.map_eq_some_iff.mp hz'
    exact ⟨z, hz, hn.trans onMint_supply_le⟩

/-- What was in order before an independent movement is in order after it, if that was in order where the
first had been carried out. -/
theorem Fits.after {N : Ledger} (hy : y.Fits received M) (hyL : y.run T L = .ok N) :
    x.Fits received N := by
  obtain ⟨haccounts, hmints⟩ := run_spec hT hx
  obtain ⟨haccounts', hmints'⟩ := run_spec hT hyL
  have hfits := run_fits hT hx
  refine ⟨?_, fun k hk hne ↦ ?_, fun hd ↦ ?_⟩
  -- what both take from covers both, since it did so in the other order
  · obtain ⟨a, ha, hn, hauth⟩ := hfits.src
    refine ⟨_, (haccounts' x.src).trans (congrArg _ ha), ?_⟩
    by_cases hsrc : x.src = y.src
    · obtain ⟨hqx, hqy⟩ := hind.shared hsrc
      have hdx := hQ _ _ a hqx ha
      have hdy := hQ _ _ a (hsrc ▸ hqy) ha
      obtain ⟨a', ha', hn', -⟩ := hy.src
      rw [haccounts y.src, ← hsrc, ha, Option.map_some, Option.some.injEq,
        onAccount_src (hsrc ▸ hind.left)] at ha'
      rw [← ha', TokenAccount.debit_amount] at hn'
      rw [hsrc, onAccount_src (hsrc ▸ hind.right), TokenAccount.debit_amount]
      exact ⟨by omega, (debit_authorizes hdy hdx).mpr hauth⟩
    · rw [onAccount_other hsrc hind.right]
      exact ⟨hn, hauth⟩
  -- what both pay has room for both
  · obtain ⟨b, hb, hlt⟩ := hfits.dst k hk hne
    refine ⟨_, (haccounts' k).trans (congrArg _ hb), ?_⟩
    have hsrc : k ≠ y.src := fun h ↦ hind.left (h ▸ hk)
    by_cases hdy : y.dst = some k
    · obtain ⟨b', hb', hlt'⟩ := hy.dst k hdy hsrc
      rw [haccounts k, hb, Option.map_some, Option.some.injEq, onAccount_dst hk hne] at hb'
      rw [← hb', TokenAccount.credit_amount] at hlt'
      rw [onAccount_dst hdy hsrc, TokenAccount.credit_amount]
      omega
    · rw [onAccount_other hsrc hdy]
      exact hlt
  · obtain ⟨z, hz, hn⟩ := hfits.supply hd
    refine ⟨_, (hmints' x.mint).trans (congrArg _ hz), ?_⟩
    by_cases hb : y.dst = none ∧ x.mint = y.mint
    · obtain ⟨z', hz', hn'⟩ := hy.supply hb.1
      rw [hmints y.mint, ← hb.2, hz, Option.map_some, Option.some.injEq, onMint,
        if_pos ⟨hd, rfl⟩] at hz'
      rw [← hz'] at hn'
      rw [onMint, if_pos hb]
      simp only at hn' ⊢
      omega
    · rw [onMint, if_neg hb]
      exact hn

/-- **Independent movements can be exchanged.** -/
theorem exchange {N : Ledger} (hy : y.run T M = .ok N) :
    ∃ M', y.run T L = .ok M' ∧ x.run T M' = .ok N := by
  have hyM := run_fits hT hy
  obtain ⟨M', hM'⟩ := run_again hT hy (run_sameShape hT hx).symm (hyM.before hT hQ hind hx)
  obtain ⟨N', hN'⟩ := run_again hT hx (run_sameShape hT hM') (hyM.after hT hQ hind hx hM')
  refine ⟨M', hM', hN'.trans (congrArg _ ?_)⟩
  obtain ⟨hxL, hxL'⟩ := run_spec hT hx
  obtain ⟨hyM₁, hyM₂⟩ := run_spec hT hy
  obtain ⟨hyL, hyL'⟩ := run_spec hT hM'
  obtain ⟨hxM₁, hxM₂⟩ := run_spec hT hN'
  have haccounts : N'.accounts = N.accounts := by
    refine Finmap.ext_lookup fun k ↦ ?_
    rw [hxM₁, hyL, hyM₁, hxL, Option.map_map, Option.map_map]
    cases ha : L.accounts.lookup k with
    | none => rfl
    | some a => exact congrArg some (onAccount_comm hind fun auth hk ↦ hQ k auth a hk ha)
  have hmints : N'.mints = N.mints := by
    refine Finmap.ext_lookup fun m ↦ ?_
    rw [hxM₂, hyL', hyM₂, hxL', Option.map_map, Option.map_map]
    exact congrFun (congrArg _ (funext fun z ↦ onMint_comm x y m z)) _
  cases N
  cases N'
  simp only at haccounts hmints
  rw [haccounts, hmints]

end Exchange

end Movement

end OptionsProtocol
