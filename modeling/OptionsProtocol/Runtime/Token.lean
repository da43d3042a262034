import Mathlib.Data.BitVec
import OptionsProtocol.Library.Store

/-!
# The token ledger and the token program

Token accounts and mints as the programs see them: the fields of `InterfaceAccount<TokenAccount>`
and `InterfaceAccount<Mint>` that some handler or constraint reads. The token program itself is
not part of the repository, so it is a *parameter*: a `TokenProgram` is any implementation of
`transfer_checked`, `mint_to` and `burn_checked` whose successful calls do what those instructions
are documented to do. A transfer debits exactly the requested amount and credits at most that much,
so mints whose transfers withhold a fee are included; `TokenProgram.Plain` says that nothing is
withheld.

Everybody else's use of the token program is one relation, `Ledger.Rely`. It says only what cannot
happen without a signature of a protected address, and leaves the rest of the ledger free.

Mints with a permanent delegate are outside of both: that delegate may move what is in any account of the mint,
whoever owns it.
-/

namespace OptionsProtocol

/-- A 32-byte address. -/
abbrev Pubkey := BitVec 256

/-- `Pubkey::default()`, the all-zero key. -/
def Pubkey.default : Pubkey := 0

/-- A token account. -/
structure TokenAccount where
  /-- The mint whose tokens it holds. -/
  mint : Pubkey
  /-- The address that may spend them. -/
  owner : Pubkey
  /-- How many it holds. -/
  amount : ℕ
  /-- A second address that may spend up to `delegatedAmount` of them. -/
  delegate : Option Pubkey
  delegatedAmount : ℕ
  deriving DecidableEq

/-- A mint. -/
structure Mint where
  mintAuthority : Option Pubkey
  supply : ℕ
  decimals : ℕ
  deriving DecidableEq

/-- All token accounts and mints. -/
structure Ledger where
  accounts : Store Pubkey TokenAccount
  mints : Store Pubkey Mint

namespace TokenAccount

/-- `auth` may spend `n` tokens of the account. A delegate is held to its allowance, also where it is the
owner itself. -/
def Authorizes (a : TokenAccount) (auth : Pubkey) (n : ℕ) : Prop :=
  if a.delegate = some auth then n ≤ a.delegatedAmount else a.owner = auth

instance (a : TokenAccount) (auth : Pubkey) (n : ℕ) : Decidable (a.Authorizes auth n) := by
  unfold Authorizes
  infer_instance

/-- Spend `n` tokens under `auth`; a delegate also uses up its allowance. -/
def debit (a : TokenAccount) (auth : Pubkey) (n : ℕ) : TokenAccount :=
  if a.delegate = some auth then
    { a with
      amount := a.amount - n
      delegate := if a.delegatedAmount = n then none else a.delegate
      delegatedAmount := a.delegatedAmount - n }
  else { a with amount := a.amount - n }

def credit (a : TokenAccount) (n : ℕ) : TokenAccount := { a with amount := a.amount + n }

@[simp] theorem debit_mint (a : TokenAccount) (auth : Pubkey) (n : ℕ) :
    (a.debit auth n).mint = a.mint := by
  rw [debit]; split <;> rfl

@[simp] theorem debit_owner (a : TokenAccount) (auth : Pubkey) (n : ℕ) :
    (a.debit auth n).owner = a.owner := by
  rw [debit]; split <;> rfl

@[simp] theorem debit_amount (a : TokenAccount) (auth : Pubkey) (n : ℕ) :
    (a.debit auth n).amount = a.amount - n := by
  rw [debit]; split <;> rfl

theorem debit_delegate {a : TokenAccount} (auth : Pubkey) (n : ℕ) (h : a.delegate = none) :
    (a.debit auth n).delegate = none := by
  rw [debit, if_neg (by simp [h])]
  exact h

@[simp] theorem credit_mint (a : TokenAccount) (n : ℕ) : (a.credit n).mint = a.mint := rfl

@[simp] theorem credit_owner (a : TokenAccount) (n : ℕ) : (a.credit n).owner = a.owner := rfl

@[simp] theorem credit_amount (a : TokenAccount) (n : ℕ) :
    (a.credit n).amount = a.amount + n := rfl

@[simp] theorem credit_delegate (a : TokenAccount) (n : ℕ) :
    (a.credit n).delegate = a.delegate := rfl

theorem authorizes_of_ne {a : TokenAccount} {auth : Pubkey} {n : ℕ} (hd : a.delegate ≠ some auth) :
    a.Authorizes auth n ↔ a.owner = auth := by
  rw [Authorizes, if_neg hd]

/-- An account without a delegate is spent by its owner only. -/
theorem Authorizes.owner_eq {a : TokenAccount} {auth : Pubkey} {n : ℕ} (h : a.Authorizes auth n)
    (hd : a.delegate = none) : a.owner = auth :=
  (authorizes_of_ne (by simp [hd])).mp h

theorem authorizes_owner {a : TokenAccount} {n : ℕ} (hd : a.delegate = none) :
    a.Authorizes a.owner n :=
  (authorizes_of_ne (by simp [hd])).mpr rfl

theorem authorizes_zero {a : TokenAccount} {auth : Pubkey} (ho : a.owner = auth) :
    a.Authorizes auth 0 := by
  rw [Authorizes]
  split
  · exact Nat.zero_le _
  · exact ho

/-- What the account contributes to the holdings selected by `p`, a test on owner and mint. -/
def part (p : Pubkey → Pubkey → Bool) (a : TokenAccount) : ℕ :=
  if p a.owner a.mint then a.amount else 0

theorem part_debit (p : Pubkey → Pubkey → Bool) {a : TokenAccount} (auth : Pubkey) {n : ℕ}
    (h : n ≤ a.amount) :
    (a.debit auth n).part p + (if p a.owner a.mint then n else 0) = a.part p := by
  rw [part, part, debit_owner, debit_mint, debit_amount]
  split <;> omega

theorem part_credit (p : Pubkey → Pubkey → Bool) (a : TokenAccount) (n : ℕ) :
    (a.credit n).part p = a.part p + (if p a.owner a.mint then n else 0) := by
  rw [part, part, credit_owner, credit_mint, credit_amount]
  split <;> omega

end TokenAccount

namespace Ledger

/-! ## Holdings -/

/-- The sum over the token accounts whose owner and mint satisfy `p`. -/
def held (p : Pubkey → Pubkey → Bool) (L : Ledger) : ℕ :=
  Store.total (fun _ a ↦ a.part p) L.accounts

/-- What `owner` holds of `mint`, over all its token accounts. -/
def balance (L : Ledger) (owner mint : Pubkey) : ℕ :=
  L.held fun o m ↦ decide (o = owner ∧ m = mint)

/-- What all token accounts together hold of a mint. -/
def circulating (L : Ledger) (mint : Pubkey) : ℕ := L.held fun _ m ↦ decide (m = mint)

/-- The recorded supply of a mint; `0` before it is created. -/
def supply (L : Ledger) (mint : Pubkey) : ℕ := (L.mints.lookup mint).elim 0 Mint.supply

/-- The amount in one account; `0` if there is none. -/
def amount (L : Ledger) (k : Pubkey) : ℕ := (L.accounts.lookup k).elim 0 TokenAccount.amount

theorem amount_eq {L : Ledger} {k : Pubkey} {a : TokenAccount} (h : L.accounts.lookup k = some a) :
    L.amount k = a.amount := by
  rw [amount, h, Option.elim_some]

theorem supply_eq {L : Ledger} {m : Pubkey} {x : Mint} (h : L.mints.lookup m = some x) :
    L.supply m = x.supply := by
  rw [supply, h, Option.elim_some]

theorem supply_eq_zero {L : Ledger} {m : Pubkey} (h : L.mints.lookup m = none) :
    L.supply m = 0 := by
  rw [supply, h, Option.elim_none]

theorem amount_le_held {p : Pubkey → Pubkey → Bool} {L : Ledger} {k : Pubkey} {a : TokenAccount}
    (h : L.accounts.lookup k = some a) (hp : p a.owner a.mint) : a.amount ≤ L.held p := by
  have hle : a.part p ≤ L.held p := Store.le_total (fun _ b ↦ TokenAccount.part p b) h
  rwa [TokenAccount.part, if_pos hp] at hle

theorem amount_le_circulating {L : Ledger} {k : Pubkey} {a : TokenAccount}
    (h : L.accounts.lookup k = some a) : a.amount ≤ L.circulating a.mint :=
  amount_le_held h (by simp)

theorem amount_add_le_circulating {L : Ledger} {k l m : Pubkey} {a b : TokenAccount}
    (ha : L.accounts.lookup k = some a) (hb : L.accounts.lookup l = some b) (hne : k ≠ l)
    (hma : a.mint = m) (hmb : b.mint = m) : a.amount + b.amount ≤ L.circulating m := by
  have hle := Store.add_le_total (fun _ c ↦ TokenAccount.part (fun _ x ↦ decide (x = m)) c) ha hb hne
  simpa [TokenAccount.part, hma, hmb, circulating, held] using hle

/-- No more tokens circulate than the supply says, and the supply is a 64-bit number. Of the native mint, whose
recorded supply stays `0`, the supply is what is wrapped. -/
def Conserved (L : Ledger) : Prop :=
  ∀ m, L.circulating m ≤ L.supply m ∧ L.supply m < 2 ^ 64

/-- The mint of an account that holds tokens exists, and its supply covers them. -/
theorem Conserved.mint {L : Ledger} (h : L.Conserved) {k : Pubkey} {a : TokenAccount}
    (ha : L.accounts.lookup k = some a) (hpos : 0 < a.amount) :
    ∃ x, L.mints.lookup a.mint = some x ∧ a.amount ≤ x.supply := by
  have hle := (amount_le_circulating ha).trans (h a.mint).1
  cases hx : L.mints.lookup a.mint with
  | none =>
    rw [supply_eq_zero hx] at hle
    omega
  | some x =>
    rw [supply_eq hx] at hle
    exact ⟨x, rfl, hle⟩

theorem Conserved.amount_lt {L : Ledger} (h : L.Conserved) {k : Pubkey} {a : TokenAccount}
    (ha : L.accounts.lookup k = some a) : a.amount < 2 ^ 64 :=
  ((amount_le_circulating ha).trans (h a.mint).1).trans_lt (h a.mint).2

theorem conserved_of_mints {L : Ledger}
    (haccounts : ∀ k a, L.accounts.lookup k = some a → L.mints.lookup a.mint ≠ none)
    (hmints : ∀ m x, L.mints.lookup m = some x → L.circulating m ≤ x.supply ∧ x.supply < 2 ^ 64) :
    L.Conserved := by
  intro m
  cases hm : L.mints.lookup m with
  | some x =>
    rw [supply_eq hm]
    exact hmints m x hm
  | none =>
    have hzero : L.circulating m = 0 := by
      rw [circulating, held]
      refine Store.total_eq_zero fun k a ha ↦ if_neg ?_
      rw [decide_eq_true_eq]
      rintro rfl
      exact haccounts k a ha hm
    rw [hzero, supply_eq_zero hm]
    exact ⟨le_rfl, Nat.two_pow_pos 64⟩

/-- Accounts of protected owners have no delegate. -/
def Undelegated (P : Pubkey → Prop) (L : Ledger) : Prop :=
  ∀ k a, L.accounts.lookup k = some a → P a.owner → a.delegate = none

/-! ## The documented effect of the three instructions -/

/-- `auth` moved `n` tokens of `mint` out of `src`, and `dst` received `r` of them. A transfer of an
account to itself changes nothing. -/
def Transferred (L L' : Ledger) (src mint dst auth : Pubkey) (n r : ℕ) : Prop :=
  ∃ a b, L.accounts.lookup src = some a ∧ L.accounts.lookup dst = some b ∧
    a.mint = mint ∧ b.mint = mint ∧ n ≤ a.amount ∧ a.Authorizes auth n ∧ r ≤ n ∧
    L' = if src = dst then L else
      { L with accounts := (L.accounts.insert src (a.debit auth n)).insert dst (b.credit r) }

/-- `auth` minted `n` new tokens of `mint` into `dst`. -/
def Minted (L L' : Ledger) (mint dst auth : Pubkey) (n : ℕ) : Prop :=
  ∃ x b, L.mints.lookup mint = some x ∧ x.mintAuthority = some auth ∧
    L.accounts.lookup dst = some b ∧ b.mint = mint ∧ x.supply + n < 2 ^ 64 ∧
    L' = { accounts := L.accounts.insert dst (b.credit n)
           mints := L.mints.insert mint { x with supply := x.supply + n } }

/-- `auth` destroyed `n` tokens of `mint` held in `src`. -/
def Burned (L L' : Ledger) (mint src auth : Pubkey) (n : ℕ) : Prop :=
  ∃ x a, L.mints.lookup mint = some x ∧ L.accounts.lookup src = some a ∧ a.mint = mint ∧
    n ≤ a.amount ∧ n ≤ x.supply ∧ a.Authorizes auth n ∧
    L' = { accounts := L.accounts.insert src (a.debit auth n)
           mints := L.mints.insert mint { x with supply := x.supply - n } }

end Ledger

/-! ## The token program -/

/-- An implementation of the token instructions that does what they are documented to do, for mints without a
permanent delegate. -/
structure TokenProgram where
  /-- `transfer_checked(from, mint, to, authority, amount, decimals)`. -/
  transferChecked : Ledger → Pubkey → Pubkey → Pubkey → Pubkey → ℕ → ℕ → Option Ledger
  /-- `mint_to(mint, to, authority, amount)`. -/
  mintTo : Ledger → Pubkey → Pubkey → Pubkey → ℕ → Option Ledger
  /-- `burn_checked(mint, from, authority, amount, decimals)`. -/
  burnChecked : Ledger → Pubkey → Pubkey → Pubkey → ℕ → ℕ → Option Ledger
  transferChecked_spec : ∀ {L L' src mint dst auth n d},
    transferChecked L src mint dst auth n d = some L' →
      ∃ r, L.Transferred L' src mint dst auth n r
  mintTo_spec : ∀ {L L' mint dst auth n}, mintTo L mint dst auth n = some L' →
    L.Minted L' mint dst auth n
  burnChecked_spec : ∀ {L L' mint src auth n d}, burnChecked L mint src auth n d = some L' →
    L.Burned L' mint src auth n

/-- Plain token semantics: a transfer credits what it debits. -/
def TokenProgram.Plain (T : TokenProgram) : Prop :=
  ∀ {L L' src mint dst auth n d}, T.transferChecked L src mint dst auth n d = some L' →
    L.Transferred L' src mint dst auth n n

/-- Plain token semantics for the mints `Q`. -/
def TokenProgram.PlainOn (T : TokenProgram) (Q : Pubkey → Prop) : Prop :=
  ∀ {L L' src mint dst auth n d}, Q mint → T.transferChecked L src mint dst auth n d = some L' →
    L.Transferred L' src mint dst auth n n

theorem TokenProgram.Plain.on {T : TokenProgram} (h : T.Plain) (Q : Pubkey → Prop) : T.PlainOn Q :=
  fun _ ht ↦ h ht

/-- A transfer that is authorised, covered, and does not overflow its destination goes through; one
from an account to itself cannot overflow. -/
def TokenProgram.Live (T : TokenProgram) : Prop :=
  ∀ {L src mint dst auth n d a b x}, L.accounts.lookup src = some a →
    L.accounts.lookup dst = some b → L.mints.lookup mint = some x → a.mint = mint →
    b.mint = mint → x.decimals = d → n ≤ a.amount → a.Authorizes auth n →
    (src ≠ dst → b.amount + n < 2 ^ 64) → (T.transferChecked L src mint dst auth n d).isSome

/-- The authority of a mint can mint what the supply can still take. -/
def TokenProgram.MintLive (T : TokenProgram) : Prop :=
  ∀ {L mint dst auth n b x}, L.mints.lookup mint = some x → L.accounts.lookup dst = some b →
    x.mintAuthority = some auth → b.mint = mint → x.supply + n < 2 ^ 64 →
    (T.mintTo L mint dst auth n).isSome

/-- A burn that is authorised and covered goes through. -/
def TokenProgram.BurnLive (T : TokenProgram) : Prop :=
  ∀ {L mint src auth n d a x}, L.accounts.lookup src = some a → L.mints.lookup mint = some x →
    a.mint = mint → x.decimals = d → n ≤ a.amount → n ≤ x.supply → a.Authorizes auth n →
    (T.burnChecked L mint src auth n d).isSome

namespace Ledger

variable {L L' L'' : Ledger}

/-! ## What persists

Every call leaves the same accounts in place, with the same mint and owner, and gives nobody a
delegate. -/

/-- The accounts of `L'` are those of `L` with other amounts. -/
structure Kept (L L' : Ledger) : Prop where
  some : ∀ {k a}, L.accounts.lookup k = Option.some a → ∃ a', L'.accounts.lookup k = Option.some a' ∧
    a'.mint = a.mint ∧ a'.owner = a.owner ∧ (a.delegate = Option.none → a'.delegate = Option.none)
  none : ∀ {k}, L.accounts.lookup k = Option.none → L'.accounts.lookup k = Option.none

theorem Kept.refl (L : Ledger) : L.Kept L := ⟨fun h ↦ ⟨_, h, rfl, rfl, id⟩, id⟩

theorem Kept.trans (h : L.Kept L') (h' : L'.Kept L'') : L.Kept L'' := by
  refine ⟨fun ha ↦ ?_, fun hn ↦ h'.none (h.none hn)⟩
  obtain ⟨a', ha', hm, ho, hd⟩ := h.some ha
  obtain ⟨a'', ha'', hm', ho', hd'⟩ := h'.some ha'
  exact ⟨a'', ha'', hm'.trans hm, ho'.trans ho, hd' ∘ hd⟩

/-- An account found afterwards was there before. -/
theorem Kept.back (h : L.Kept L') {k : Pubkey} {a' : TokenAccount}
    (ha' : L'.accounts.lookup k = Option.some a') : ∃ a, L.accounts.lookup k = Option.some a ∧
      a'.mint = a.mint ∧ a'.owner = a.owner ∧
      (a.delegate = Option.none → a'.delegate = Option.none) := by
  cases ha : L.accounts.lookup k with
  | none => rw [h.none ha] at ha'; exact absurd ha' (by simp)
  | some a =>
    obtain ⟨c, hc, hrest⟩ := h.some ha
    rw [hc, Option.some.injEq] at ha'
    subst ha'
    exact ⟨a, rfl, hrest⟩

theorem Kept.undelegated {P : Pubkey → Prop} (h : L.Kept L') (hu : L.Undelegated P) :
    L'.Undelegated P := by
  intro k a' ha' hP
  obtain ⟨a, ha, -, ho, hd⟩ := h.back ha'
  exact hd (hu k a ha (ho ▸ hP))

theorem kept_insert {k : Pubkey} {a b : TokenAccount} {M : Store Pubkey Mint}
    (ha : L.accounts.lookup k = Option.some a) (hm : b.mint = a.mint) (ho : b.owner = a.owner)
    (hd : a.delegate = Option.none → b.delegate = Option.none) :
    L.Kept { accounts := L.accounts.insert k b, mints := M } := by
  constructor
  · intro l c hc
    by_cases hl : l = k
    · subst hl
      rw [ha, Option.some.injEq] at hc
      subst hc
      exact ⟨b, Finmap.lookup_insert _, hm, ho, hd⟩
    · exact ⟨c, by rw [Finmap.lookup_insert_of_ne _ hl, hc], rfl, rfl, id⟩
  · intro l hl
    have hne : l ≠ k := by
      rintro rfl
      rw [ha] at hl
      exact absurd hl (by simp)
    rw [Finmap.lookup_insert_of_ne _ hne, hl]

/-! ## Transfers -/

section Transferred

variable {src mint dst auth : Pubkey} {n r : ℕ}

/-- Reads both accounts of a transfer, and the two ways it can end. -/
theorem Transferred.cases (h : L.Transferred L' src mint dst auth n r) :
    ∃ a b, L.accounts.lookup src = some a ∧ L.accounts.lookup dst = some b ∧ a.mint = mint ∧
      b.mint = mint ∧ n ≤ a.amount ∧ a.Authorizes auth n ∧ r ≤ n ∧
      (src = dst ∧ a = b ∧ L' = L ∨ src ≠ dst ∧ L' = { L with
        accounts := (L.accounts.insert src (a.debit auth n)).insert dst (b.credit r) }) := by
  obtain ⟨a, b, ha, hb, hma, hmb, hn, hauth, hr, hL'⟩ := h
  refine ⟨a, b, ha, hb, hma, hmb, hn, hauth, hr, ?_⟩
  by_cases hsd : src = dst
  · rw [if_pos hsd] at hL'
    rw [hsd, hb, Option.some.injEq] at ha
    exact Or.inl ⟨hsd, ha.symm, hL'⟩
  · rw [if_neg hsd] at hL'
    exact Or.inr ⟨hsd, hL'⟩

theorem Transferred.mints_eq (h : L.Transferred L' src mint dst auth n r) :
    L'.mints = L.mints := by
  obtain ⟨a, b, -, -, -, -, -, -, -, ⟨-, -, rfl⟩ | ⟨-, rfl⟩⟩ := h.cases <;> rfl

theorem Transferred.kept (h : L.Transferred L' src mint dst auth n r) : L.Kept L' := by
  obtain ⟨a, b, ha, hb, -, -, -, -, -, ⟨-, -, rfl⟩ | ⟨hsd, rfl⟩⟩ := h.cases
  · exact Kept.refl _
  · have hb' : (L.accounts.insert src (a.debit auth n)).lookup dst = Option.some b := by
      rw [Finmap.lookup_insert_of_ne _ (Ne.symm hsd), hb]
    have h₁ : L.Kept { L with accounts := L.accounts.insert src (a.debit auth n) } :=
      kept_insert ha (by simp) (by simp) (TokenAccount.debit_delegate auth n)
    exact h₁.trans (kept_insert hb' (by simp) (by simp) id)

/-- Between two different accounts, holdings lose what was debited and gain what was credited. -/
theorem Transferred.held_of_ne (h : L.Transferred L' src mint dst auth n r) (hsd : src ≠ dst)
    {a b : TokenAccount} (ha : L.accounts.lookup src = some a)
    (hb : L.accounts.lookup dst = some b) (p : Pubkey → Pubkey → Bool) :
    L'.held p + (if p a.owner mint then n else 0) =
      L.held p + (if p b.owner mint then r else 0) := by
  obtain ⟨a', b', ha', hb', hma, hmb, hn, -, -, ⟨heq, -, -⟩ | ⟨-, rfl⟩⟩ := h.cases
  · exact absurd heq hsd
  · obtain rfl : a = a' := by rw [ha, Option.some.injEq] at ha'; exact ha'
    obtain rfl : b = b' := by rw [hb, Option.some.injEq] at hb'; exact hb'
    have hb'' : (L.accounts.insert src (a.debit auth n)).lookup dst = some b := by
      rw [Finmap.lookup_insert_of_ne _ (Ne.symm hsd), hb]
    have h₁ := Store.total_insert_of_lookup (fun _ c ↦ TokenAccount.part p c)
      (a.debit auth n) ha
    have h₂ := Store.total_insert_of_lookup (fun _ c ↦ TokenAccount.part p c)
      (b.credit r) hb''
    have h₃ := TokenAccount.part_debit p auth hn
    have h₄ := TokenAccount.part_credit p b r
    rw [hma] at h₃
    rw [hmb] at h₄
    simp only [held] at h₁ h₂ ⊢
    omega

theorem Transferred.held_le (h : L.Transferred L' src mint dst auth n r) {a b : TokenAccount}
    (ha : L.accounts.lookup src = some a) (hb : L.accounts.lookup dst = some b)
    (p : Pubkey → Pubkey → Bool) :
    L'.held p + (if p a.owner mint then n else 0) ≤
      L.held p + (if p b.owner mint then n else 0) := by
  by_cases hsd : src = dst
  · obtain ⟨-, -, -, -, -, -, -, -, -, ⟨-, -, rfl⟩ | ⟨hne, -⟩⟩ := h.cases
    · rw [hsd, hb, Option.some.injEq] at ha
      rw [ha]
    · exact absurd hsd hne
  · have hr : r ≤ n := by obtain ⟨-, -, -, -, -, -, -, -, hr, -⟩ := h; exact hr
    have heq := h.held_of_ne hsd ha hb p
    have hle : (if p b.owner mint then r else 0) ≤ (if p b.owner mint then n else 0) := by
      split
      · exact hr
      · exact le_rfl
    omega

/-- **A plain transfer** moves holdings from one owner to the other, self-transfers included. -/
theorem Transferred.held_eq (h : L.Transferred L' src mint dst auth n n) {a b : TokenAccount}
    (ha : L.accounts.lookup src = some a) (hb : L.accounts.lookup dst = some b)
    (p : Pubkey → Pubkey → Bool) :
    L'.held p + (if p a.owner mint then n else 0) =
      L.held p + (if p b.owner mint then n else 0) := by
  by_cases hsd : src = dst
  · obtain ⟨-, -, -, -, -, -, -, -, -, ⟨-, -, rfl⟩ | ⟨hne, -⟩⟩ := h.cases
    · rw [hsd, hb, Option.some.injEq] at ha
      rw [ha]
    · exact absurd hsd hne
  · exact h.held_of_ne hsd ha hb p

theorem Transferred.amount_of_ne (h : L.Transferred L' src mint dst auth n r) (hsd : src ≠ dst)
    (k : Pubkey) :
    L'.amount k + (if k = src then n else 0) = L.amount k + (if k = dst then r else 0) := by
  obtain ⟨a, b, ha, hb, -, -, hn, -, -, ⟨heq, -, -⟩ | ⟨-, rfl⟩⟩ := h.cases
  · exact absurd heq hsd
  · by_cases hkd : k = dst
    · subst hkd
      simp [Ledger.amount, hb, Ne.symm hsd]
    · by_cases hks : k = src
      · subst hks
        simp only [Ledger.amount, Finmap.lookup_insert_of_ne _ hkd, Finmap.lookup_insert, ha,
          Option.elim_some, TokenAccount.debit_amount, if_pos, if_neg hkd]
        omega
      · simp [Ledger.amount, Finmap.lookup_insert_of_ne, hkd, hks]

theorem Transferred.amount_le (h : L.Transferred L' src mint dst auth n r) (k : Pubkey) :
    L.amount k ≤ L'.amount k + (if k = src then n else 0) := by
  by_cases hsd : src = dst
  · obtain ⟨-, -, -, -, -, -, -, -, -, ⟨-, -, rfl⟩ | ⟨hne, -⟩⟩ := h.cases
    · exact Nat.le_add_right _ _
    · exact absurd hsd hne
  · have key := h.amount_of_ne hsd k
    omega

theorem Transferred.le_amount (h : L.Transferred L' src mint dst auth n r) {k : Pubkey}
    (hk : k ≠ src) : L.amount k ≤ L'.amount k := by
  have hle := h.amount_le k
  rwa [if_neg hk] at hle

theorem Transferred.amount_src_le (h : L.Transferred L' src mint dst auth n r) :
    L.amount src ≤ L'.amount src + n := by
  have hle := h.amount_le src
  rwa [if_pos rfl] at hle

theorem Transferred.amount_dst (h : L.Transferred L' src mint dst auth n r) (hsd : src ≠ dst) :
    L'.amount dst = L.amount dst + r := by
  have key := h.amount_of_ne hsd dst
  rwa [if_neg (Ne.symm hsd), if_pos rfl] at key

theorem Transferred.amount_eq (h : L.Transferred L' src mint dst auth n n) (k : Pubkey) :
    L'.amount k + (if k = src then n else 0) = L.amount k + (if k = dst then n else 0) := by
  by_cases hsd : src = dst
  · obtain ⟨-, -, -, -, -, -, -, -, -, ⟨-, -, rfl⟩ | ⟨hne, -⟩⟩ := h.cases
    · rw [hsd]
    · exact absurd hsd hne
  · exact h.amount_of_ne hsd k

theorem Transferred.conserved (h : L.Transferred L' src mint dst auth n r) (hL : L.Conserved) :
    L'.Conserved := by
  intro m
  obtain ⟨a, b, ha, hb, -⟩ := h.cases
  have hle : L'.circulating m ≤ L.circulating m :=
    Nat.le_of_add_le_add_right (h.held_le ha hb fun _ x ↦ decide (x = m))
  have hs : L'.supply m = L.supply m := by rw [supply, h.mints_eq, supply]
  rw [hs]
  exact ⟨hle.trans (hL m).1, (hL m).2⟩

end Transferred

/-! ## Minting and burning -/

section Minted

variable {mint dst auth : Pubkey} {n : ℕ}

theorem Minted.kept (h : L.Minted L' mint dst auth n) : L.Kept L' := by
  obtain ⟨x, b, -, -, hb, -, -, rfl⟩ := h
  exact kept_insert hb (by simp) (by simp) id

theorem Minted.held (h : L.Minted L' mint dst auth n) {b : TokenAccount}
    (hb : L.accounts.lookup dst = some b) (p : Pubkey → Pubkey → Bool) :
    L'.held p = L.held p + (if p b.owner mint then n else 0) := by
  obtain ⟨x, b', -, -, hb', hm, -, rfl⟩ := h
  obtain rfl : b = b' := by rw [hb, Option.some.injEq] at hb'; exact hb'
  have h₁ := Store.total_insert_of_lookup (fun _ c ↦ TokenAccount.part p c) (b.credit n) hb
  have h₂ := TokenAccount.part_credit p b n
  rw [hm] at h₂
  simp only [Ledger.held] at h₁ ⊢
  omega

theorem Minted.amount (h : L.Minted L' mint dst auth n) (k : Pubkey) :
    L'.amount k = L.amount k + (if k = dst then n else 0) := by
  obtain ⟨x, b, -, -, hb, -, -, rfl⟩ := h
  by_cases hk : k = dst
  · subst hk
    simp [Ledger.amount, hb]
  · simp [Ledger.amount, Finmap.lookup_insert_of_ne, hk]

theorem Minted.supply (h : L.Minted L' mint dst auth n) (m : Pubkey) :
    L'.supply m = L.supply m + (if m = mint then n else 0) := by
  obtain ⟨x, b, hx, -, -, -, -, rfl⟩ := h
  by_cases hm : m = mint
  · subst hm
    simp [Ledger.supply, hx]
  · simp [Ledger.supply, Finmap.lookup_insert_of_ne, hm]

theorem Minted.mint_kept (h : L.Minted L' mint dst auth n) {m : Pubkey} {x : Mint}
    (hx : L.mints.lookup m = some x) :
    ∃ supply, L'.mints.lookup m = some { x with supply } := by
  obtain ⟨y, b, hy, -, -, -, -, rfl⟩ := h
  by_cases hm : m = mint
  · subst hm
    obtain rfl := Option.some.inj (hy.symm.trans hx)
    exact ⟨_, Finmap.lookup_insert _⟩
  · exact ⟨x.supply, (Finmap.lookup_insert_of_ne _ hm).trans hx⟩

theorem Minted.authority (h : L.Minted L' mint dst auth n) {m : Pubkey} {x' : Mint}
    (hx' : L'.mints.lookup m = some x') :
    ∃ x, L.mints.lookup m = some x ∧ x'.mintAuthority = x.mintAuthority := by
  obtain ⟨x, b, hx, -, -, -, -, rfl⟩ := h
  rcases Store.lookup_insert_eq_some.mp hx' with ⟨rfl, rfl⟩ | ⟨-, hm⟩
  · exact ⟨x, hx, rfl⟩
  · exact ⟨x', hm, rfl⟩

theorem Minted.conserved (h : L.Minted L' mint dst auth n) (hL : L.Conserved) :
    L'.Conserved := by
  intro m
  have hs := h.supply m
  have ⟨x, b, hx, _, hb, _, hlt, _⟩ := h
  have hc : L'.circulating m = L.circulating m + (if m = mint then n else 0) := by
    rw [circulating, h.held hb, circulating]
    simp only [decide_eq_true_eq, @eq_comm _ mint m]
  have := hL m
  have hx' := supply_eq hx
  by_cases hm : m = mint
  · subst hm
    rw [if_pos rfl] at hs hc
    omega
  · rw [if_neg hm] at hs hc
    omega

end Minted

section Burned

variable {mint src auth : Pubkey} {n : ℕ}

theorem Burned.kept (h : L.Burned L' mint src auth n) : L.Kept L' := by
  obtain ⟨x, a, -, ha, -, -, -, -, rfl⟩ := h
  exact kept_insert ha (by simp) (by simp) (TokenAccount.debit_delegate auth n)

theorem Burned.held (h : L.Burned L' mint src auth n) {a : TokenAccount}
    (ha : L.accounts.lookup src = some a) (p : Pubkey → Pubkey → Bool) :
    L'.held p + (if p a.owner mint then n else 0) = L.held p := by
  obtain ⟨x, a', -, ha', hm, hn, -, -, rfl⟩ := h
  obtain rfl : a = a' := by rw [ha, Option.some.injEq] at ha'; exact ha'
  have h₁ := Store.total_insert_of_lookup (fun _ c ↦ TokenAccount.part p c)
    (a.debit auth n) ha
  have h₂ := TokenAccount.part_debit p auth hn
  rw [hm] at h₂
  simp only [Ledger.held] at h₁ ⊢
  omega

theorem Burned.amount (h : L.Burned L' mint src auth n) (k : Pubkey) :
    L'.amount k + (if k = src then n else 0) = L.amount k := by
  obtain ⟨x, a, -, ha, -, hn, -, -, rfl⟩ := h
  by_cases hk : k = src
  · subst hk
    simp only [Ledger.amount, Finmap.lookup_insert, ha, Option.elim_some,
      TokenAccount.debit_amount, if_pos]
    omega
  · simp [Ledger.amount, Finmap.lookup_insert_of_ne, hk]

theorem Burned.supply (h : L.Burned L' mint src auth n) (m : Pubkey) :
    L'.supply m + (if m = mint then n else 0) = L.supply m := by
  obtain ⟨x, a, hx, -, -, -, hn, -, rfl⟩ := h
  by_cases hm : m = mint
  · subst hm
    simp only [Ledger.supply, Finmap.lookup_insert, hx, Option.elim_some, if_pos]
    omega
  · simp [Ledger.supply, Finmap.lookup_insert_of_ne, hm]

theorem Burned.lookup_of_ne (h : L.Burned L' mint src auth n) {k : Pubkey} (hk : k ≠ src) :
    L'.accounts.lookup k = L.accounts.lookup k := by
  obtain ⟨x, a, -, -, -, -, -, -, rfl⟩ := h
  exact Finmap.lookup_insert_of_ne _ hk

theorem Burned.mint_of_ne (h : L.Burned L' mint src auth n) {m : Pubkey} (hm : m ≠ mint) :
    L'.mints.lookup m = L.mints.lookup m := by
  obtain ⟨x, a, -, -, -, -, -, -, rfl⟩ := h
  exact Finmap.lookup_insert_of_ne _ hm

theorem Burned.mint_kept (h : L.Burned L' mint src auth n) {m : Pubkey} {x : Mint}
    (hx : L.mints.lookup m = some x) :
    ∃ supply, L'.mints.lookup m = some { x with supply } := by
  obtain ⟨y, a, hy, -, -, -, -, -, rfl⟩ := h
  by_cases hm : m = mint
  · subst hm
    obtain rfl := Option.some.inj (hy.symm.trans hx)
    exact ⟨_, Finmap.lookup_insert _⟩
  · exact ⟨x.supply, (Finmap.lookup_insert_of_ne _ hm).trans hx⟩

theorem Burned.authority (h : L.Burned L' mint src auth n) {m : Pubkey} {x' : Mint}
    (hx' : L'.mints.lookup m = some x') :
    ∃ x, L.mints.lookup m = some x ∧ x'.mintAuthority = x.mintAuthority := by
  obtain ⟨x, a, hx, -, -, -, -, -, rfl⟩ := h
  rcases Store.lookup_insert_eq_some.mp hx' with ⟨rfl, rfl⟩ | ⟨-, hm⟩
  · exact ⟨x, hx, rfl⟩
  · exact ⟨x', hm, rfl⟩

theorem Burned.conserved (h : L.Burned L' mint src auth n) (hL : L.Conserved) :
    L'.Conserved := by
  intro m
  have hs := h.supply m
  have ⟨x, a, _, ha, _⟩ := h
  have hc : L'.circulating m + (if m = mint then n else 0) = L.circulating m := by
    rw [circulating, circulating, ← h.held ha]
    simp only [decide_eq_true_eq, @eq_comm _ mint m]
  have := hL m
  omega

end Burned

/-! ## Holdings by owner

What the instructions do to holdings, read off from the owners of the accounts involved. Owners
persist, so that these can be known long before the instruction runs. -/

/-- The account `k` is there and belongs to `x`. -/
def Owns (L : Ledger) (x k : Pubkey) : Prop := ∃ a, L.accounts.lookup k = some a ∧ a.owner = x

section Owns

variable {x y src mint dst auth : Pubkey} {n r : ℕ} {p : Pubkey → Pubkey → Bool}

theorem Kept.owns (h : L.Kept L') {k : Pubkey} (ho : L.Owns x k) : L'.Owns x k := by
  obtain ⟨a, ha, rfl⟩ := ho
  obtain ⟨a', ha', -, ho, -⟩ := h.some ha
  exact ⟨a', ha', ho⟩

theorem Owns.ne (hx : L.Owns x src) (hy : L.Owns y dst) (hne : x ≠ y) : src ≠ dst := by
  rintro rfl
  obtain ⟨a, ha, rfl⟩ := hx
  obtain ⟨b, hb, rfl⟩ := hy
  rw [ha, Option.some.injEq] at hb
  exact hne (congrArg TokenAccount.owner hb)

theorem Transferred.held_add (h : L.Transferred L' src mint dst auth n r) (hx : L.Owns x src)
    (hy : L.Owns y dst) (hp : p x mint = false) :
    L'.held p = L.held p + (if p y mint then r else 0) := by
  obtain ⟨a, ha, rfl⟩ := hx
  obtain ⟨b, hb, rfl⟩ := hy
  by_cases hsd : src = dst
  · subst hsd
    rw [ha, Option.some.injEq] at hb
    subst hb
    obtain ⟨-, -, -, -, -, -, -, -, -, ⟨-, -, rfl⟩ | ⟨hne, -⟩⟩ := h.cases
    · simp [hp]
    · exact absurd rfl hne
  · have key := h.held_of_ne hsd ha hb p
    rwa [hp, if_neg Bool.false_ne_true, Nat.add_zero] at key

theorem Transferred.held_sub (h : L.Transferred L' src mint dst auth n r) (hx : L.Owns x src)
    (hy : L.Owns y dst) (hp : p y mint = false) :
    L'.held p + (if p x mint then n else 0) = L.held p := by
  obtain ⟨a, ha, rfl⟩ := hx
  obtain ⟨b, hb, rfl⟩ := hy
  by_cases hsd : src = dst
  · subst hsd
    rw [ha, Option.some.injEq] at hb
    subst hb
    obtain ⟨-, -, -, -, -, -, -, -, -, ⟨-, -, rfl⟩ | ⟨hne, -⟩⟩ := h.cases
    · simp [hp]
    · exact absurd rfl hne
  · have key := h.held_of_ne hsd ha hb p
    rwa [hp, if_neg Bool.false_ne_true, Nat.add_zero] at key

theorem Transferred.held_of_mint (h : L.Transferred L' src mint dst auth n r)
    (hp : ∀ x, p x mint = false) : L'.held p = L.held p := by
  obtain ⟨a, b, ha, hb, -⟩ := h.cases
  rw [h.held_add ⟨a, ha, rfl⟩ ⟨b, hb, rfl⟩ (hp _), hp, if_neg Bool.false_ne_true, Nat.add_zero]

theorem Minted.held_add (h : L.Minted L' mint dst auth n) (hy : L.Owns y dst) :
    L'.held p = L.held p + (if p y mint then n else 0) := by
  obtain ⟨b, hb, rfl⟩ := hy
  exact h.held hb p

theorem Burned.held_sub (h : L.Burned L' mint src auth n) (hx : L.Owns x src) :
    L'.held p + (if p x mint then n else 0) = L.held p := by
  obtain ⟨a, ha, rfl⟩ := hx
  exact h.held ha p

end Owns

theorem balance_le_circulating (L : Ledger) (owner mint : Pubkey) :
    L.balance owner mint ≤ L.circulating mint := by
  rw [balance, circulating, held, held]
  refine Store.total_le_total fun k a _ ↦ ?_
  rw [TokenAccount.part, TokenAccount.part]
  by_cases h : a.owner = owner ∧ a.mint = mint
  · simp [h]
  · simp [h]

/-! ## Everybody else

What the holders of other accounts can do to the ledger, whatever token instructions they use: an
account of a protected owner that holds tokens and has no delegate keeps its mint and its owner and
can only gain, and no account of a protected owner acquires a delegate. (An empty one may be closed
by a close authority set before the address came to own it.) A mint selected by `Q` comes into being
only through its own program, and while its mint authority is protected nobody else increases the
supply. -/

/-- A step of the token program that no protected address signed, and no permanent delegate of a mint. -/
structure Rely (P Q : Pubkey → Prop) (L L' : Ledger) : Prop where
  account : ∀ {k a}, L.accounts.lookup k = some a → P a.owner → a.delegate = none →
    0 < a.amount → ∃ a', L'.accounts.lookup k = some a' ∧ a'.mint = a.mint ∧ a'.owner = a.owner ∧
      a.amount ≤ a'.amount
  delegate : ∀ {k a'}, L'.accounts.lookup k = some a' → P a'.owner →
    a'.delegate = none ∨
      ∃ a, L.accounts.lookup k = some a ∧ a.owner = a'.owner ∧ a.mint = a'.mint ∧
        a.delegate = a'.delegate
  mint_absent : ∀ {m}, Q m → L.mints.lookup m = none → L'.mints.lookup m = none
  mint_kept : ∀ {m x auth}, L.mints.lookup m = some x → Q m → x.mintAuthority = some auth →
    P auth → ∃ x', L'.mints.lookup m = some x' ∧ x'.mintAuthority = x.mintAuthority ∧
      x'.supply ≤ x.supply
  conserved : L.Conserved → L'.Conserved

section Rely

variable {P P' Q : Pubkey → Prop}

theorem Rely.mono (hP : ∀ k, P k → P' k) (h : L.Rely P' Q L') : L.Rely P Q L' where
  account ha ho := h.account ha (hP _ ho)
  delegate ha ho := h.delegate ha (hP _ ho)
  mint_absent := h.mint_absent
  mint_kept hx hm hauth hp := h.mint_kept hx hm hauth (hP _ hp)
  conserved := h.conserved

theorem Rely.refl (P Q : Pubkey → Prop) (L : Ledger) : L.Rely P Q L where
  account ha _ _ _ := ⟨_, ha, rfl, rfl, le_rfl⟩
  delegate ha _ := Or.inr ⟨_, ha, rfl, rfl, rfl⟩
  mint_absent _ := id
  mint_kept hx _ _ _ := ⟨_, hx, rfl, le_rfl⟩
  conserved := id

theorem Rely.undelegated (h : L.Rely P Q L') (hu : L.Undelegated P) : L'.Undelegated P := by
  intro k a' ha' hP
  rcases h.delegate ha' hP with hd | ⟨a, ha, ho, -, hd⟩
  · exact hd
  · rw [← hd]
    exact hu k a ha (ho ▸ hP)

theorem Rely.open {k : Pubkey} (mint owner : Pubkey) (hk : L.accounts.lookup k = none) :
    L.Rely P Q { L with accounts := L.accounts.insert k ⟨mint, owner, 0, none, 0⟩ } where
  account {l a} ha _ _ _ := by
    have hne : l ≠ k := by
      rintro rfl
      rw [hk] at ha
      exact absurd ha (by simp)
    exact ⟨a, by rw [Finmap.lookup_insert_of_ne _ hne, ha], rfl, rfl, le_rfl⟩
  delegate {l a'} ha' _ := by
    rcases Store.lookup_insert_eq_some.mp ha' with ⟨-, rfl⟩ | ⟨-, ha⟩
    · exact Or.inl rfl
    · exact Or.inr ⟨a', ha, rfl, rfl, rfl⟩
  mint_absent _ := id
  mint_kept hx _ _ _ := ⟨_, hx, rfl, le_rfl⟩
  conserved hc := by
    have hheld : ∀ p, held p { L with accounts := L.accounts.insert k ⟨mint, owner, 0, none, 0⟩ } =
        L.held p := fun p ↦ by
      rw [held, held, Store.total_insert_of_lookup_eq_none _ _ hk]
      simp [TokenAccount.part]
    intro m
    rw [circulating, hheld]
    exact hc m

theorem Rely.approve {k : Pubkey} {a : TokenAccount} (d : Pubkey) (n : ℕ)
    (ha : L.accounts.lookup k = some a) (hP : ¬P a.owner) :
    L.Rely P Q { L with
      accounts := L.accounts.insert k { a with delegate := some d, delegatedAmount := n } } where
  account {l b} hb hb' _ _ := by
    have hne : l ≠ k := by
      rintro rfl
      obtain rfl := Option.some.inj (ha.symm.trans hb)
      exact hP hb'
    exact ⟨b, by rw [Finmap.lookup_insert_of_ne _ hne, hb], rfl, rfl, le_rfl⟩
  delegate {l b} hb hb' := by
    rcases Store.lookup_insert_eq_some.mp hb with ⟨-, rfl⟩ | ⟨-, hb⟩
    · exact absurd hb' hP
    · exact Or.inr ⟨b, hb, rfl, rfl, rfl⟩
  mint_absent _ := id
  mint_kept hx _ _ _ := ⟨_, hx, rfl, le_rfl⟩
  conserved hc := by
    intro m
    have hheld := Store.total_insert_of_lookup
      (fun _ c ↦ TokenAccount.part (fun _ x ↦ decide (x = m)) c)
      { a with delegate := some d, delegatedAmount := n } ha
    have heq : circulating { L with
        accounts := L.accounts.insert k { a with delegate := some d, delegatedAmount := n } } m =
          L.circulating m := Nat.add_right_cancel hheld
    rw [heq]
    exact hc m

theorem not_protected_of_authorizes (hu : L.Undelegated P) {k auth : Pubkey} {a : TokenAccount}
    {n : ℕ} (ha : L.accounts.lookup k = some a) (hauth : a.Authorizes auth n) (hs : ¬P auth) :
    ¬P a.owner := by
  intro hP
  rw [hauth.owner_eq (hu k a ha hP)] at hP
  exact hs hP

theorem Transferred.rely {src mint dst auth : Pubkey} {n r : ℕ}
    (h : L.Transferred L' src mint dst auth n r) (hu : L.Undelegated P) (hs : ¬P auth) :
    L.Rely P Q L' where
  account {k c} hc hP _ _ := by
    obtain ⟨a, b, ha, hb, -, -, -, hauth, -, ⟨-, -, rfl⟩ | ⟨-, rfl⟩⟩ := h.cases
    · exact ⟨c, hc, rfl, rfl, le_rfl⟩
    · have hsrc : k ≠ src := by
        rintro rfl
        rw [ha, Option.some.injEq] at hc
        exact not_protected_of_authorizes hu ha hauth hs (hc ▸ hP)
      by_cases hdst : k = dst
      · subst hdst
        rw [hb, Option.some.injEq] at hc
        subst hc
        exact ⟨_, Finmap.lookup_insert _, rfl, rfl, Nat.le_add_right _ _⟩
      · refine ⟨c, ?_, rfl, rfl, le_rfl⟩
        rw [Finmap.lookup_insert_of_ne _ hdst, Finmap.lookup_insert_of_ne _ hsrc, hc]
  delegate ha' hP := Or.inl (h.kept.undelegated hu _ _ ha' hP)
  mint_absent _ hm := by rw [h.mints_eq, hm]
  mint_kept hx _ _ _ := ⟨_, by rw [h.mints_eq, hx], rfl, le_rfl⟩
  conserved := h.conserved

theorem Burned.rely {mint src auth : Pubkey} {n : ℕ} (h : L.Burned L' mint src auth n)
    (hu : L.Undelegated P) (hs : ¬P auth) : L.Rely P Q L' where
  account {k c} hc hP _ _ := by
    obtain ⟨x, a, -, ha, -, -, -, hauth, rfl⟩ := h
    have hsrc : k ≠ src := by
      rintro rfl
      rw [ha, Option.some.injEq] at hc
      exact not_protected_of_authorizes hu ha hauth hs (hc ▸ hP)
    exact ⟨c, by rw [Finmap.lookup_insert_of_ne _ hsrc, hc], rfl, rfl, le_rfl⟩
  delegate ha' hP := Or.inl (h.kept.undelegated hu _ _ ha' hP)
  mint_absent _ hm := by
    obtain ⟨x, a, hx, -, -, -, -, -, rfl⟩ := h
    rw [Finmap.lookup_insert_of_ne _ (by rintro rfl; simp [hx] at hm), hm]
  mint_kept {m y auth'} hy _ _ _ := by
    obtain ⟨x, a, hx, -, -, -, -, -, rfl⟩ := h
    by_cases hm : m = mint
    · subst hm
      rw [hx, Option.some.injEq] at hy
      subst hy
      exact ⟨_, Finmap.lookup_insert _, rfl, Nat.sub_le _ _⟩
    · exact ⟨y, by rw [Finmap.lookup_insert_of_ne _ hm, hy], rfl, le_rfl⟩
  conserved := h.conserved

/-- Holdings of protected owners without delegates can only grow. -/
theorem Rely.held_le (h : L.Rely P Q L') {p : Pubkey → Pubkey → Bool}
    (hp : ∀ {k a}, L.accounts.lookup k = some a → p a.owner a.mint = true →
      P a.owner ∧ a.delegate = none) : L.held p ≤ L'.held p := by
  refine Store.total_le_total_of_lookup fun k a ha hpos ↦ ?_
  rw [TokenAccount.part] at hpos ⊢
  by_cases hpa : p a.owner a.mint = true
  · rw [if_pos hpa] at hpos ⊢
    obtain ⟨hP, hd⟩ := hp ha hpa
    obtain ⟨a', ha', hm, ho, hle⟩ := h.account ha hP hd hpos
    refine ⟨a', ha', ?_⟩
    rwa [TokenAccount.part, hm, ho, if_pos hpa]
  · rw [if_neg hpa] at hpos
    exact absurd hpos (Nat.lt_irrefl 0)

end Rely

end Ledger

end OptionsProtocol
