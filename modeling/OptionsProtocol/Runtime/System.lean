import OptionsProtocol.Runtime.Token

/-!
# The system program

Lamports, and the creation of accounts. An address nobody has written to is an empty account of the
system program; anybody may send lamports to it before it is created. The four instructions below do
what the system program documents, at the granularity the programs rely on: who owns an account, how
much data it has, and what it holds.

Addresses stay a parameter: each program names its own by their seeds.
-/

namespace OptionsProtocol

/-- `system_program::ID`, the all-zero key. -/
def systemProgram : Pubkey := Pubkey.default

/-- What the runtime records of an account. -/
structure SystemAccount where
  lamports : ℕ
  /-- The program that owns the account. -/
  owner : Pubkey
  /-- The length of its data. -/
  space : ℕ
  deriving DecidableEq

namespace SystemAccount

/-- An address that was never used. -/
def empty : SystemAccount := ⟨0, systemProgram, 0⟩

/-- The account belongs to the system program and carries no data. -/
def IsPlain (a : SystemAccount) : Prop := a.owner = systemProgram ∧ a.space = 0

instance (a : SystemAccount) : Decidable a.IsPlain := inferInstanceAs (Decidable (_ ∧ _))

theorem isPlain_empty : empty.IsPlain := ⟨rfl, rfl⟩

/-- The account after lamports were sent from it. -/
def spend (a : SystemAccount) (n : ℕ) : SystemAccount := { a with lamports := a.lamports - n }

/-- The account after lamports were sent to it. -/
def receive (a : SystemAccount) (n : ℕ) : SystemAccount := { a with lamports := a.lamports + n }

@[simp] theorem spend_zero (a : SystemAccount) : a.spend 0 = a := rfl

@[simp] theorem receive_zero (a : SystemAccount) : a.receive 0 = a := rfl

@[simp] theorem spend_lamports (a : SystemAccount) (n : ℕ) : (a.spend n).lamports = a.lamports - n := rfl

@[simp] theorem receive_lamports (a : SystemAccount) (n : ℕ) :
    (a.receive n).lamports = a.lamports + n := rfl

theorem spend_spend (a : SystemAccount) (n m : ℕ) : (a.spend n).spend m = a.spend (n + m) := by
  rw [spend, spend, spend, Nat.sub_sub]

@[simp] theorem isPlain_spend {a : SystemAccount} {n : ℕ} : (a.spend n).IsPlain ↔ a.IsPlain := Iff.rfl

@[simp] theorem isPlain_receive {a : SystemAccount} {n : ℕ} : (a.receive n).IsPlain ↔ a.IsPlain := Iff.rfl

end SystemAccount

/-- The accounts at the addresses `A`. -/
abbrev SystemAccounts (A : Type) := Store A SystemAccount

variable {A : Type} [DecidableEq A]

/-- The account at an address, used or not. -/
def SystemAccounts.get (S : SystemAccounts A) (k : A) : SystemAccount := (S.lookup k).getD .empty

@[simp] theorem SystemAccounts.get_insert_self (S : SystemAccounts A) (k : A) (a : SystemAccount) :
    SystemAccounts.get (S.insert k a) k = a := by
  rw [get, Finmap.lookup_insert, Option.getD_some]

@[simp] theorem SystemAccounts.get_insert_of_ne (S : SystemAccounts A) {k l : A} (h : l ≠ k)
    (a : SystemAccount) : SystemAccounts.get (S.insert k a) l = SystemAccounts.get S l := by
  rw [get, Finmap.lookup_insert_of_ne _ h, get]

theorem SystemAccounts.get_insert (S : SystemAccounts A) (k : A) (a : SystemAccount) :
    SystemAccounts.get (S.insert k a) = Function.update S.get k a := by
  funext l
  by_cases hl : l = k
  · rw [hl, get_insert_self, Function.update_self]
  · rw [get_insert_of_ne _ hl, Function.update_of_ne hl]

/-- Everything about the accounts but their lamports: who owns them, and how much data they have. -/
def SystemAccounts.shape (S : SystemAccounts A) (k : A) : Pubkey × ℕ := ((S.get k).owner, (S.get k).space)

theorem SystemAccounts.isPlain_iff {S : SystemAccounts A} {k : A} :
    (S.get k).IsPlain ↔ S.shape k = (systemProgram, 0) := by
  rw [shape, Prod.mk.injEq, SystemAccount.IsPlain]

theorem SystemAccounts.shape_insert (S : SystemAccounts A) (k : A) (a : SystemAccount) :
    SystemAccounts.shape (S.insert k a) = Function.update S.shape k (a.owner, a.space) := by
  funext l
  by_cases hl : l = k
  · rw [hl, shape, get_insert_self, Function.update_self]
  · rw [shape, get_insert_of_ne _ hl, Function.update_of_ne hl, shape]

theorem SystemAccounts.shape_insert_lamports (S : SystemAccounts A) (k : A) (n : ℕ) :
    SystemAccounts.shape (S.insert k { S.get k with lamports := n }) = S.shape := by
  rw [shape_insert]
  exact Function.update_eq_self k S.shape

/-- What others can do to the accounts at the addresses `P`: send lamports there. -/
def SystemAccounts.Rely (P : A → Prop) (S S' : SystemAccounts A) : Prop :=
  ∀ k, P k → (S'.get k).owner = (S.get k).owner ∧ (S'.get k).space = (S.get k).space ∧
    (S.get k).lamports ≤ (S'.get k).lamports

theorem SystemAccounts.Rely.shape_eq {P : A → Prop} {S S' : SystemAccounts A} (h : S.Rely P S') {k : A}
    (hk : P k) : S'.shape k = S.shape k := by
  obtain ⟨howner, hspace, -⟩ := h k hk
  rw [shape, howner, hspace, shape]

namespace SystemProgram

variable (S : SystemAccounts A)

/-- `transfer`. Only plain accounts can send. -/
def transfer (src dst : A) (lamports : ℕ) : Option (SystemAccounts A) :=
  if (S.get src).IsPlain ∧ lamports ≤ (S.get src).lamports then
    let S₁ : SystemAccounts A :=
      S.insert src { S.get src with lamports := (S.get src).lamports - lamports }
    some (S₁.insert dst { S₁.get dst with lamports := (S₁.get dst).lamports + lamports })
  else none

/-- `allocate`. -/
def allocate (k : A) (space : ℕ) : Option (SystemAccounts A) :=
  if (S.get k).IsPlain then some (S.insert k { S.get k with space }) else none

/-- `assign`. -/
def assign (k : A) (owner : Pubkey) : Option (SystemAccounts A) :=
  if (S.get k).owner = systemProgram then some (S.insert k { S.get k with owner }) else none

/-- `create_account`. It refuses an address that already holds lamports. -/
def createAccount (src dst : A) (lamports space : ℕ) (owner : Pubkey) :
    Option (SystemAccounts A) := do
  if (S.get dst).lamports = 0 then
    let S ← allocate S dst space
    let S ← assign S dst owner
    transfer S src dst lamports
  else none

/-- What Anchor's `init` makes the system program do: an address with lamports is topped up, then
allocated and assigned. -/
def initAccount (rent : ℕ → ℕ) (payer target : A) (space : ℕ) (owner : Pubkey) :
    Option (SystemAccounts A) := do
  if (S.get target).lamports = 0 then
    createAccount S payer target (rent space) space owner
  else
    let S ← if (S.get target).lamports < rent space then
      transfer S payer target (rent space - (S.get target).lamports) else some S
    let S ← allocate S target space
    assign S target owner

variable {S} {S' : SystemAccounts A} {src dst k : A} {n space : ℕ} {owner : Pubkey}

/-- The accounts after lamports were sent from one address to another. -/
def pay (f : A → SystemAccount) (src dst : A) (n : ℕ) : A → SystemAccount :=
  Function.update (Function.update f src ((f src).spend n)) dst ((f dst).receive n)

theorem exists_transfer (hsrc : (S.get src).IsPlain) (hle : n ≤ (S.get src).lamports) (hne : src ≠ dst) :
    ∃ S', transfer S src dst n = some S' ∧ S'.get = pay S.get src dst n := by
  refine ⟨_, if_pos ⟨hsrc, hle⟩, ?_⟩
  simp only [SystemAccounts.get_insert, pay, Function.update_of_ne hne.symm]
  rfl

theorem exists_claim (h : (S.get k).IsPlain) (space : ℕ) (owner : Pubkey) :
    ∃ S₁ S₂, allocate S k space = some S₁ ∧ assign S₁ k owner = some S₂ ∧
      S₂.get = Function.update S.get k ⟨(S.get k).lamports, owner, space⟩ := by
  refine ⟨_, _, if_pos h, if_pos ?_, ?_⟩
  · rw [SystemAccounts.get_insert_self]
    exact h.1
  · rw [SystemAccounts.get_insert, SystemAccounts.get_insert_self, SystemAccounts.get_insert,
      Function.update_idem]

theorem exists_createAccount (hzero : (S.get dst).lamports = 0) (hdst : (S.get dst).IsPlain)
    (hsrc : (S.get src).IsPlain) (hle : n ≤ (S.get src).lamports) (hne : src ≠ dst) (space : ℕ)
    (owner : Pubkey) : ∃ S', createAccount S src dst n space owner = some S' ∧
      S'.get = pay (Function.update S.get dst ⟨0, owner, space⟩) src dst n := by
  obtain ⟨S₁, S₂, h₁, h₂, hget⟩ := exists_claim hdst space owner
  have hkept : S₂.get src = S.get src := by rw [hget, Function.update_of_ne hne]
  obtain ⟨S₃, h₃, hpaid⟩ := exists_transfer (hkept ▸ hsrc) (hkept ▸ hle) hne
  refine ⟨S₃, ?_, ?_⟩
  · rw [createAccount, if_pos hzero, h₁, Option.bind_eq_bind, Option.bind_some, h₂]
    exact h₃
  · rw [hpaid, hget, hzero]

theorem shape_transfer (h : transfer S src dst n = some S') : S'.shape = S.shape := by
  obtain ⟨-, h⟩ := Option.ite_none_right_eq_some.mp h
  rw [← Option.some.inj h, SystemAccounts.shape_insert_lamports, SystemAccounts.shape_insert_lamports]

theorem shape_claim {S₁ S₂ : SystemAccounts A} (h₁ : allocate S k space = some S₁)
    (h₂ : assign S₁ k owner = some S₂) : S₂.shape = Function.update S.shape k (owner, space) := by
  obtain ⟨-, h₁⟩ := Option.ite_none_right_eq_some.mp h₁
  obtain ⟨-, h₂⟩ := Option.ite_none_right_eq_some.mp h₂
  rw [← Option.some.inj h₂, ← Option.some.inj h₁, SystemAccounts.shape_insert,
    SystemAccounts.get_insert_self, SystemAccounts.shape_insert, Function.update_idem]

theorem shape_createAccount (h : createAccount S src dst n space owner = some S') :
    S'.shape = Function.update S.shape dst (owner, space) := by
  obtain ⟨-, h⟩ := Option.ite_none_right_eq_some.mp h
  obtain ⟨S₁, h₁, h⟩ := Option.bind_eq_some_iff.mp h
  obtain ⟨S₂, h₂, h₃⟩ := Option.bind_eq_some_iff.mp h
  rw [shape_transfer h₃, shape_claim h₁ h₂]

theorem shape_initAccount {rent : ℕ → ℕ} (h : initAccount S rent src dst space owner = some S') :
    S'.shape = Function.update S.shape dst (owner, space) := by
  rw [initAccount] at h
  split at h
  · exact shape_createAccount h
  · dsimp only at h
    split at h
    · obtain ⟨S₁, h₁, h⟩ := Option.bind_eq_some_iff.mp h
      obtain ⟨S₂, h₂, h₃⟩ := Option.bind_eq_some_iff.mp h
      rw [shape_claim h₂ h₃, shape_transfer h₁]
    · obtain ⟨S₁, h₁, h⟩ := Option.bind_eq_some_iff.mp h
      obtain ⟨S₂, h₂, h₃⟩ := Option.bind_eq_some_iff.mp h
      rw [shape_claim h₂ h₃, Option.some.inj h₁]

end SystemProgram

end OptionsProtocol
