import OptionsProtocol.Runtime.Token

/-!
# A reference token program

The plain SPL token program: transfers credit what they debit and every check is the documented
one. It shows that the laws of `TokenProgram` can be met, together with `Plain` and `Live`, and it
is what concrete runs are evaluated with. A second one withholds a fee from every transfer.
-/

namespace OptionsProtocol

namespace Spl

/-- `transfer_checked`. -/
def transferChecked (L : Ledger) (src mint dst auth : Pubkey) (n d : ℕ) : Option Ledger := do
  let a ← L.accounts.lookup src
  let b ← L.accounts.lookup dst
  let x ← L.mints.lookup mint
  if a.mint = mint ∧ b.mint = mint ∧ x.decimals = d ∧ n ≤ a.amount ∧ a.Authorizes auth n ∧
      (src ≠ dst → b.amount + n < 2 ^ 64) then
    some (if src = dst then L else
      { L with accounts := (L.accounts.insert src (a.debit auth n)).insert dst (b.credit n) })
  else none

/-- What a transfer of `n` withholds at a fee of `bps` hundredths of a percent. -/
def transferFee (bps n : ℕ) : ℕ := (n * bps + 9999) / 10000

/-- `transfer_checked` of a mint with a transfer fee. -/
def transferCheckedWithFee (bps : ℕ) (L : Ledger) (src mint dst auth : Pubkey) (n d : ℕ) :
    Option Ledger := do
  let a ← L.accounts.lookup src
  let b ← L.accounts.lookup dst
  let x ← L.mints.lookup mint
  if a.mint = mint ∧ b.mint = mint ∧ x.decimals = d ∧ n ≤ a.amount ∧ a.Authorizes auth n ∧
      (src ≠ dst → b.amount + (n - transferFee bps n) < 2 ^ 64) then
    some (if src = dst then L else { L with
      accounts := (L.accounts.insert src (a.debit auth n)).insert dst
        (b.credit (n - transferFee bps n)) })
  else none

/-- `mint_to`. -/
def mintTo (L : Ledger) (mint dst auth : Pubkey) (n : ℕ) : Option Ledger := do
  let x ← L.mints.lookup mint
  let b ← L.accounts.lookup dst
  if x.mintAuthority = some auth ∧ b.mint = mint ∧ x.supply + n < 2 ^ 64 then
    some { accounts := L.accounts.insert dst (b.credit n)
           mints := L.mints.insert mint { x with supply := x.supply + n } }
  else none

/-- `burn_checked`. -/
def burnChecked (L : Ledger) (mint src auth : Pubkey) (n d : ℕ) : Option Ledger := do
  let x ← L.mints.lookup mint
  let a ← L.accounts.lookup src
  if a.mint = mint ∧ x.decimals = d ∧ n ≤ a.amount ∧ n ≤ x.supply ∧ a.Authorizes auth n then
    some { accounts := L.accounts.insert src (a.debit auth n)
           mints := L.mints.insert mint { x with supply := x.supply - n } }
  else none

variable {L L' : Ledger} {src dst mint auth : Pubkey} {n d : ℕ}

theorem transferChecked_eq_some : transferChecked L src mint dst auth n d = some L' ↔
    ∃ a b x, L.accounts.lookup src = some a ∧ L.accounts.lookup dst = some b ∧
      L.mints.lookup mint = some x ∧ (a.mint = mint ∧ b.mint = mint ∧ x.decimals = d ∧
      n ≤ a.amount ∧ a.Authorizes auth n ∧ (src ≠ dst → b.amount + n < 2 ^ 64)) ∧
      (if src = dst then L else { L with
        accounts := (L.accounts.insert src (a.debit auth n)).insert dst (b.credit n) }) = L' := by
  simp only [transferChecked, Option.bind_eq_bind, Option.bind_eq_some_iff,
    Option.ite_none_right_eq_some, Option.some.injEq]
  grind

theorem burnChecked_eq_some : burnChecked L mint src auth n d = some L' ↔
    ∃ x a, L.mints.lookup mint = some x ∧ L.accounts.lookup src = some a ∧
      (a.mint = mint ∧ x.decimals = d ∧ n ≤ a.amount ∧ n ≤ x.supply ∧ a.Authorizes auth n) ∧
      { accounts := L.accounts.insert src (a.debit auth n)
        mints := L.mints.insert mint { x with supply := x.supply - n } } = L' := by
  simp only [burnChecked, Option.bind_eq_bind, Option.bind_eq_some_iff,
    Option.ite_none_right_eq_some, Option.some.injEq]
  grind

theorem transferred (h : transferChecked L src mint dst auth n d = some L') :
    L.Transferred L' src mint dst auth n n := by
  obtain ⟨a, b, x, ha, hb, -, ⟨hma, hmb, -, hn, hauth, -⟩, hL'⟩ := transferChecked_eq_some.mp h
  exact ⟨a, b, ha, hb, hma, hmb, hn, hauth, le_rfl, hL'.symm⟩

theorem transferredWithFee {bps : ℕ}
    (h : transferCheckedWithFee bps L src mint dst auth n d = some L') :
    L.Transferred L' src mint dst auth n (n - transferFee bps n) := by
  simp only [transferCheckedWithFee, Option.bind_eq_bind, Option.bind_eq_some_iff,
    Option.ite_none_right_eq_some, Option.some.injEq] at h
  obtain ⟨a, ha, b, hb, x, -, ⟨hma, hmb, -, hn, hauth, -⟩, hL'⟩ := h
  exact ⟨a, b, ha, hb, hma, hmb, hn, hauth, Nat.sub_le _ _, hL'.symm⟩

theorem minted (h : mintTo L mint dst auth n = some L') : L.Minted L' mint dst auth n := by
  simp only [mintTo, Option.bind_eq_bind, Option.bind_eq_some_iff,
    Option.ite_none_right_eq_some, Option.some.injEq] at h
  obtain ⟨x, hx, b, hb, ⟨hauth, hm, hlt⟩, hL'⟩ := h
  exact ⟨x, b, hx, hauth, hb, hm, hlt, hL'.symm⟩

theorem burned (h : burnChecked L mint src auth n d = some L') :
    L.Burned L' mint src auth n := by
  obtain ⟨x, a, hx, ha, ⟨hm, -, hn, hs, hauth⟩, hL'⟩ := burnChecked_eq_some.mp h
  exact ⟨x, a, hx, ha, hm, hn, hs, hauth, hL'.symm⟩

end Spl

/-- The SPL token program. -/
def splToken : TokenProgram where
  transferChecked := Spl.transferChecked
  mintTo := Spl.mintTo
  burnChecked := Spl.burnChecked
  transferChecked_spec h := ⟨_, Spl.transferred h⟩
  mintTo_spec := Spl.minted
  burnChecked_spec := Spl.burned

/-- The token program for mints whose transfers withhold a fee. -/
def feeToken (bps : ℕ) : TokenProgram := { splToken with
  transferChecked := Spl.transferCheckedWithFee bps
  transferChecked_spec h := ⟨_, Spl.transferredWithFee h⟩ }

theorem splToken_plain : splToken.Plain := Spl.transferred

theorem splToken_live : splToken.Live := by
  intro L src mint dst auth n d a b x ha hb hx hma hmb hd hn hauth hlt
  exact Option.isSome_iff_exists.mpr
    ⟨_, Spl.transferChecked_eq_some.mpr ⟨a, b, x, ha, hb, hx, ⟨hma, hmb, hd, hn, hauth, hlt⟩, rfl⟩⟩

theorem splToken_mintLive : splToken.MintLive := by
  intro L mint dst auth n b x hx hb hauth hm hlt
  simp only [splToken, Spl.mintTo, hx, hb, Option.bind_eq_bind, Option.bind_some]
  rw [if_pos ⟨hauth, hm, hlt⟩]
  rfl

theorem splToken_burnLive : splToken.BurnLive := by
  intro L mint src auth n d a x ha hx hm hd hn hs hauth
  exact Option.isSome_iff_exists.mpr
    ⟨_, Spl.burnChecked_eq_some.mpr ⟨x, a, hx, ha, ⟨hm, hd, hn, hs, hauth⟩, rfl⟩⟩

end OptionsProtocol
