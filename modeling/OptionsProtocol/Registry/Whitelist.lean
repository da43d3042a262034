import OptionsProtocol.Registry.OtokenFactory

/-!
# The whitelist

One entry for each approved mint. Entries are created active, and no instruction changes one.
-/

namespace OptionsProtocol

namespace Whitelist

open Except

inductive WhitelistError where
  | zeroAddress
  | unauthorized
  | otokenMismatch
  deriving DecidableEq, Repr

abbrev Error := Failure WhitelistError

structure WhitelistConfig where
  admin : Pubkey
  factory : Pubkey
  deriving DecidableEq

structure State where
  config : Option WhitelistConfig
  /-- Keyed by the mint. -/
  entries : Store Pubkey WhitelistedOToken

def loadConfig (s : State) : Except Error WhitelistConfig :=
  fromOption s.config (.anchor .accountNotInitialized)

/-- `initialize`. -/
def initializeConfig (admin : Pubkey) (s : State) : Except Error State := do
  require (s.config = none) .system
  require (admin ≠ Pubkey.default) (.error .zeroAddress)
  pure { s with config := some { admin, factory := Pubkey.default } }

/-- `set_factory`. -/
def setFactory (admin factory : Pubkey) (s : State) : Except Error State := do
  let config ← loadConfig s
  require (config.admin = admin) (.anchor .constraintHasOne)
  require (factory ≠ Pubkey.default) (.error .zeroAddress)
  pure { s with config := some { config with factory } }

structure WhitelistOToken where
  otokenMint : Pubkey
  /-- The contents of the factory's account. -/
  factoryOtoken : OtokenFactory.OToken
  /-- The operator recorded in `factory_operator_config`, if that account is initialised. -/
  factoryOperator : Option Pubkey
  caller : Pubkey

/-- `whitelist_otoken`. -/
def whitelistOtoken (ctx : WhitelistOToken) (s : State) : Except Error State := do
  let config ← loadConfig s
  require (s.entries.lookup ctx.otokenMint = none) .system
  require (ctx.factoryOtoken.mint = ctx.otokenMint) (.error .otokenMismatch)
  require (ctx.caller = config.admin ∨
    (config.factory ≠ Pubkey.default ∧ ctx.caller = config.factory) ∨
    ctx.factoryOperator = some ctx.caller) (.error .unauthorized)
  pure { s with
    entries := s.entries.insert ctx.otokenMint { otokenMint := ctx.otokenMint, active := true } }

inductive Instruction where
  | initializeConfig (admin : Pubkey)
  | setFactory (admin factory : Pubkey)
  | whitelistOtoken (ctx : WhitelistOToken)

/-- Run an instruction. -/
def exec : Instruction → State → Except Error State
  | .initializeConfig admin, s => initializeConfig admin s
  | .setFactory admin factory, s => setFactory admin factory s
  | .whitelistOtoken ctx, s => whitelistOtoken ctx s

variable {s s' : State}

/-- **The entries after an instruction**: as they were, or with a new active one for the mint of a
series the factory created. -/
theorem entries_of_exec {ix : Instruction} (h : exec ix s = .ok s') :
    s'.entries = s.entries ∨
      ∃ ctx, ix = .whitelistOtoken ctx ∧ s.entries.lookup ctx.otokenMint = none ∧
        ctx.factoryOtoken.mint = ctx.otokenMint ∧
        s'.entries = s.entries.insert ctx.otokenMint ⟨ctx.otokenMint, true⟩ := by
  cases ix with
  | initializeConfig admin =>
    simp only [exec, initializeConfig, require_bind_eq_ok, pure_eq_ok] at h
    obtain ⟨-, -, rfl⟩ := h
    exact .inl rfl
  | setFactory admin factory =>
    simp only [exec, setFactory, loadConfig, fromOption_bind_eq_ok, require_bind_eq_ok,
      pure_eq_ok] at h
    obtain ⟨config, -, -, -, rfl⟩ := h
    exact .inl rfl
  | whitelistOtoken ctx =>
    simp only [exec, whitelistOtoken, loadConfig, fromOption_bind_eq_ok, require_bind_eq_ok,
      pure_eq_ok] at h
    obtain ⟨config, -, hfresh, hmint, -, rfl⟩ := h
    exact .inr ⟨ctx, rfl, hfresh, hmint, rfl⟩

theorem entry_of_exec {ix : Instruction} (h : exec ix s = .ok s') {m : Pubkey}
    {entry : WhitelistedOToken} (he : s.entries.lookup m = some entry) :
    s'.entries.lookup m = some entry := by
  rcases entries_of_exec h with heq | ⟨ctx, -, hfresh, -, heq⟩
  · rw [heq, he]
  · have hne : m ≠ ctx.otokenMint := by
      rintro rfl
      rw [hfresh] at he
      exact absurd he (by simp)
    rw [heq, Finmap.lookup_insert_of_ne _ hne, he]

end Whitelist

end OptionsProtocol
