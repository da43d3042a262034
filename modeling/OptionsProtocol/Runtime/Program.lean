import OptionsProtocol.Library.Checked
import OptionsProtocol.Runtime.Token

/-!
# Programs and their addresses

What the programs have in common: how an instruction fails, and the addresses a deployment fixes.

Program-derived addresses are identified with their seeds. Accounts that a program keeps at such an
address are therefore entries of stores keyed by the seeds; the three kinds of address that also own
token accounts or sign calls are named here, with the only facts about them the programs rely on:
that they are not confused with one another.
-/

namespace OptionsProtocol

/-- The account checks Anchor makes on its own behalf. -/
inductive AnchorError where
  | accountNotInitialized
  | constraintHasOne
  | constraintRaw
  | constraintSeeds
  deriving DecidableEq, Repr

/-- How an instruction of a program with error codes `ε` fails. -/
inductive Failure (ε : Type) where
  /-- One of the program's own error codes. -/
  | error (e : ε)
  /-- An account check. -/
  | anchor (e : AnchorError)
  /-- An error of the token program. -/
  | token
  /-- An error of the system program. -/
  | system
  /-- An arithmetic overflow outside the checked operations; the build enables overflow checks. -/
  | panic
  deriving DecidableEq, Repr

/-- The failure of a called program, seen by its caller. -/
def Failure.map {ε ε' : Type} (f : ε → ε') : Failure ε → Failure ε'
  | error e => error (f e)
  | anchor e => anchor e
  | token => token
  | system => system
  | panic => panic

/-- The addresses of one deployment. -/
structure Deployment where
  /-- The controller's `[b"controller_config"]`. -/
  controllerConfig : Pubkey
  /-- The settler's `[b"settler_config"]`. -/
  settlerConfig : Pubkey
  /-- The settler's program id, which owns the accounts the settler creates. -/
  settlerProgram : Pubkey
  /-- The controller's `[b"pool_vault_auth", mint]`. -/
  poolVaultAuth : Pubkey → Pubkey
  /-- The address is one of the factory's `[b"otoken_mint", ..]`. -/
  IsOtokenMint : Pubkey → Prop
  settlerConfig_ne_controllerConfig : settlerConfig ≠ controllerConfig
  settlerConfig_ne_poolVaultAuth : ∀ m, settlerConfig ≠ poolVaultAuth m
  /-- The zero key is the system program's own address. -/
  settlerConfig_ne_default : settlerConfig ≠ Pubkey.default
  otokenMint_ne_default : ¬IsOtokenMint Pubkey.default

namespace Deployment

variable (D : Deployment)

/-- The addresses the controller signs for. -/
def IsControllerPda (k : Pubkey) : Prop := k = D.controllerConfig ∨ ∃ m, k = D.poolVaultAuth m

/-- The addresses the controller or the settler signs for. -/
def IsPda (k : Pubkey) : Prop := D.IsControllerPda k ∨ k = D.settlerConfig

theorem isControllerPda_controllerConfig : D.IsControllerPda D.controllerConfig := Or.inl rfl

theorem isControllerPda_poolVaultAuth (m : Pubkey) : D.IsControllerPda (D.poolVaultAuth m) :=
  Or.inr ⟨m, rfl⟩

theorem not_isControllerPda_settlerConfig : ¬D.IsControllerPda D.settlerConfig := by
  rintro (h | ⟨m, h⟩)
  · exact D.settlerConfig_ne_controllerConfig h
  · exact D.settlerConfig_ne_poolVaultAuth m h

theorem not_isControllerPda_of_not_isPda {k : Pubkey} (h : ¬D.IsPda k) : ¬D.IsControllerPda k :=
  fun hc ↦ h (Or.inl hc)

theorem isPda_settlerConfig : D.IsPda D.settlerConfig := Or.inr rfl

end Deployment

private theorem msb_or_top (m : Pubkey) : (m ||| BitVec.twoPow 256 255).msb = true := by
  rw [BitVec.msb_or, show (BitVec.twoPow 256 255).msb = true by decide, Bool.or_true]

/-- Addresses for runs that are evaluated: pool authorities are told apart by their highest bit. -/
def sampleDeployment : Deployment where
  controllerConfig := 3
  settlerConfig := 4
  settlerProgram := 8
  poolVaultAuth m := m ||| BitVec.twoPow 256 255
  IsOtokenMint m := 20 ≤ m ∧ m < 30
  settlerConfig_ne_controllerConfig := by decide
  settlerConfig_ne_poolVaultAuth m h := by
    have hmsb : (4 : Pubkey).msb = true := by rw [h, msb_or_top]
    exact absurd hmsb (by decide)
  settlerConfig_ne_default := by decide
  otokenMint_ne_default := by decide

theorem sampleDeployment_not_isControllerPda {k : Pubkey} (hk : k ≠ 3) (hmsb : k.msb = false) :
    ¬sampleDeployment.IsControllerPda k := by
  rintro (h | ⟨m, rfl⟩)
  · exact hk h
  · rw [show sampleDeployment.poolVaultAuth m = m ||| BitVec.twoPow 256 255 from rfl, msb_or_top] at hmsb
    exact absurd hmsb (by decide)

end OptionsProtocol
