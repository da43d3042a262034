import OptionsProtocol.Controller.State

/-!
# The oToken factory

The factory keeps one record for each series it has created, at the address of the six terms of the
series, and creates the mint of the series with it. The address of the mint is derived from the same
terms.
-/

namespace OptionsProtocol

namespace OtokenFactory

open Except

inductive FactoryError where
  | zeroAddress
  | controllerNotSet
  | invalidController
  | invalidStrikePrice
  | mathOverflow
  | invalidExpiry
  | unauthorized
  deriving DecidableEq, Repr

abbrev Error := Failure FactoryError

def MIN_OTOKEN_LIFETIME_SECS : ℤ := 60

/-! ## Accounts -/

/-- The seeds of an oToken and of its mint. -/
structure Terms where
  underlying : Pubkey
  strikeAsset : Pubkey
  collateral : Pubkey
  strikePrice : ℕ
  expiry : ℤ
  isPut : Bool
  deriving DecidableEq

def OToken.terms (otoken : OToken) : Terms :=
  ⟨otoken.underlying, otoken.strikeAsset, otoken.collateral, otoken.strikePrice, otoken.expiry,
    otoken.isPut⟩

/-- The addresses `[b"otoken_mint", ..]`. Deriving them hashes the terms, so that no asset is the mint
of a series it is the collateral of. -/
structure SeriesAddresses (D : Deployment) where
  otokenMint : Terms → Pubkey
  isOtokenMint : ∀ terms, D.IsOtokenMint (otokenMint terms)
  ne_collateral : ∀ terms, terms.collateral ≠ otokenMint terms

structure FactoryConfig where
  admin : Pubkey
  controller : Pubkey
  otokenCount : ℕ
  deriving DecidableEq

structure FactoryOperatorConfig where
  operator : Pubkey
  deriving DecidableEq

structure State where
  config : Option FactoryConfig
  operatorConfig : Option FactoryOperatorConfig
  otokens : Store Terms OToken

def loadConfig (s : State) : Except Error FactoryConfig :=
  fromOption s.config (.anchor .accountNotInitialized)

/-! ## Administration -/

/-- `initialize`. -/
def initializeConfig (admin : Pubkey) (s : State) : Except Error State := do
  require (s.config = none) .system
  require (admin ≠ Pubkey.default) (.error .zeroAddress)
  pure { s with config := some { admin, controller := Pubkey.default, otokenCount := 0 } }

/-- `set_controller`. -/
def setController (admin controller : Pubkey) (s : State) : Except Error State := do
  let config ← loadConfig s
  require (config.admin = admin) (.anchor .constraintHasOne)
  require (controller ≠ Pubkey.default) (.error .zeroAddress)
  pure { s with config := some { config with controller } }

/-- `set_operator`. -/
def setOperator (admin operator : Pubkey) (s : State) : Except Error State := do
  let config ← loadConfig s
  require (config.admin = admin) (.anchor .constraintHasOne)
  require (operator ≠ Pubkey.default) (.error .zeroAddress)
  pure { s with operatorConfig := some { operator } }

/-! ## Series -/

structure CreateOtoken where
  underlying : Pubkey
  strikeAsset : Pubkey
  collateral : Pubkey
  strikePrice : UInt64
  expiry : Int64
  isPut : Bool
  controllerAuthority : Pubkey
  admin : Pubkey

/-- The seeds of the accounts it creates. -/
def CreateOtoken.terms (ctx : CreateOtoken) : Terms :=
  ⟨ctx.underlying, ctx.strikeAsset, ctx.collateral, ctx.strikePrice.toNat, ctx.expiry.toInt, ctx.isPut⟩

variable {D : Deployment} (A : SeriesAddresses D)

/-- `create_otoken`. It creates the mint of the series on the ledger. -/
def createOtoken (ctx : CreateOtoken) (clock : ℤ) (L : Ledger) (s : State) :
    Except Error (State × Ledger) := do
  let config ← loadConfig s
  let operatorConfig ← fromOption s.operatorConfig (.anchor .accountNotInitialized)
  require (s.otokens.lookup ctx.terms = none) .system
  require (L.mints.lookup (A.otokenMint ctx.terms) = none) .system
  require (config.controller ≠ Pubkey.default) (.error .controllerNotSet)
  require (ctx.controllerAuthority = config.controller) (.error .invalidController)
  require (ctx.admin = config.admin ∨ ctx.admin = operatorConfig.operator) (.error .unauthorized)
  require (ctx.underlying ≠ Pubkey.default) (.error .zeroAddress)
  require (ctx.strikeAsset ≠ Pubkey.default) (.error .zeroAddress)
  require (ctx.collateral ≠ Pubkey.default) (.error .zeroAddress)
  require (0 < ctx.strikePrice.toNat) (.error .invalidStrikePrice)
  require (clock + MIN_OTOKEN_LIFETIME_SECS < 2 ^ 63) .panic
  require (clock + MIN_OTOKEN_LIFETIME_SECS < ctx.expiry.toInt) (.error .invalidExpiry)
  let otokenCount ← fromOption (Checked.add 64 config.otokenCount 1) (.error .mathOverflow)
  let otoken : OToken :=
    { underlying := ctx.underlying, strikeAsset := ctx.strikeAsset, collateral := ctx.collateral
      strikePrice := ctx.strikePrice.toNat, expiry := ctx.expiry.toInt, isPut := ctx.isPut
      mint := A.otokenMint ctx.terms }
  pure ({ s with
    config := some { config with otokenCount }
    otokens := s.otokens.insert ctx.terms otoken }, { L with
    mints := L.mints.insert (A.otokenMint ctx.terms) ⟨some ctx.controllerAuthority, 0, 8⟩ })

/-! ## Dispatch -/

inductive Instruction where
  | initializeConfig (admin : Pubkey)
  | setController (admin controller : Pubkey)
  | setOperator (admin operator : Pubkey)
  | createOtoken (ctx : CreateOtoken)

/-- Run an instruction at the given time, on the given ledger. -/
def exec (clock : ℤ) (L : Ledger) : Instruction → State → Except Error (State × Ledger)
  | .initializeConfig admin, s => do
    let s' ← initializeConfig admin s
    pure (s', L)
  | .setController admin controller, s => do
    let s' ← setController admin controller s
    pure (s', L)
  | .setOperator admin operator, s => do
    let s' ← setOperator admin operator s
    pure (s', L)
  | .createOtoken ctx, s => createOtoken A ctx clock L s

/-! ## What the instructions establish -/

variable {A} {clock : ℤ} {L L' : Ledger} {s s' : State}

structure CreateOtoken.Effect (A : SeriesAddresses D) (s : State) (L : Ledger) (ctx : CreateOtoken)
    (config : FactoryConfig) (s' : State) (L' : Ledger) : Prop where
  config_eq : s.config = some config
  fresh : s.otokens.lookup ctx.terms = none
  fresh_mint : L.mints.lookup (A.otokenMint ctx.terms) = none
  state_eq : s' = { s with
    config := some { config with otokenCount := config.otokenCount + 1 }
    otokens := s.otokens.insert ctx.terms
      ⟨ctx.underlying, ctx.strikeAsset, ctx.collateral, ctx.strikePrice.toNat, ctx.expiry.toInt,
        ctx.isPut, A.otokenMint ctx.terms⟩ }
  ledger_eq : L' = { L with
    mints := L.mints.insert (A.otokenMint ctx.terms) ⟨some ctx.controllerAuthority, 0, 8⟩ }

theorem createOtoken_effect {ctx : CreateOtoken} (h : createOtoken A ctx clock L s = .ok (s', L')) :
    ∃ config, CreateOtoken.Effect A s L ctx config s' L' := by
  simp only [createOtoken, loadConfig, fromOption_bind_eq_ok, require_bind_eq_ok, pure_eq_ok,
    Checked.add_eq_some, Prod.mk.injEq] at h
  obtain ⟨config, hconfig, _, -, hfresh, hmint, -, -, -, -, -, -, -, -, -, _, ⟨rfl, -⟩, rfl, rfl⟩ := h
  exact ⟨config, hconfig, hfresh, hmint, rfl, rfl⟩

/-- An instruction that creates no series touches neither the series nor the ledger, and keeps the
count; the first one starts it at zero. -/
structure Administered (s : State) (L : Ledger) (s' : State) (L' : Ledger) : Prop where
  otokens_eq : s'.otokens = s.otokens
  ledger_eq : L' = L
  count_eq : s'.config.elim 0 FactoryConfig.otokenCount = s.config.elim 0 FactoryConfig.otokenCount

/-- **What an instruction does**: it administers the factory, or it creates a series. -/
theorem cases_of_exec {ix : Instruction} (h : exec A clock L ix s = .ok (s', L')) :
    ((∀ ctx, ix ≠ .createOtoken ctx) ∧ Administered s L s' L') ∨
      ∃ ctx config, ix = .createOtoken ctx ∧ CreateOtoken.Effect A s L ctx config s' L' := by
  cases ix with
  | createOtoken ctx =>
    obtain ⟨config, he⟩ := createOtoken_effect h
    exact .inr ⟨ctx, config, rfl, he⟩
  | initializeConfig admin =>
    simp only [exec, initializeConfig, bind_eq_ok, require_eq_ok, pure_eq_ok, Prod.mk.injEq] at h
    obtain ⟨_, ⟨_, hnone, _, -, rfl⟩, rfl, rfl⟩ := h
    refine .inl ⟨by simp, rfl, rfl, ?_⟩
    rw [hnone]
    rfl
  | setController admin controller =>
    simp only [exec, setController, loadConfig, bind_eq_ok, fromOption_eq_ok, require_eq_ok, pure_eq_ok,
      Prod.mk.injEq] at h
    obtain ⟨_, ⟨config, hconfig, _, -, _, -, rfl⟩, rfl, rfl⟩ := h
    refine .inl ⟨by simp, rfl, rfl, ?_⟩
    rw [hconfig]
    rfl
  | setOperator admin operator =>
    simp only [exec, setOperator, loadConfig, bind_eq_ok, fromOption_eq_ok, require_eq_ok, pure_eq_ok,
      Prod.mk.injEq] at h
    obtain ⟨_, ⟨config, hconfig, _, -, _, -, rfl⟩, rfl, rfl⟩ := h
    exact .inl ⟨by simp, rfl, rfl, rfl⟩

/-! ## The invariant of the factory -/

/-- Every record lies at the address of its own terms and names the mint derived from them, and the
count is the number of records. -/
structure WellFormed (A : SeriesAddresses D) (s : State) : Prop where
  otoken : ∀ {terms otoken}, s.otokens.lookup terms = some otoken →
    otoken.terms = terms ∧ otoken.mint = A.otokenMint terms
  count : s.config.elim 0 FactoryConfig.otokenCount = s.otokens.entries.card

/-- The factory before its first instruction. -/
structure Initial (s : State) : Prop where
  config : s.config = none
  operatorConfig : s.operatorConfig = none
  otokens : s.otokens = ∅

theorem Initial.wellFormed (h : Initial s) : WellFormed A s where
  otoken hlookup := by
    rw [h.otokens, Finmap.lookup_empty] at hlookup
    exact absurd hlookup (by simp)
  count := by
    rw [h.config, h.otokens]
    rfl

theorem WellFormed.exec (hw : WellFormed A s) {ix : Instruction}
    (h : exec A clock L ix s = .ok (s', L')) : WellFormed A s' := by
  rcases cases_of_exec h with ⟨-, hotokens, -, hcount⟩ | ⟨ctx, config, -, he⟩
  · constructor
    · intro terms otoken hlookup
      rw [hotokens] at hlookup
      exact hw.otoken hlookup
    · rw [hcount, hw.count, hotokens]
  · constructor
    · intro terms otoken hlookup
      rw [he.state_eq] at hlookup
      rcases Store.lookup_insert_eq_some.mp hlookup with ⟨rfl, rfl⟩ | ⟨-, hold⟩
      · exact ⟨rfl, rfl⟩
      · exact hw.otoken hold
    · have hcount := hw.count
      rw [he.config_eq, Option.elim_some] at hcount
      rw [he.state_eq, Finmap.entries_insert_of_notMem (Finmap.lookup_eq_none.mp he.fresh),
        Multiset.card_cons, ← hcount]
      rfl

theorem otoken_of_exec {ix : Instruction} (h : exec A clock L ix s = .ok (s', L')) {terms : Terms}
    {otoken : OToken} (ho : s.otokens.lookup terms = some otoken) :
    s'.otokens.lookup terms = some otoken := by
  rcases cases_of_exec h with ⟨-, hotokens, -, -⟩ | ⟨ctx, config, -, he⟩
  · rw [hotokens, ho]
  · have hne : terms ≠ ctx.terms := by
      rintro rfl
      rw [he.fresh] at ho
      exact absurd ho (by simp)
    rw [he.state_eq, Finmap.lookup_insert_of_ne _ hne, ho]

end OtokenFactory

end OptionsProtocol
