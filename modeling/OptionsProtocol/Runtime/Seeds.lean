import Mathlib.Tactic.NormNum
import OptionsProtocol.Library.TaggedScheme
import OptionsProtocol.Runtime.Ed25519

/-!
# The seeds of the programs' addresses

Every account a program keeps, and every address it signs for, is derived from seeds: a byte string that names
the kind of account, and the keys and numbers that tell accounts of the kind apart. The address is a hash of
the seeds one after the other, a bump and the program's id, without separators. So two derivations of a program
are confused exactly if their seeds, one after the other, are the same bytes.

For five of the six programs that happens only where the derivations are the same: their kinds differ in
length. The controller has two kinds of one length, and `vault` begins `vault_counter`. An owner whose key
begins with `_counter` has vaults at the addresses of other owners' counters.
-/

namespace OptionsProtocol

open Bytes

/-! ## Seeds -/

/-- `u64::to_le_bytes()`. -/
def u64Seed (x : UInt64) : List UInt8 := leBytes 8 x.toBitVec.toNat

/-- `i64::to_le_bytes()`. -/
def i64Seed (x : Int64) : List UInt8 := leBytes 8 x.toBitVec.toNat

/-- `&[x as u8]`. -/
def boolSeed (x : Bool) : List UInt8 := [if x then 1 else 0]

@[simp] theorem length_u64Seed (x : UInt64) : (u64Seed x).length = 8 := length_leBytes 8 _

@[simp] theorem length_i64Seed (x : Int64) : (i64Seed x).length = 8 := length_leBytes 8 _

@[simp] theorem length_boolSeed (x : Bool) : (boolSeed x).length = 1 := rfl

@[simp] theorem u64Seed_inj {x y : UInt64} : u64Seed x = u64Seed y ↔ x = y := by
  constructor
  · intro h
    have hword : (2 : ℕ) ^ 64 = 256 ^ 8 := by norm_num
    exact UInt64.toBitVec_inj.mp (leBytes_word_injective hword h)
  · rintro rfl
    rfl

@[simp] theorem i64Seed_inj {x y : Int64} : i64Seed x = i64Seed y ↔ x = y := by
  constructor
  · intro h
    have hword : (2 : ℕ) ^ 64 = 256 ^ 8 := by norm_num
    exact Int64.toBitVec_inj.mp (leBytes_word_injective hword h)
  · rintro rfl
    rfl

@[simp] theorem boolSeed_inj {x y : Bool} : boolSeed x = boolSeed y ↔ x = y := by
  cases x <;> cases y <;> decide

@[simp] theorem Pubkey.toBytes_eq_iff {k l : Pubkey} : Pubkey.toBytes k = Pubkey.toBytes l ↔ k = l :=
  ⟨Pubkey.toBytes_inj, congrArg _⟩

/-! ## The controller -/

inductive ControllerFamily where
  | config
  | vaultCounter
  | vault
  | otokenInfo
  | poolVaultAuth
  deriving DecidableEq

/-- What accounts of the kind are told apart by. -/
abbrev ControllerFamily.Params : ControllerFamily → Type
  | .config => Unit
  | .vaultCounter => Pubkey
  | .vault => Pubkey × UInt64
  | .otokenInfo => Pubkey
  | .poolVaultAuth => Pubkey

def ControllerFamily.fields : ∀ i : ControllerFamily, i.Params → List (List UInt8)
  | .config, () => []
  | .vaultCounter, owner => [owner.toBytes]
  | .vault, (owner, vaultId) => [owner.toBytes, u64Seed vaultId]
  | .otokenInfo, otokenMint => [otokenMint.toBytes]
  | .poolVaultAuth, collateralMint => [collateralMint.toBytes]

def controllerSeeds : TaggedScheme UInt8 ControllerFamily ControllerFamily.Params where
  tag
    | .config => ascii "controller_config"
    | .vaultCounter => ascii "vault_counter"
    | .vault => ascii "vault"
    | .otokenInfo => ascii "otoken_info"
    | .poolVaultAuth => ascii "pool_vault_auth"
  widths
    | .config => []
    | .vaultCounter => [32]
    | .vault => [32, 8]
    | .otokenInfo => [32]
    | .poolVaultAuth => [32]
  fields := ControllerFamily.fields
  map_length_fields i p := by cases i <;> simp [ControllerFamily.fields]
  fields_injective i p q h := by
    cases i <;> simp_all [ControllerFamily.fields, Prod.ext_iff]

/-! ## The settler -/

inductive SettlerFamily where
  | config
  | rentReserve
  | makerState
  | quoteFill
  | makerOtokenBalance
  | vaultMM
  deriving DecidableEq

/-- What accounts of the kind are told apart by. -/
abbrev SettlerFamily.Params : SettlerFamily → Type
  | .config => Unit
  | .rentReserve => Unit
  | .makerState => Pubkey
  | .quoteFill => Pubkey × UInt64 × UInt64
  | .makerOtokenBalance => Pubkey × Pubkey
  | .vaultMM => Pubkey

def SettlerFamily.fields : ∀ i : SettlerFamily, i.Params → List (List UInt8)
  | .config, () => []
  | .rentReserve, () => []
  | .makerState, maker => [maker.toBytes]
  | .quoteFill, (maker, makerNonce, quoteId) => [maker.toBytes, u64Seed makerNonce, u64Seed quoteId]
  | .makerOtokenBalance, (maker, otokenMint) => [maker.toBytes, otokenMint.toBytes]
  | .vaultMM, vault => [vault.toBytes]

def settlerSeeds : TaggedScheme UInt8 SettlerFamily SettlerFamily.Params where
  tag
    | .config => ascii "settler_config"
    | .rentReserve => ascii "rent_reserve"
    | .makerState => ascii "maker"
    | .quoteFill => ascii "quote_fill"
    | .makerOtokenBalance => ascii "mm_balance"
    | .vaultMM => ascii "vault_mm"
  widths
    | .config => []
    | .rentReserve => []
    | .makerState => [32]
    | .quoteFill => [32, 8, 8]
    | .makerOtokenBalance => [32, 32]
    | .vaultMM => [32]
  fields := SettlerFamily.fields
  map_length_fields i p := by cases i <;> simp [SettlerFamily.fields]
  fields_injective i p q h := by
    cases i <;> simp_all [SettlerFamily.fields, Prod.ext_iff]

/-! ## The oracle -/

inductive OracleFamily where
  | config
  | feed
  | expiryPrice
  deriving DecidableEq

/-- What accounts of the kind are told apart by. -/
abbrev OracleFamily.Params : OracleFamily → Type
  | .config => Unit
  | .feed => Pubkey
  | .expiryPrice => Pubkey × Int64

def OracleFamily.fields : ∀ i : OracleFamily, i.Params → List (List UInt8)
  | .config, () => []
  | .feed, underlying => [underlying.toBytes]
  | .expiryPrice, (underlying, expiry) => [underlying.toBytes, i64Seed expiry]

def oracleSeeds : TaggedScheme UInt8 OracleFamily OracleFamily.Params where
  tag
    | .config => ascii "oracle_config"
    | .feed => ascii "feed"
    | .expiryPrice => ascii "expiry_price"
  widths
    | .config => []
    | .feed => [32]
    | .expiryPrice => [32, 8]
  fields := OracleFamily.fields
  map_length_fields i p := by cases i <;> simp [OracleFamily.fields]
  fields_injective i p q h := by
    cases i <;> simp_all [OracleFamily.fields, Prod.ext_iff]

/-! ## The factory -/

inductive FactoryFamily where
  | config
  | operatorConfig
  | otoken
  | otokenMint
  deriving DecidableEq

/-- The terms of a series: underlying, strike asset and collateral, strike price, expiry, and side. -/
abbrev SeriesTerms : Type := Pubkey × Pubkey × Pubkey × UInt64 × Int64 × Bool

def seriesFields : SeriesTerms → List (List UInt8)
  | (underlying, strikeAsset, collateral, strikePrice, expiry, isPut) =>
    [underlying.toBytes, strikeAsset.toBytes, collateral.toBytes, u64Seed strikePrice, i64Seed expiry,
      boolSeed isPut]

/-- What accounts of the kind are told apart by. -/
abbrev FactoryFamily.Params : FactoryFamily → Type
  | .config => Unit
  | .operatorConfig => Unit
  | .otoken => SeriesTerms
  | .otokenMint => SeriesTerms

def FactoryFamily.fields : ∀ i : FactoryFamily, i.Params → List (List UInt8)
  | .config, () => []
  | .operatorConfig, () => []
  | .otoken, terms => seriesFields terms
  | .otokenMint, terms => seriesFields terms

def factorySeeds : TaggedScheme UInt8 FactoryFamily FactoryFamily.Params where
  tag
    | .config => ascii "factory_config"
    | .operatorConfig => ascii "factory_operator_config"
    | .otoken => ascii "otoken"
    | .otokenMint => ascii "otoken_mint"
  widths
    | .config => []
    | .operatorConfig => []
    | .otoken => [32, 32, 32, 8, 8, 1]
    | .otokenMint => [32, 32, 32, 8, 8, 1]
  fields := FactoryFamily.fields
  map_length_fields i p := by cases i <;> simp [FactoryFamily.fields, seriesFields]
  fields_injective i p q h := by
    cases i <;> simp_all [FactoryFamily.fields, seriesFields, Prod.ext_iff]

/-! ## The margin pool -/

inductive MarginPoolFamily where
  | config
  | poolVault
  | lendingVaultAuth
  deriving DecidableEq

/-- What accounts of the kind are told apart by. -/
abbrev MarginPoolFamily.Params : MarginPoolFamily → Type
  | .config => Unit
  | .poolVault => Pubkey
  | .lendingVaultAuth => Pubkey

def MarginPoolFamily.fields : ∀ i : MarginPoolFamily, i.Params → List (List UInt8)
  | .config, () => []
  | .poolVault, collateralMint => [collateralMint.toBytes]
  | .lendingVaultAuth, collateralMint => [collateralMint.toBytes]

def marginPoolSeeds : TaggedScheme UInt8 MarginPoolFamily MarginPoolFamily.Params where
  tag
    | .config => ascii "margin_pool_config"
    | .poolVault => ascii "pool_vault"
    | .lendingVaultAuth => ascii "lending_vault_auth"
  widths
    | .config => []
    | .poolVault => [32]
    | .lendingVaultAuth => [32]
  fields := MarginPoolFamily.fields
  map_length_fields i p := by cases i <;> simp [MarginPoolFamily.fields]
  fields_injective i p q h := by
    cases i <;> simp_all [MarginPoolFamily.fields]

/-! ## The whitelist -/

inductive WhitelistFamily where
  | config
  | entry
  deriving DecidableEq

/-- What accounts of the kind are told apart by. -/
abbrev WhitelistFamily.Params : WhitelistFamily → Type
  | .config => Unit
  | .entry => Pubkey

def WhitelistFamily.fields : ∀ i : WhitelistFamily, i.Params → List (List UInt8)
  | .config, () => []
  | .entry, otokenMint => [otokenMint.toBytes]

def whitelistSeeds : TaggedScheme UInt8 WhitelistFamily WhitelistFamily.Params where
  tag
    | .config => ascii "whitelist_config"
    | .entry => ascii "whitelisted_otoken"
  widths
    | .config => []
    | .entry => [32]
  fields := WhitelistFamily.fields
  map_length_fields i p := by cases i <;> simp [WhitelistFamily.fields]
  fields_injective i p q h := by
    cases i <;> simp_all [WhitelistFamily.fields]

/-! ## Confusions -/

/-- **The seeds of these programs are never confused.** -/
theorem settlerSeeds_injective : Function.Injective settlerSeeds.text := by
  apply settlerSeeds.text_injective
  intro i j
  cases i <;> cases j <;> decide

theorem oracleSeeds_injective : Function.Injective oracleSeeds.text := by
  apply oracleSeeds.text_injective
  intro i j
  cases i <;> cases j <;> decide

theorem factorySeeds_injective : Function.Injective factorySeeds.text := by
  apply factorySeeds.text_injective
  intro i j
  cases i <;> cases j <;> decide

theorem marginPoolSeeds_injective : Function.Injective marginPoolSeeds.text := by
  apply marginPoolSeeds.text_injective
  intro i j
  cases i <;> cases j <;> decide

theorem whitelistSeeds_injective : Function.Injective whitelistSeeds.text := by
  apply whitelistSeeds.text_injective
  intro i j
  cases i <;> cases j <;> decide

/-- The owner of a vault has a key that begins with the rest of the longer tag and goes on like the owner of
a counter, and the vault's id is how that key ends. -/
def VaultClash (owner : Pubkey) (vaultId : UInt64) (other : Pubkey) : Prop :=
  owner.toBytes = ascii "_counter" ++ other.toBytes.take 24 ∧ u64Seed vaultId = other.toBytes.drop 24

instance (owner : Pubkey) (vaultId : UInt64) (other : Pubkey) :
    Decidable (VaultClash owner vaultId other) :=
  inferInstanceAs (Decidable (_ ∧ _))

/-- A vault and a counter, one way round or the other, that clash. -/
def ControllerClash : Sigma ControllerFamily.Params → Sigma ControllerFamily.Params → Prop
  | ⟨.vault, (owner, vaultId)⟩, ⟨.vaultCounter, other⟩ => VaultClash owner vaultId other
  | ⟨.vaultCounter, other⟩, ⟨.vault, (owner, vaultId)⟩ => VaultClash owner vaultId other
  | _, _ => False

/-- Of two kinds other than a vault and a counter, the seeds differ in length. -/
theorem controllerSeeds_separated : ∀ i j : ControllerFamily, i ≠ j → ¬(i = .vault ∧ j = .vaultCounter) →
    ¬(i = .vaultCounter ∧ j = .vault) → controllerSeeds.Separated i j := by
  intro i j
  cases i <;> cases j <;> decide

/-- A vault is taken for a counter exactly if they clash. -/
theorem vault_text_eq_iff {owner : Pubkey} {vaultId : UInt64} {other : Pubkey} :
    controllerSeeds.text ⟨.vault, (owner, vaultId)⟩ = controllerSeeds.text ⟨.vaultCounter, other⟩ ↔
      VaultClash owner vaultId other := by
  have htag : controllerSeeds.tag .vaultCounter = controllerSeeds.tag .vault ++ ascii "_counter" := by decide
  rw [controllerSeeds.text_eq_iff_of_tag htag]
  have hvault : (controllerSeeds.fields .vault (owner, vaultId)).flatten =
      owner.toBytes ++ u64Seed vaultId := by
    simp [controllerSeeds, ControllerFamily.fields]
  have hcounter : ascii "_counter" ++ (controllerSeeds.fields .vaultCounter other).flatten =
      (ascii "_counter" ++ other.toBytes.take 24) ++ other.toBytes.drop 24 := by
    simp [controllerSeeds, ControllerFamily.fields]
  rw [hvault, hcounter, VaultClash]
  constructor
  · intro h
    exact List.append_inj h (by simp [ascii])
  · rintro ⟨h₁, h₂⟩
    rw [h₁, h₂]

/-- **The controller's seeds are confused where a vault and a counter clash**, and nowhere else. -/
theorem controllerSeeds_text_eq_iff {x y : Sigma ControllerFamily.Params} :
    controllerSeeds.text x = controllerSeeds.text y ↔ x = y ∨ ControllerClash x y := by
  constructor
  · intro h
    obtain ⟨i, p⟩ := x
    obtain ⟨j, q⟩ := y
    by_cases hvault : i = .vault ∧ j = .vaultCounter
    · obtain ⟨rfl, rfl⟩ := hvault
      exact .inr (vault_text_eq_iff.mp h)
    by_cases hcounter : i = .vaultCounter ∧ j = .vault
    · obtain ⟨rfl, rfl⟩ := hcounter
      exact .inr (vault_text_eq_iff.mp h.symm)
    · left
      apply controllerSeeds.eq_of_text_eq _ h
      intro hne
      exact controllerSeeds_separated i j hne hvault hcounter
  · rintro (rfl | hclash)
    · rfl
    · match x, y, hclash with
      | ⟨.vault, (owner, vaultId)⟩, ⟨.vaultCounter, other⟩, hclash => exact vault_text_eq_iff.mpr hclash
      | ⟨.vaultCounter, other⟩, ⟨.vault, (owner, vaultId)⟩, hclash =>
        exact (vault_text_eq_iff.mpr hclash).symm

theorem ControllerClash.ne {x y : Sigma ControllerFamily.Params} (h : ControllerClash x y) : x ≠ y := by
  match x, y, h with
  | ⟨.vault, _⟩, ⟨.vaultCounter, _⟩, _ => simp
  | ⟨.vaultCounter, _⟩, ⟨.vault, _⟩, _ => simp

theorem controllerSeeds_determine_iff (x y : Sigma ControllerFamily.Params) :
    (controllerSeeds.text x = controllerSeeds.text y → x = y) ↔ ¬ControllerClash x y := by
  rw [controllerSeeds_text_eq_iff]
  constructor
  · intro h hclash
    exact hclash.ne (h (.inr hclash))
  · rintro h (heq | hclash)
    · exact heq
    · exact absurd hclash h

/-! ## Every program -/

inductive SeedProgram where
  | controller
  | settler
  | oracle
  | factory
  | marginPool
  | whitelist

/-- The derivations a program makes under its own id. -/
abbrev Derivation : SeedProgram → Type
  | .controller => Sigma ControllerFamily.Params
  | .settler => Sigma SettlerFamily.Params
  | .oracle => Sigma OracleFamily.Params
  | .factory => Sigma FactoryFamily.Params
  | .marginPool => Sigma MarginPoolFamily.Params
  | .whitelist => Sigma WhitelistFamily.Params

/-- The seeds of a derivation, one after the other. -/
def seedBytes : ∀ P : SeedProgram, Derivation P → List UInt8
  | .controller => controllerSeeds.text
  | .settler => settlerSeeds.text
  | .oracle => oracleSeeds.text
  | .factory => factorySeeds.text
  | .marginPool => marginPoolSeeds.text
  | .whitelist => whitelistSeeds.text

def SeedClash : ∀ P : SeedProgram, Derivation P → Derivation P → Prop
  | .controller => ControllerClash
  | _ => fun _ _ ↦ False

/-- **Seeds determine the derivation**, for any two derivations of a program, exactly if they are not a vault
and a counter of the controller that clash. -/
theorem seeds_determine_iff (P : SeedProgram) (x y : Derivation P) :
    (seedBytes P x = seedBytes P y → x = y) ↔ ¬SeedClash P x y := by
  cases P with
  | controller => exact controllerSeeds_determine_iff x y
  | settler => exact iff_of_true (fun h ↦ settlerSeeds_injective h) id
  | oracle => exact iff_of_true (fun h ↦ oracleSeeds_injective h) id
  | factory => exact iff_of_true (fun h ↦ factorySeeds_injective h) id
  | marginPool => exact iff_of_true (fun h ↦ marginPoolSeeds_injective h) id
  | whitelist => exact iff_of_true (fun h ↦ whitelistSeeds_injective h) id

/-- **A vault at the address of a counter.** The owner of the vault has the key whose bytes are `_counter`, `18`
and zeros. -/
theorem vault_taken_for_counter :
    ∃ x y : Derivation .controller, x = ⟨.vault, (0x127265746e756f635f, 0)⟩ ∧
      y = ⟨.vaultCounter, 18⟩ ∧ seedBytes .controller x = seedBytes .controller y ∧ x ≠ y := by
  refine ⟨⟨.vault, (0x127265746e756f635f, 0)⟩, ⟨.vaultCounter, 18⟩, rfl, rfl, by decide +kernel, ?_⟩
  intro h
  exact absurd (congrArg Sigma.fst h) (by decide)

end OptionsProtocol
