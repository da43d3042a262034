import OptionsProtocol.Library.Codec
import OptionsProtocol.Settler.Accounts
import OptionsProtocol.Settler.Governance
import OptionsProtocol.Settler.Quotes

/-!
# The bytes of the settler's accounts

The settler keeps its records in accounts whose bytes it reads and writes itself, or lets Anchor read and
write: a discriminator of eight bytes that says which kind of record it is, and the fields in the order in
which they are declared. The rest of the development works with the records. Here the two are shown to be
the same in every reachable state: a record always fits its account, to the byte, can be read back from it,
and cannot be read as a record of another kind. So the functions that look at bytes do what their
counterparts do that look at records.
-/

namespace OptionsProtocol

namespace Settler

open Except
open Controller (VaultKey)

/-! ## Records and their formats -/

/-- `VaultMM` as its account has it, with the address of the vault. -/
structure VaultMMData where
  maker : Pubkey
  vault : Pubkey
  otokenMint : Pubkey
  remainingAmount : ℕ

/-- The kinds of account the settler has. -/
inductive Kind where
  | settlerConfig
  | makerState
  | quoteFill
  | makerOtokenBalance
  | vaultMM
  deriving DecidableEq

namespace Kind

/-- What is kept in an account of the kind, besides its bump. -/
def Value : Kind → Type
  | settlerConfig => SettlerConfig
  | makerState => MakerState
  | quoteFill => QuoteFill
  | makerOtokenBalance => MakerOTokenBalance
  | vaultMM => VaultMMData

def space : Kind → ℕ
  | settlerConfig => SETTLER_CONFIG_SPACE
  | makerState => MAKER_STATE_SPACE
  | quoteFill => QUOTE_FILL_SPACE
  | makerOtokenBalance => MAKER_OTOKEN_BALANCE_SPACE
  | vaultMM => VAULT_MM_SPACE

/-- The first eight bytes of the SHA-256 of `account:` and the name of the type. -/
def discriminator : Kind → List UInt8
  | settlerConfig => [35, 8, 234, 3, 4, 19, 224, 190]
  | makerState => [153, 108, 123, 198, 57, 171, 75, 12]
  | quoteFill => [82, 71, 232, 67, 159, 6, 102, 210]
  | makerOtokenBalance => [94, 150, 10, 179, 122, 96, 176, 109]
  | vaultMM => [127, 172, 168, 7, 251, 44, 98, 218]

end Kind

/-- `Pubkey`. -/
def pubkeyCodec : Codec Pubkey := Codec.word (n := 32) (by norm_num)

/-- `SettlerConfig`. -/
def settlerConfigCodec : Codec (SettlerConfig × UInt8) :=
  (pubkeyCodec.pair <| pubkeyCodec.pair <| pubkeyCodec.pair <| (Codec.nat 2).pair <| Codec.bool.pair <|
    (Codec.int 8).pair <| pubkeyCodec.pair Codec.byte).equiv
  { toFun := fun (owner, operator, treasury, protocolFeeBps, paused, escapeDelay, jupiterProgram, bump) ↦
      (⟨owner, operator, treasury, protocolFeeBps, paused, escapeDelay, jupiterProgram⟩, bump)
    invFun := fun (c, bump) ↦ (c.owner, c.operator, c.treasury, c.protocolFeeBps, c.paused, c.escapeDelay,
      c.jupiterProgram, bump)
    left_inv := fun _ ↦ rfl
    right_inv := fun _ ↦ rfl }

/-- `MakerState`. -/
def makerStateCodec : Codec (MakerState × UInt8) :=
  (pubkeyCodec.pair <| (Codec.nat 8).pair <| Codec.bool.pair Codec.byte).equiv
  { toFun := fun (maker, nonce, whitelisted, bump) ↦ (⟨maker, nonce, whitelisted⟩, bump)
    invFun := fun (m, bump) ↦ (m.maker, m.nonce, m.whitelisted, bump)
    left_inv := fun _ ↦ rfl
    right_inv := fun _ ↦ rfl }

/-- `QuoteFill`. -/
def quoteFillCodec : Codec (QuoteFill × UInt8) :=
  ((Codec.nat 8).pair <| Codec.bool.pair Codec.byte).equiv
  { toFun := fun (filledAmount, cancelled, bump) ↦ (⟨filledAmount, cancelled⟩, bump)
    invFun := fun (f, bump) ↦ (f.filledAmount, f.cancelled, bump)
    left_inv := fun _ ↦ rfl
    right_inv := fun _ ↦ rfl }

/-- `MakerOTokenBalance`. -/
def makerOtokenBalanceCodec : Codec (MakerOTokenBalance × UInt8) :=
  (pubkeyCodec.pair <| pubkeyCodec.pair <| (Codec.nat 8).pair Codec.byte).equiv
  { toFun := fun (maker, otokenMint, balance, bump) ↦ (⟨maker, otokenMint, balance⟩, bump)
    invFun := fun (b, bump) ↦ (b.maker, b.otokenMint, b.balance, bump)
    left_inv := fun _ ↦ rfl
    right_inv := fun _ ↦ rfl }

/-- `VaultMM`. -/
def vaultMMCodec : Codec (VaultMMData × UInt8) :=
  (pubkeyCodec.pair <| pubkeyCodec.pair <| pubkeyCodec.pair <| (Codec.nat 8).pair Codec.byte).equiv
  { toFun := fun (maker, vault, otokenMint, remainingAmount, bump) ↦
      (⟨maker, vault, otokenMint, remainingAmount⟩, bump)
    invFun := fun (v, bump) ↦ (v.maker, v.vault, v.otokenMint, v.remainingAmount, bump)
    left_inv := fun _ ↦ rfl
    right_inv := fun _ ↦ rfl }

namespace Kind

/-- The fields of the kind and its bump. -/
def codec : (κ : Kind) → Codec (κ.Value × UInt8)
  | settlerConfig => settlerConfigCodec
  | makerState => makerStateCodec
  | quoteFill => quoteFillCodec
  | makerOtokenBalance => makerOtokenBalanceCodec
  | vaultMM => vaultMMCodec

/-- The bytes of an account. -/
def bytes (κ : Kind) (x : κ.Value × UInt8) : List UInt8 := κ.discriminator ++ κ.codec.encode x

@[simp] theorem length_discriminator (κ : Kind) : κ.discriminator.length = 8 := by
  cases κ <;> rfl

theorem discriminator_injective : Function.Injective discriminator := by
  intro κ κ'
  cases κ <;> cases κ' <;> simp [discriminator]

/-- **Accounts have exactly the space they need.** -/
theorem space_eq (κ : Kind) : κ.space = 8 + κ.codec.width := by
  cases κ <;> rfl

theorem length_bytes (κ : Kind) (x : κ.Value × UInt8) : (κ.bytes x).length = κ.space := by
  rw [bytes, List.length_append, length_discriminator, κ.codec.length_encode, space_eq]

end Kind

/-! ## Reading and writing -/

/-- How an account fails to be read or written. -/
inductive DataError where
  | unauthorized
  | discriminatorNotFound
  | discriminatorMismatch
  | didNotDeserialize
  | didNotSerialize
  deriving DecidableEq

/-- `try_deserialize`. Bytes after the record are ignored. -/
def tryDeserialize (κ : Kind) (data : List UInt8) : Except DataError (κ.Value × UInt8) := do
  require (8 ≤ data.length) DataError.discriminatorNotFound
  require (data.take 8 = κ.discriminator) DataError.discriminatorMismatch
  let (x, _) ← fromOption (κ.codec.decode (data.drop 8)) DataError.didNotDeserialize
  pure x

/-- `read_anchor_account`, for the program `program`. -/
def readAnchorAccount (κ : Kind) (program owner : Pubkey) (data : List UInt8) :
    Except DataError (κ.Value × UInt8) := do
  require (owner = program) DataError.unauthorized
  tryDeserialize κ data

/-- `write_anchor_account`: what the account had beyond the record stays. -/
def writeAnchorAccount (κ : Kind) (data : List UInt8) (x : κ.Value × UInt8) :
    Except DataError (List UInt8) := do
  require ((κ.bytes x).length ≤ data.length) DataError.didNotSerialize
  pure (κ.bytes x ++ data.drop (κ.bytes x).length)

section ReadWrite

variable {κ κ' : Kind} {x : κ.Value × UInt8} {program : Pubkey} {data : List UInt8}

theorem readAnchorAccount_bytes (h : κ.codec.Valid x) :
    readAnchorAccount κ program program (κ.bytes x) = .ok x := by
  have htake : (κ.bytes x).take 8 = κ.discriminator := by
    rw [Kind.bytes, ← κ.length_discriminator, List.take_left]
  have hdrop : (κ.bytes x).drop 8 = κ.codec.encode x := by
    rw [Kind.bytes, ← κ.length_discriminator, List.drop_left]
  have hdecode := κ.codec.decode_encode h []
  rw [List.append_nil] at hdecode
  simp only [readAnchorAccount, tryDeserialize, require_bind_eq_ok, fromOption_bind_eq_ok, hdrop, hdecode]
  refine ⟨trivial, ?_, htake, (x, []), rfl, rfl⟩
  rw [κ.length_bytes, κ.space_eq]
  exact Nat.le_add_right _ _

theorem readAnchorAccount_of_ne (h : κ' ≠ κ) :
    readAnchorAccount κ' program program (κ.bytes x) = .error .discriminatorMismatch := by
  have htake : (κ.bytes x).take 8 = κ.discriminator := by
    rw [Kind.bytes, ← κ.length_discriminator, List.take_left]
  have hne : κ.discriminator ≠ κ'.discriminator := fun heq ↦ h (Kind.discriminator_injective heq).symm
  have hlen : 8 ≤ (κ.bytes x).length := by
    rw [κ.length_bytes, κ.space_eq]
    exact Nat.le_add_right _ _
  rw [readAnchorAccount, tryDeserialize, htake, require, require, require, if_pos rfl, if_pos hlen,
    if_neg hne]
  rfl

theorem writeAnchorAccount_eq (h : data.length = κ.space) :
    writeAnchorAccount κ data x = .ok (κ.bytes x) := by
  have hlen : (κ.bytes x).length = data.length := by rw [κ.length_bytes, h]
  rw [writeAnchorAccount, require_bind_eq_ok]
  exact ⟨hlen.le, by rw [hlen, List.drop_length, List.append_nil]; rfl⟩

/-- **What an account of the right size reads as determines its bytes.** -/
theorem eq_bytes_of_read (h : readAnchorAccount κ program program data = .ok x)
    (hlen : data.length = κ.space) : data = κ.bytes x := by
  simp only [readAnchorAccount, tryDeserialize, require_bind_eq_ok, fromOption_bind_eq_ok] at h
  obtain ⟨-, -, htake, ⟨y, rest⟩, hdecode, hx⟩ := h
  obtain rfl : y = x := pure_eq_ok.mp hx
  obtain ⟨-, hdrop⟩ := κ.codec.eq_of_decode hdecode
  have hrest : rest = [] := by
    have hcount := congrArg List.length hdrop
    rw [List.length_drop, List.length_append, κ.codec.length_encode, hlen, κ.space_eq] at hcount
    exact List.length_eq_zero_iff.mp (by omega)
  rw [hrest, List.append_nil] at hdrop
  rw [Kind.bytes, ← htake, ← hdrop, List.take_append_drop]

end ReadWrite

/-! ## The accounts of a state -/

/-- What the records leave out: the addresses of vaults, and the bumps. -/
structure Layout where
  vaultAddress : VaultKey → Pubkey
  bump : Address → UInt8

namespace State

variable (L : Layout) (s : State)

/-- The record at an address. -/
def record : Address → Option ((κ : Kind) × κ.Value)
  | .settlerConfig => s.config.map fun c : SettlerConfig ↦ ⟨.settlerConfig, c⟩
  | .makerState maker => (s.makerStates.lookup maker).map fun m : MakerState ↦ ⟨.makerState, m⟩
  | .quoteFill k => (s.quoteFills.lookup k).map fun f : QuoteFill ↦ ⟨.quoteFill, f⟩
  | .makerOtokenBalance k => (s.makerOtokenBalances.lookup k).map fun b : MakerOTokenBalance ↦
      ⟨.makerOtokenBalance, b⟩
  | .vaultMM vault => (s.vaultMMs.lookup vault).map fun v : VaultMM ↦
      ⟨.vaultMM, ⟨v.maker, L.vaultAddress v.vault, v.otokenMint, v.remainingAmount⟩⟩
  | .rentReserve | .vault _ | .vaultCounter _ | .wallet _ => none

/-- The bytes at an address; none if the settler has no account there. -/
def data (k : Address) : List UInt8 := (s.record L k).elim [] fun x ↦ x.1.bytes (x.2, L.bump k)

end State

/-- `load_or_init_quote_fill`, going by the bytes. -/
def loadOrInitQuoteFillData (D : Deployment) (rent : ℕ → ℕ) (S : SystemAccounts Address)
    (data : Address → List UInt8) (bump : Address → UInt8) (k : QuoteKey) :
    Except (Error ⊕ DataError) (SystemAccounts Address × (QuoteFill × UInt8)) :=
  if data (.quoteFill k) = [] then do
    let S ← (createProgramPda D rent S (.quoteFill k) QUOTE_FILL_SPACE).mapError Sum.inl
    pure (S, ({ filledAmount := 0, cancelled := false }, bump (.quoteFill k)))
  else do
    let fill ← (readAnchorAccount .quoteFill D.settlerProgram (S.get (.quoteFill k)).owner
      (data (.quoteFill k))).mapError Sum.inr
    pure (S, fill)

/-- `load_or_init_maker_otoken_balance`, going by the bytes. -/
def loadOrInitMakerOtokenBalanceData (D : Deployment) (rent : ℕ → ℕ) (S : SystemAccounts Address)
    (data : Address → List UInt8) (bump : Address → UInt8) (k : BalanceKey) :
    Except (Error ⊕ DataError) (SystemAccounts Address × (MakerOTokenBalance × UInt8)) :=
  if data (.makerOtokenBalance k) = [] then do
    let S ← (createProgramPda D rent S (.makerOtokenBalance k) MAKER_OTOKEN_BALANCE_SPACE).mapError Sum.inl
    pure (S, ({ maker := Pubkey.default, otokenMint := Pubkey.default, balance := 0 },
      bump (.makerOtokenBalance k)))
  else do
    let balance ← (readAnchorAccount .makerOtokenBalance D.settlerProgram
      (S.get (.makerOtokenBalance k)).owner (data (.makerOtokenBalance k))).mapError Sum.inr
    pure (S, balance)

/-- `init_vault_mm_account`, going by the bytes. -/
def initVaultMMAccountData (D : Deployment) (rent : ℕ → ℕ) (S : SystemAccounts Address)
    (data : Address → List UInt8) (k : VaultKey) : Except Error (SystemAccounts Address) := do
  require (data (.vaultMM k) = []) (err .invalidCustodyAccount)
  createProgramPda D rent S (.vaultMM k) VAULT_MM_SPACE

variable {D : Deployment} {T : TokenProgram} {rent : ℕ → ℕ} {verifies : Ed25519.Signed → Bool}
  {L : Layout} {s s' s₀ : State} {l : Label} {tr : List (Transition State Label)} {k : Address} {κ : Kind}
  {v : κ.Value}

theorem space_of_record (h : s.record L k = some ⟨κ, v⟩) : k.space = κ.space := by
  cases k with
  | rentReserve | vault _ | vaultCounter _ | wallet _ => exact absurd h (by simp [State.record])
  | _ =>
    obtain ⟨_, -, heq⟩ := Option.map_eq_some_iff.mp h
    cases heq
    rfl

theorem isSettlers_of_record (h : s.record L k = some ⟨κ, v⟩) : k.IsSettlers := by
  cases k <;> trivial

theorem inUse_of_record (h : s.record L k = some ⟨κ, v⟩) : s.inUse k = true := by
  cases k with
  | rentReserve | vault _ | vaultCounter _ | wallet _ => exact absurd h (by simp [State.record])
  | _ =>
    obtain ⟨_, hx, -⟩ := Option.map_eq_some_iff.mp h
    exact Option.isSome_of_eq_some hx

theorem State.data_eq (h : s.record L k = some ⟨κ, v⟩) : s.data L k = κ.bytes (v, L.bump k) := by
  rw [State.data, h, Option.elim_some]

theorem State.data_ne_nil (h : s.record L k = some ⟨κ, v⟩) : s.data L k ≠ [] := by
  intro hnil
  have hlen := κ.length_bytes (v, L.bump k)
  rw [← State.data_eq h, hnil, κ.space_eq, List.length_nil] at hlen
  omega

/-! ## Records fit -/

/-- The numbers of a record fit their fields. -/
structure State.Fits (s : State) : Prop where
  fee : ∀ c, s.config = some c → c.protocolFeeBps ≤ MAX_FEE_BPS
  delay : ∀ c, s.config = some c → MIN_ESCAPE_DELAY ≤ c.escapeDelay ∧ c.escapeDelay < 2 ^ 63
  nonce : ∀ m x, s.makerStates.lookup m = some x → x.nonce < 2 ^ 64
  filled : ∀ q x, s.quoteFills.lookup q = some x → x.filledAmount < 2 ^ 64
  balance : ∀ b x, s.makerOtokenBalances.lookup b = some x → x.balance < 2 ^ 64
  remaining : ∀ w x, s.vaultMMs.lookup w = some x → x.remainingAmount < 2 ^ 64

theorem State.Fits.valid (h : s.Fits) (hv : s.record L k = some ⟨κ, v⟩) (bump : UInt8) :
    κ.codec.Valid (v, bump) := by
  cases k with
  | rentReserve | vault _ | vaultCounter _ | wallet _ => exact absurd hv (by simp [State.record])
  | settlerConfig =>
    obtain ⟨c, hc, heq⟩ := Option.map_eq_some_iff.mp hv
    cases heq
    have hfee : c.protocolFeeBps < 256 ^ 2 := (h.fee c hc).trans_lt (by decide)
    obtain ⟨hlow, hup⟩ := h.delay c hc
    have hdelay : -(((256 ^ 8 : ℕ) : ℤ) / 2) ≤ c.escapeDelay ∧
        c.escapeDelay < (((256 ^ 8 : ℕ) : ℤ) + 1) / 2 := by
      rw [MIN_ESCAPE_DELAY] at hlow
      norm_num
      omega
    exact ⟨trivial, trivial, trivial, hfee, trivial, hdelay, trivial, trivial⟩
  | makerState m =>
    obtain ⟨x, hx, heq⟩ := Option.map_eq_some_iff.mp hv
    cases heq
    exact ⟨trivial, h.nonce m x hx, trivial, trivial⟩
  | quoteFill q =>
    obtain ⟨x, hx, heq⟩ := Option.map_eq_some_iff.mp hv
    cases heq
    exact ⟨h.filled q x hx, trivial, trivial⟩
  | makerOtokenBalance b =>
    obtain ⟨x, hx, heq⟩ := Option.map_eq_some_iff.mp hv
    cases heq
    exact ⟨trivial, trivial, h.balance b x hx, trivial⟩
  | vaultMM w =>
    obtain ⟨x, hx, heq⟩ := Option.map_eq_some_iff.mp hv
    cases heq
    exact ⟨trivial, trivial, trivial, h.remaining w x hx, trivial⟩

/-- The delay passed to the instruction is an `i64`; only a floor of it is checked. -/
def Instruction.Typed : Instruction → Prop
  | .initializeConfig _ _ _ _ escapeDelay _ => escapeDelay < 2 ^ 63
  | .setEscapeDelay _ escapeDelay => escapeDelay < 2 ^ 63
  | _ => True

@[inherit_doc Instruction.Typed]
def Label.Typed : Label → Prop
  | .call ix => ix.Typed
  | _ => True

instance (ix : Instruction) : Decidable ix.Typed := by
  unfold Instruction.Typed
  split <;> infer_instance

instance (l : Label) : Decidable l.Typed := by
  unfold Label.Typed
  split <;> infer_instance

theorem nonce_lt_of_incrementMakerNonce {maker : Pubkey} {state : MakerState}
    (h : incrementMakerNonce maker s = .ok s') (hstate : s.makerStates.lookup maker = some state) :
    state.nonce + 1 < 2 ^ 64 := by
  simp only [incrementMakerNonce, loadMakerState, fromOption_bind_eq_ok, require_bind_eq_ok,
    Checked.add_eq_some] at h
  obtain ⟨state', hstate', -, _, ⟨-, hlt⟩, -⟩ := h
  obtain rfl := Option.some.inj (hstate.symm.trans hstate')
  exact hlt

theorem custody_lt_of_executeOrder {ctx : ExecuteOrder} {ord : Order} {tx : Transaction} {i : ℕ}
    (h : executeOrder D T rent ctx ord tx i s = .ok s') :
    s.custody ctx.balanceKey + ord.amount.toNat < 2 ^ 64 := by
  simp only [executeOrder, loadConfig, loadMakerState, loadMint, loadTokenAccount,
    fromOption_bind_eq_ok, require_bind_eq_ok] at h
  obtain ⟨_, -, -, _, -, _, -, _, -, -, _, -, -, _, -, _, -, _, -, _, -, _, -, _, -, -, -, -, -, -, -, -, -,
    -, -, -, -, -, -, -, -, -, h⟩ := h
  obtain ⟨_, -, h⟩ := bind_eq_ok.mp h
  obtain ⟨_, -, h⟩ := bind_eq_ok.mp h
  obtain ⟨-, h⟩ := require_bind_eq_ok.mp h
  obtain ⟨⟨_, _⟩, -, h⟩ := bind_eq_ok.mp h
  obtain ⟨_, -, h⟩ := bind_eq_ok.mp h
  obtain ⟨⟨_, _, _⟩, -, h⟩ := bind_eq_ok.mp h
  obtain ⟨_, -, h⟩ := fromOption_bind_eq_ok.mp h
  obtain ⟨_, -, h⟩ := bind_eq_ok.mp h
  obtain ⟨_, -, h⟩ := lift_bind_eq_ok.mp h
  obtain ⟨_, -, h⟩ := lift_bind_eq_ok.mp h
  obtain ⟨⟨_, balance⟩, hload, h⟩ := bind_eq_ok.mp h
  have hloaded := loadOrInitMakerOtokenBalance_eq hload
  have hcustody : balance.balance = s.custody ctx.balanceKey := hloaded
  simp only [require_bind_eq_ok, fromOption_bind_eq_ok, Checked.add_eq_some] at h
  obtain ⟨-, -, _, ⟨-, hlt⟩, -⟩ := h
  rw [← hcustody]
  split at hlt <;> exact hlt

theorem State.Fits.of_exec {ix : Instruction} (h : s.Fits) (hx : exec D T rent ix s = .ok s')
    (ht : ix.Typed) : s'.Fits := by
  have hconfig : ∀ {c c' : SettlerConfig}, s.config = some c → c'.protocolFeeBps = c.protocolFeeBps →
      c'.escapeDelay = c.escapeDelay → State.Fits { s with config := some c' } := by
    intro c c' hc hfee hdelay
    refine { h with fee := fun d hd ↦ ?_, delay := fun d hd ↦ ?_ }
    · rw [← Option.some.inj hd, hfee]
      exact h.fee c hc
    · rw [← Option.some.inj hd, hdelay]
      exact h.delay c hc
  cases ix with
  | initializeConfig payer operator treasury fee delay jupiter =>
    simp only [exec, initializeConfig, require_bind_eq_ok, fromOption_bind_eq_ok, pure_eq_ok] at hx
    obtain ⟨-, system, -, -, -, hfee, hdelay, rfl⟩ := hx
    refine { h with fee := fun c hc ↦ ?_, delay := fun c hc ↦ ?_ }
    · obtain rfl := Option.some.inj hc
      exact hfee
    · obtain rfl := Option.some.inj hc
      exact ⟨hdelay, ht⟩
  | setTreasury owner treasury =>
    simp only [exec, setTreasury, ownerConfig_bind_eq_ok, require_bind_eq_ok, pure_eq_ok] at hx
    obtain ⟨c, hc, -, -, rfl⟩ := hx
    exact hconfig hc rfl rfl
  | setOperator owner operator =>
    simp only [exec, setOperator, ownerConfig_bind_eq_ok, require_bind_eq_ok, pure_eq_ok] at hx
    obtain ⟨c, hc, -, -, rfl⟩ := hx
    exact hconfig hc rfl rfl
  | pause owner paused =>
    simp only [exec, pause, ownerConfig_bind_eq_ok, pure_eq_ok] at hx
    obtain ⟨c, hc, -, rfl⟩ := hx
    exact hconfig hc rfl rfl
  | setJupiterProgram owner jupiter =>
    simp only [exec, setJupiterProgram, ownerConfig_bind_eq_ok, require_bind_eq_ok, pure_eq_ok] at hx
    obtain ⟨c, hc, -, -, rfl⟩ := hx
    exact hconfig hc rfl rfl
  | setProtocolFee owner fee =>
    simp only [exec, setProtocolFee, ownerConfig_bind_eq_ok, require_bind_eq_ok, pure_eq_ok] at hx
    obtain ⟨c, hc, -, hfee, rfl⟩ := hx
    refine { h with fee := fun d hd ↦ ?_, delay := fun d hd ↦ ?_ }
    · obtain rfl := Option.some.inj hd
      exact hfee
    · obtain rfl := Option.some.inj hd
      exact h.delay c hc
  | setEscapeDelay owner delay =>
    simp only [exec, setEscapeDelay, ownerConfig_bind_eq_ok, require_bind_eq_ok, pure_eq_ok] at hx
    obtain ⟨c, hc, -, hdelay, rfl⟩ := hx
    refine { h with fee := fun d hd ↦ ?_, delay := fun d hd ↦ ?_ }
    · obtain rfl := Option.some.inj hd
      exact h.fee c hc
    · obtain rfl := Option.some.inj hd
      exact ⟨hdelay, ht⟩
  | withdrawRentReserve owner recipient lamports =>
    simp only [exec, withdrawRentReserve, ownerConfig_bind_eq_ok, require_bind_eq_ok,
      fromOption_bind_eq_ok, pure_eq_ok] at hx
    obtain ⟨c, -, -, -, -, -, _, -, rfl⟩ := hx
    exact ⟨h.1, h.2, h.3, h.4, h.5, h.6⟩
  | initVaultCounter owner vaultCounter =>
    obtain ⟨_, _, -, -, rfl⟩ := initVaultCounter_effect hx
    exact ⟨h.1, h.2, h.3, h.4, h.5, h.6⟩
  | settleVault operator ctx =>
    obtain ⟨-, _, -, rfl⟩ := settleVault_eq_ok.mp hx
    exact ⟨h.1, h.2, h.3, h.4, h.5, h.6⟩
  | whitelistMaker owner maker whitelisted =>
    obtain ⟨system, -, rfl⟩ := whitelistMaker_effect hx
    refine { h with nonce := Store.forall_lookup_insert h.nonce ?_ }
    rw [MakerState.listed]
    split
    · exact Nat.two_pow_pos 64
    · cases hm : s.makerStates.lookup maker with
      | none => exact Nat.two_pow_pos 64
      | some state => exact h.nonce maker state hm
  | incrementMakerNonce maker =>
    obtain ⟨state, hstate, rfl⟩ := incrementMakerNonce_effect hx
    exact { h with nonce := Store.forall_lookup_insert h.nonce (nonce_lt_of_incrementMakerNonce hx hstate) }
  | cancelQuote maker quoteId =>
    obtain ⟨system, -, rfl⟩ := cancelQuote_effect hx
    refine { h with filled := Store.forall_lookup_insert h.filled ?_ }
    rw [State.filledAmount]
    cases hq : s.quoteFills.lookup ⟨maker, s.nonceOf maker, quoteId.toNat⟩ with
    | none => exact Nat.two_pow_pos 64
    | some fill => exact h.filled _ fill hq
  | executeOrder ctx ord tx i =>
    obtain ⟨r, he⟩ := executeOrder_effect hx
    have hbalance := custody_lt_of_executeOrder hx
    have hfilled := he.filled_le.trans_lt (UInt64.toNat_lt ord.maxAmount)
    rw [he.state_eq]
    exact ⟨h.1, h.2, h.3, Store.forall_lookup_insert h.filled hfilled,
      Store.forall_lookup_insert h.balance hbalance,
      Store.forall_lookup_insert h.remaining (UInt64.toNat_lt ord.amount)⟩
  | emergencyWithdraw ctx =>
    obtain ⟨_, vaultMM, balance, _, _, he⟩ := emergencyWithdraw_effect hx
    have hbalance := h.balance _ balance he.balance_eq
    rw [he.state_eq]
    exact ⟨h.1, h.2, h.3, h.4, Store.forall_lookup_insert h.balance ((Nat.sub_le _ _).trans_lt hbalance),
      Store.forall_lookup_insert h.remaining (Nat.two_pow_pos 64)⟩
  | redeemForMM ctx amount =>
    obtain ⟨acc, _, _, _, he⟩ := redeemForMM_effect hx
    have hbalance := h.balance _ acc.balance he.loaded.balance_eq
    rw [he.state_eq]
    exact ⟨h.1, h.2, h.3, h.4, Store.forall_lookup_insert h.balance ((Nat.sub_le _ _).trans_lt hbalance),
      h.6⟩
  | mmSelfRedeem ctx amount =>
    obtain ⟨acc, _, _, _, he⟩ := mmSelfRedeem_effect hx
    have hbalance := h.balance _ acc.balance he.loaded.balance_eq
    rw [he.state_eq]
    exact ⟨h.1, h.2, h.3, h.4, Store.forall_lookup_insert h.balance ((Nat.sub_le _ _).trans_lt hbalance),
      h.6⟩
  | physicalRedeem ctx amount most swap =>
    obtain ⟨r, he⟩ := physicalRedeem_effect hx
    have hbalance := h.balance _ r.acc.balance he.loaded.balance_eq
    have hremaining := h.remaining _ r.vaultMM he.vaultMM_eq
    rw [he.state_eq]
    exact ⟨h.1, h.2, h.3, h.4, Store.forall_lookup_insert h.balance ((Nat.sub_le _ _).trans_lt hbalance),
      Store.forall_lookup_insert h.remaining ((Nat.sub_le _ _).trans_lt hremaining)⟩

theorem fits_of_run (hrun : Run (Step D T rent verifies) s₀ tr s) (h₀ : Initial D s₀)
    (ht : ∀ t ∈ tr, t.label.Typed) : s.Fits := by
  refine Run.invariant_of (I := State.Fits) (Q := fun t ↦ t.label.Typed) ?_ ?_ hrun ht
  · constructor <;> simp [h₀.config, h₀.makerStates, h₀.quoteFills, h₀.makerOtokenBalances, h₀.vaultMMs]
  · intro u l u' hu hs htyped
    cases hs with
    | call _ _ hx => exact hu.of_exec hx htyped
    | controller _ _ _ => exact ⟨hu.1, hu.2, hu.3, hu.4, hu.5, hu.6⟩
    | lamports _ => exact ⟨hu.1, hu.2, hu.3, hu.4, hu.5, hu.6⟩

/-! ## Bytes and records agree -/

theorem State.Shaped.owner_eq (h : s.Shaped D) (hv : s.record L k = some ⟨κ, v⟩) :
    (s.system.get k).owner = D.settlerProgram := by
  have hshape := h k (isSettlers_of_record hv)
  rw [inUse_of_record hv, if_pos rfl] at hshape
  exact congrArg Prod.fst hshape

theorem read_record (hs : s.Shaped D) (hf : s.Fits) (hv : s.record L k = some ⟨κ, v⟩) :
    readAnchorAccount κ D.settlerProgram (s.system.get k).owner (s.data L k) = .ok (v, L.bump k) := by
  rw [hs.owner_eq hv, State.data_eq hv]
  exact readAnchorAccount_bytes (hf.valid hv _)

theorem State.data_of_record_none (h : s.record L k = none) : s.data L k = [] := by
  rw [State.data, h, Option.elim_none]

theorem loadOrInitQuoteFillData_eq (hs : s.Shaped D) (hf : s.Fits) (q : QuoteKey) :
    loadOrInitQuoteFillData D rent s.system (s.data L) L.bump q =
      ((loadOrInitQuoteFill D rent s q).map fun x ↦ (x.1, x.2, L.bump (.quoteFill q))).mapError
        Sum.inl := by
  rw [loadOrInitQuoteFillData, loadOrInitQuoteFill]
  cases hq : s.quoteFills.lookup q with
  | none =>
    have hrecord : s.record L (.quoteFill q) = none := by rw [State.record, hq, Option.map_none]
    rw [if_pos (State.data_of_record_none hrecord)]
    cases createProgramPda D rent s.system (.quoteFill q) QUOTE_FILL_SPACE <;> rfl
  | some fill =>
    have hrecord : s.record L (.quoteFill q) = some ⟨.quoteFill, fill⟩ := by
      rw [State.record, hq, Option.map_some]
    rw [if_neg (State.data_ne_nil hrecord), read_record hs hf hrecord]
    rfl

theorem loadOrInitMakerOtokenBalanceData_eq (hs : s.Shaped D) (hf : s.Fits) (b : BalanceKey) :
    loadOrInitMakerOtokenBalanceData D rent s.system (s.data L) L.bump b =
      ((loadOrInitMakerOtokenBalance D rent s b).map fun x ↦
        (x.1, x.2, L.bump (.makerOtokenBalance b))).mapError Sum.inl := by
  rw [loadOrInitMakerOtokenBalanceData, loadOrInitMakerOtokenBalance]
  cases hb : s.makerOtokenBalances.lookup b with
  | none =>
    have hrecord : s.record L (.makerOtokenBalance b) = none := by rw [State.record, hb, Option.map_none]
    rw [if_pos (State.data_of_record_none hrecord)]
    cases createProgramPda D rent s.system (.makerOtokenBalance b) MAKER_OTOKEN_BALANCE_SPACE <;> rfl
  | some balance =>
    have hrecord : s.record L (.makerOtokenBalance b) = some ⟨.makerOtokenBalance, balance⟩ := by
      rw [State.record, hb, Option.map_some]
    rw [if_neg (State.data_ne_nil hrecord), read_record hs hf hrecord]
    rfl

theorem initVaultMMAccountData_eq (w : VaultKey) :
    initVaultMMAccountData D rent s.system (s.data L) w = initVaultMMAccount D rent s w := by
  rw [initVaultMMAccountData, initVaultMMAccount]
  cases hw : s.vaultMMs.lookup w with
  | none =>
    have hrecord : s.record L (.vaultMM w) = none := by rw [State.record, hw, Option.map_none]
    simp only [State.data_of_record_none hrecord]
  | some x =>
    have hrecord : s.record L (.vaultMM w) = some ⟨.vaultMM, ⟨x.maker, L.vaultAddress x.vault,
        x.otokenMint, x.remainingAmount⟩⟩ := by
      rw [State.record, hw, Option.map_some]
    have hne := State.data_ne_nil hrecord
    simp only [hne, reduceCtorEq]

/-- **The bytes of a reachable state are its records.** In every state of every run, a record takes up all
of its account; it is read back from there, with its bump; no other kind of record can be read from there,
and only these bytes read as it; writing it leaves these bytes whatever was there before. What the settler
does by looking at the bytes it would do by looking at the records. -/
theorem accounts_stored (hrun : Run (Step D T rent verifies) s₀ tr s) (h₀ : Initial D s₀)
    (ht : ∀ t ∈ tr, t.label.Typed) (L : Layout) :
    (∀ k κ v, s.record L k = some ⟨κ, v⟩ →
      s.system.shape k = (D.settlerProgram, (s.data L k).length) ∧
      readAnchorAccount κ D.settlerProgram (s.system.get k).owner (s.data L k) = .ok (v, L.bump k) ∧
      (∀ κ' ≠ κ, readAnchorAccount κ' D.settlerProgram (s.system.get k).owner (s.data L k) =
        .error .discriminatorMismatch) ∧
      ∀ bs, bs.length = κ.space → writeAnchorAccount κ bs (v, L.bump k) = .ok (s.data L k) ∧
        (readAnchorAccount κ D.settlerProgram D.settlerProgram bs = .ok (v, L.bump k) →
          bs = s.data L k)) ∧
    (∀ q, loadOrInitQuoteFillData D rent s.system (s.data L) L.bump q =
      ((loadOrInitQuoteFill D rent s q).map fun x ↦ (x.1, x.2, L.bump (.quoteFill q))).mapError
        Sum.inl) ∧
    (∀ b, loadOrInitMakerOtokenBalanceData D rent s.system (s.data L) L.bump b =
      ((loadOrInitMakerOtokenBalance D rent s b).map fun x ↦
        (x.1, x.2, L.bump (.makerOtokenBalance b))).mapError Sum.inl) ∧
    ∀ w, initVaultMMAccountData D rent s.system (s.data L) w = initVaultMMAccount D rent s w := by
  have hs := shaped_of_run hrun h₀
  have hf := fits_of_run hrun h₀ ht
  refine ⟨fun k κ v hv ↦ ⟨?_, read_record hs hf hv, fun κ' hne ↦ ?_, fun bs hbs ↦ ⟨?_, fun hread ↦ ?_⟩⟩,
    loadOrInitQuoteFillData_eq hs hf, loadOrInitMakerOtokenBalanceData_eq hs hf,
    initVaultMMAccountData_eq⟩
  · rw [hs k (isSettlers_of_record hv), inUse_of_record hv, if_pos rfl, State.data_eq hv, κ.length_bytes,
      space_of_record hv]
  · rw [hs.owner_eq hv, State.data_eq hv]
    exact readAnchorAccount_of_ne hne
  · rw [State.data_eq hv]
    exact writeAnchorAccount_eq hbs
  · rw [State.data_eq hv]
    exact eq_bytes_of_read hread hbs

theorem accounts_stored_sample :
    readAnchorAccount .quoteFill sampleDeployment.settlerProgram
      ((sampleRun sampleFilled).system.get (.quoteFill ⟨otherKey, 0, 1⟩)).owner
      ((sampleRun sampleFilled).data ⟨VaultKey.owner, fun _ ↦ 255⟩ (.quoteFill ⟨otherKey, 0, 1⟩)) =
        .ok (⟨2000000, false⟩, 255) := by
  have hrun : Run (Step sampleDeployment splToken id sampleScheme) sampleState
      (sampleTrace sampleFilled) (sampleRun sampleFilled) :=
    sampleRun_run (by decide +kernel) (by decide +kernel)
  have hfill : (sampleRun sampleFilled).quoteFills.lookup ⟨otherKey, 0, 1⟩ = some ⟨2000000, false⟩ := by
    decide +kernel
  have hrecord : (sampleRun sampleFilled).record ⟨VaultKey.owner, fun _ ↦ 255⟩
      (.quoteFill ⟨otherKey, 0, 1⟩) = some ⟨.quoteFill, (⟨2000000, false⟩ : QuoteFill)⟩ := by
    rw [State.record, hfill, Option.map_some]
  exact ((accounts_stored hrun sampleState_initial (by decide +kernel) _).1 _ _ _ hrecord).2.1

end Settler

end OptionsProtocol
