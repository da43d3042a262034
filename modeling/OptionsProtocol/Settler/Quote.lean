import OptionsProtocol.Controller.Collateral
import OptionsProtocol.Runtime.Ed25519

/-!
# Signed quotes

A maker never signs the transaction that fills its quote. It signs the quote message, the user puts
that signature into an instruction of the Ed25519 precompile, and the settler looks for such an
instruction before its own.

The search parses the first entry of each precompile instruction by hand and compares the public
key and the message it finds *in the data of that instruction*. It does not look at the entry's
instruction indices, and so not at the bytes the precompile verified when they name another
instruction.
-/

namespace OptionsProtocol

/-- The settler's error codes. -/
inductive SettlerError where
  | zeroAddress
  | feeTooHigh
  | paused
  | makerNotWhitelisted
  | invalidNonce
  | quoteExpired
  | quoteCancelled
  | quoteAlreadyCancelled
  | quoteExceeded
  | zeroAmount
  | mathOverflow
  | invalidEd25519Instruction
  | invalidEd25519Data
  | invalidSignature
  | invalidTreasury
  | invalidCustodyAccount
  | invalidCollateralMint
  | invalidPremiumMint
  | unauthorized
  | escapeDelayTooShort
  | escapeNotReady
  | insufficientMMBalance
  | optionNotExpired
  | expiryPriceNotSet
  | optionNotITM
  | invalidJupiterProgram
  | vaultNotSettled
  | invalidContraMint
  | unsupportedDecimals
  | insufficientSwapOutput
  | unexpectedSwapDestination
  | redeemReturnedZero
  | excessCollateralUsed
  | insufficientRentReserve
  | amountTooSmall
  deriving DecidableEq, Repr

namespace Settler

open Except Bytes

/-- A settler instruction fails with its own codes or with those of the controller it calls. -/
abbrev Error := Failure (SettlerError ⊕ ControllerError)

/-- One of the settler's own error codes. -/
abbrev err (e : SettlerError) : Error := .error (.inl e)

/-! ## The message -/

/-- `i64::to_le_bytes()`. -/
def i64Bytes (v : ℤ) : List UInt8 := leBytes 8 (v % 2 ^ 64).toNat

/-- `build_quote_message`. -/
def buildQuoteMessage (otokenMint : Pubkey) (bidPrice : ℕ) (deadline : ℤ)
    (quoteId maxAmount makerNonce : ℕ) (premiumMint : Pubkey) : List UInt8 :=
  otokenMint.toBytes ++ (premiumMint.toBytes ++ (leBytes 8 bidPrice ++ (i64Bytes deadline ++
    (leBytes 8 quoteId ++ (leBytes 8 maxAmount ++ leBytes 8 makerNonce)))))

theorem i64Bytes_inj {v w : ℤ} (hv : -2 ^ 63 ≤ v ∧ v < 2 ^ 63) (hw : -2 ^ 63 ≤ w ∧ w < 2 ^ 63)
    (h : i64Bytes v = i64Bytes w) : v = w := by
  have hlt : ∀ x : ℤ, (x % 2 ^ 64).toNat < 256 ^ 8 := fun x ↦ by omega
  have heq := leBytes_inj (hlt v) (hlt w) h
  omega

/-- **The message determines the quote**: its fields have fixed widths. -/
theorem buildQuoteMessage_inj {o o' p p' : Pubkey} {b b' q q' x x' n n' : ℕ} {d d' : ℤ}
    (hb : b < 2 ^ 64 ∧ b' < 2 ^ 64) (hd : -2 ^ 63 ≤ d ∧ d < 2 ^ 63) (hd' : -2 ^ 63 ≤ d' ∧ d' < 2 ^ 63)
    (hq : q < 2 ^ 64 ∧ q' < 2 ^ 64) (hx : x < 2 ^ 64 ∧ x' < 2 ^ 64) (hn : n < 2 ^ 64 ∧ n' < 2 ^ 64)
    (h : buildQuoteMessage o b d q x n p = buildQuoteMessage o' b' d' q' x' n' p') :
    o = o' ∧ p = p' ∧ b = b' ∧ d = d' ∧ q = q' ∧ x = x' ∧ n = n' := by
  simp only [buildQuoteMessage] at h
  obtain ⟨ho, h⟩ := List.append_inj h (by simp)
  obtain ⟨hp, h⟩ := List.append_inj h (by simp)
  obtain ⟨hb', h⟩ := List.append_inj h (by simp)
  obtain ⟨hdd, h⟩ := List.append_inj h (by simp [i64Bytes])
  obtain ⟨hq', h⟩ := List.append_inj h (by simp)
  obtain ⟨hx', hn'⟩ := List.append_inj h (by simp)
  have hfits : ∀ {v w : ℕ}, v < 2 ^ 64 ∧ w < 2 ^ 64 → leBytes 8 v = leBytes 8 w → v = w :=
    fun hvw he ↦ leBytes_inj (by omega) (by omega) he
  exact ⟨Pubkey.toBytes_inj ho, Pubkey.toBytes_inj hp, hfits hb hb', i64Bytes_inj hd hd' hdd,
    hfits hq hq', hfits hx hx', hfits hn hn'⟩

/-! ## The search -/

/-- `ed25519_instruction_matches`. Indexing that is out of range aborts. -/
def ed25519InstructionMatches (data pubkey message : List UInt8) : Except Error Bool := do
  require (16 ≤ data.length) (err .invalidEd25519Data)
  let count ← fromOption data[0]? .panic
  require (count = 1) (err .invalidEd25519Data)
  let pkOff ← fromOption (readU16 data 6) .panic
  let msgOff ← fromOption (readU16 data 10) .panic
  let msgSz ← fromOption (readU16 data 12) .panic
  require (pkOff + 32 ≤ data.length) (err .invalidEd25519Data)
  require (msgOff + msgSz ≤ data.length) (err .invalidEd25519Data)
  let pk ← fromOption (slice data pkOff (pkOff + 32)) .panic
  let msg ← fromOption (slice data msgOff (msgOff + msgSz)) .panic
  pure (decide (pk = pubkey) && decide (msgSz = message.length) && decide (msg = message))

/-- `unwrap_or(false)`: errors count as no match, aborts stay aborts. -/
def unwrapOrFalse : Except Error Bool → Except Error Bool
  | .error .panic => .error .panic
  | .error _ => .ok false
  | .ok b => .ok b

/-- The loop of `verify_ed25519_signature` over the instruction indices still to be visited. -/
def searchEd25519 (tx : Transaction) (pubkey message : List UInt8) :
    List ℕ → Bool → Except Error Unit
  | [], sawEd25519 =>
    if sawEd25519 then .error (err .invalidSignature)
    else .error (err .invalidEd25519Instruction)
  | i :: is, sawEd25519 => do
    let ix ← fromOption tx[i]? (err .invalidEd25519Instruction)
    if ix.programId = Ed25519.ID then
      let found ← unwrapOrFalse (ed25519InstructionMatches ix.data pubkey message)
      if found then pure () else searchEd25519 tx pubkey message is true
    else searchEd25519 tx pubkey message is sawEd25519

/-- `verify_ed25519_signature`, at instruction `currentIndex` of the transaction. -/
def verifyEd25519Signature (tx : Transaction) (currentIndex : ℕ) (pubkey message : List UInt8) :
    Except Error Unit :=
  searchEd25519 tx pubkey message (List.range currentIndex) false

/-! ## What the search finds -/

/-- The first entry of an instruction with data `data` has its public key and its message, read from
`data` itself, equal to the given ones. -/
def Carries (data pubkey message : List UInt8) : Prop :=
  16 ≤ data.length ∧ data[0]? = some 1 ∧ ∃ pkOff msgOff,
    readU16 data 6 = some pkOff ∧ readU16 data 10 = some msgOff ∧
    readU16 data 12 = some message.length ∧ slice data pkOff (pkOff + 32) = some pubkey ∧
    slice data msgOff (msgOff + message.length) = some message

variable {tx : Transaction} {data pubkey message : List UInt8}

theorem ed25519InstructionMatches_eq_true :
    ed25519InstructionMatches data pubkey message = .ok true ↔ Carries data pubkey message := by
  simp only [ed25519InstructionMatches, require_bind_eq_ok, fromOption_bind_eq_ok, pure_eq_ok,
    Bool.and_eq_true, decide_eq_true_eq, Carries]
  constructor
  · rintro ⟨hlen, _, h0, rfl, pkOff, hpk, msgOff, hmsg, msgSz, hsz, -, -, _, hpk', _, hmsg',
      ⟨rfl, rfl⟩, rfl⟩
    exact ⟨hlen, h0, pkOff, msgOff, hpk, hmsg, hsz, hpk', hmsg'⟩
  · rintro ⟨hlen, h0, pkOff, msgOff, hpk, hmsg, hsz, hpk', hmsg'⟩
    exact ⟨hlen, 1, h0, rfl, pkOff, hpk, msgOff, hmsg, message.length, hsz,
      (slice_eq_some.mp hpk').1.2, (slice_eq_some.mp hmsg').1.2, pubkey, hpk', message, hmsg',
      ⟨rfl, rfl⟩, rfl⟩

/-- **The parser reads nothing out of range**: whatever the bytes, it refuses them or says whether they
match. -/
theorem ed25519InstructionMatches_failsOnly :
    FailsOnly (· = err .invalidEd25519Data) (ed25519InstructionMatches data pubkey message) := by
  refine FailsOnly.require_bind rfl fun hlen ↦ ?_
  refine FailsOnly.fromOption_bind_of_some (List.getElem?_eq_getElem (by omega)) ?_
  refine FailsOnly.require_bind rfl fun _ ↦ ?_
  obtain ⟨pkOff, hpkOff⟩ := exists_readU16 (show 6 + 2 ≤ data.length by omega)
  refine FailsOnly.fromOption_bind_of_some hpkOff ?_
  obtain ⟨msgOff, hmsgOff⟩ := exists_readU16 (show 10 + 2 ≤ data.length by omega)
  refine FailsOnly.fromOption_bind_of_some hmsgOff ?_
  obtain ⟨msgSz, hmsgSz⟩ := exists_readU16 (show 12 + 2 ≤ data.length by omega)
  refine FailsOnly.fromOption_bind_of_some hmsgSz ?_
  refine FailsOnly.require_bind rfl fun hpk ↦ FailsOnly.require_bind rfl fun hmsg ↦ ?_
  obtain ⟨cs, hcs, -⟩ := exists_slice (Nat.le_add_right pkOff 32) hpk
  obtain ⟨ds, hds, -⟩ := exists_slice (Nat.le_add_right msgOff msgSz) hmsg
  exact FailsOnly.fromOption_bind_of_some hcs (FailsOnly.fromOption_bind_of_some hds (FailsOnly.pure _))

theorem unwrapOrFalse_matches [Decidable (Carries data pubkey message)] :
    unwrapOrFalse (ed25519InstructionMatches data pubkey message) =
      .ok (decide (Carries data pubkey message)) := by
  have htrue : ed25519InstructionMatches data pubkey message = .ok true ↔
      Carries data pubkey message := ed25519InstructionMatches_eq_true
  have hfails : FailsOnly (· = err .invalidEd25519Data)
      (ed25519InstructionMatches data pubkey message) := ed25519InstructionMatches_failsOnly
  cases h : ed25519InstructionMatches data pubkey message with
  | ok b =>
    rw [h, Except.ok.injEq] at htrue
    cases b <;> simp_all [unwrapOrFalse]
  | error e =>
    obtain rfl := hfails e h
    rw [h] at htrue
    have hc : ¬Carries data pubkey message := fun hc ↦ by simpa using htrue.mpr hc
    rw [decide_eq_false hc]
    rfl

/-- Instruction `i` of the transaction is a precompile instruction that carries the key and the
message in its own data. -/
def CarriedAt (tx : Transaction) (pubkey message : List UInt8) (i : ℕ) : Prop :=
  ∃ ix, tx[i]? = some ix ∧ ix.programId = Ed25519.ID ∧ Carries ix.data pubkey message

theorem searchEd25519_sound {is : List ℕ} {saw : Bool}
    (h : searchEd25519 tx pubkey message is saw = .ok ()) :
    ∃ i ∈ is, CarriedAt tx pubkey message i := by
  classical
  induction is generalizing saw with
  | nil => cases saw <;> simp [searchEd25519] at h
  | cons i is ih =>
    obtain ⟨ix, hix, h⟩ := fromOption_bind_eq_ok.mp h
    by_cases hid : ix.programId = Ed25519.ID
    · rw [if_pos hid, unwrapOrFalse_matches] at h
      by_cases hc : Carries ix.data pubkey message
      · exact ⟨i, List.mem_cons_self, ix, hix, hid, hc⟩
      · rw [decide_eq_false hc] at h
        obtain ⟨j, hj, hcj⟩ := ih h
        exact ⟨j, List.mem_cons_of_mem _ hj, hcj⟩
    · rw [if_neg hid] at h
      obtain ⟨j, hj, hcj⟩ := ih h
      exact ⟨j, List.mem_cons_of_mem _ hj, hcj⟩

/-- The loop stops at the first match, whatever it has passed on the way and whatever follows. -/
theorem searchEd25519_complete {is js : List ℕ} {i : ℕ} {saw : Bool}
    (his : ∀ j ∈ is, j < tx.length) (hi : CarriedAt tx pubkey message i) :
    searchEd25519 tx pubkey message (is ++ i :: js) saw = .ok () := by
  classical
  induction is generalizing saw with
  | nil =>
    obtain ⟨ix, hix, hid, hc⟩ := hi
    refine fromOption_bind_eq_ok.mpr ⟨ix, hix, ?_⟩
    rw [if_pos hid, unwrapOrFalse_matches, decide_eq_true hc]
    rfl
  | cons j is ih =>
    have hj : j < tx.length := his j List.mem_cons_self
    have his' : ∀ k ∈ is, k < tx.length := fun k hk ↦ his k (List.mem_cons_of_mem _ hk)
    refine fromOption_bind_eq_ok.mpr ⟨tx[j], List.getElem?_eq_getElem hj, ?_⟩
    by_cases hid : tx[j].programId = Ed25519.ID
    · rw [if_pos hid, unwrapOrFalse_matches]
      by_cases hc : Carries tx[j].data pubkey message
      · rw [decide_eq_true hc]
        rfl
      · rw [decide_eq_false hc]
        exact ih his'
    · rw [if_neg hid]
      exact ih his'

/-- **The search succeeds** exactly when an earlier precompile instruction carries the key and the
message in its own data. -/
theorem verifyEd25519Signature_eq_ok {currentIndex : ℕ} :
    verifyEd25519Signature tx currentIndex pubkey message = .ok () ↔
      ∃ i < currentIndex, CarriedAt tx pubkey message i := by
  constructor
  · intro h
    obtain ⟨i, hi, hc⟩ := searchEd25519_sound h
    exact ⟨i, List.mem_range.mp hi, hc⟩
  · rintro ⟨i, hi, hc⟩
    have hlen : i < tx.length := by
      obtain ⟨ix, hix, -⟩ := hc
      exact (List.getElem?_eq_some_iff.mp hix).1
    obtain ⟨js, hjs⟩ : ∃ js, List.range currentIndex = List.range i ++ i :: js := by
      obtain ⟨n, rfl⟩ := Nat.exists_eq_add_of_lt hi
      refine ⟨(List.range n).map (i + 1 + ·), ?_⟩
      rw [show i + n + 1 = i + 1 + n by omega, List.range_add, List.range_succ, List.append_assoc,
        List.singleton_append]
    rw [verifyEd25519Signature, hjs]
    exact searchEd25519_complete (fun j hj ↦ (List.mem_range.mp hj).trans hlen) hc

/-! ## What was verified

The search compares bytes of the instruction's own data; the precompile verified the bytes the
entry's instruction indices lead to. They are the same bytes where these indices lead back to the
instruction, and only there can nobody choose them. -/

theorem Carries.slices (h : Carries data pubkey message) {e : Ed25519.SignatureOffsets}
    (he : Ed25519.readOffsets data 0 = some e) :
    slice data e.publicKeyOffset (e.publicKeyOffset + 32) = some pubkey ∧
      slice data e.messageDataOffset (e.messageDataOffset + e.messageDataSize) = some message ∧
      message.length = e.messageDataSize := by
  obtain ⟨-, -, pkOff, msgOff, hpkOff, hmsgOff, hsz, hpk, hmsg⟩ := h
  simp only [Ed25519.readOffsets, Nat.mul_zero, Nat.add_zero, Nat.reduceAdd, Option.bind_eq_bind,
    Option.bind_eq_some_iff, hpkOff, hmsgOff, hsz, Option.some.injEq] at he
  obtain ⟨_, -, _, -, _, rfl, _, -, _, rfl, _, rfl, _, -, rfl⟩ := he
  exact ⟨hpk, hmsg, rfl⟩

theorem Carries.numSignatures (h : Carries data pubkey message) : Ed25519.numSignatures data = 1 := by
  rw [Ed25519.numSignatures, h.2.1]
  rfl

/-- An entry that refers to its own instruction reads what the search compares. -/
theorem Carries.resolve (h : Carries data pubkey message) {e : Ed25519.SignatureOffsets}
    {x : Ed25519.Signed} {i : ℕ} (hdata : (tx[i]?).map SysvarInstruction.data = some data)
    (he : Ed25519.readOffsets data 0 = some e) (hrefers : e.RefersTo i)
    (hx : Ed25519.resolve tx data e = some x) : x.publicKey = pubkey ∧ x.message = message := by
  have hown : ∀ {k}, k = Ed25519.CURRENT ∨ k = i → Ed25519.instructionData tx data k = some data := by
    rintro k (rfl | rfl)
    · rfl
    · rw [Ed25519.instructionData, hdata, ite_self]
  obtain ⟨hpk, hmsg, hsize⟩ := h.slices he
  simp only [Ed25519.resolve, Option.bind_eq_bind, Option.bind_eq_some_iff, hown hrefers.1,
    Option.some.injEq] at hx
  obtain ⟨_, -, _, -, _, rfl, _, hpk', d, hd, _, hmsg', rfl⟩ := hx
  rw [hpk, Option.some.injEq] at hpk'
  refine ⟨hpk'.symm, ?_⟩
  obtain hzero | hindex := hrefers.2
  · -- no bytes are the same wherever they are read
    have hlen := length_slice hmsg'
    rw [Nat.add_sub_cancel_left] at hlen
    rw [List.eq_nil_of_length_eq_zero (hlen.trans hzero),
      List.eq_nil_of_length_eq_zero (hsize.trans hzero)]
  · rw [hown hindex, Option.some.injEq] at hd
    subst hd
    rw [hmsg, Option.some.injEq] at hmsg'
    exact hmsg'.symm

theorem CarriedAt.verified {verifies : Ed25519.Signed → Bool} {i : ℕ}
    (hs : Ed25519.Succeeded verifies tx) (h : CarriedAt tx pubkey message i)
    (hself : Ed25519.SelfContained tx i) : Ed25519.Verified verifies tx pubkey message := by
  obtain ⟨ix, hix, hid, hc⟩ := h
  obtain ⟨ix', e, hix', he, hrefers⟩ := hself
  obtain rfl : ix = ix' := by rw [hix, Option.some.injEq] at hix'; exact hix'
  have hmem : ix ∈ tx := List.mem_of_getElem? hix
  have hnum : 0 < Ed25519.numSignatures ix.data := hc.numSignatures ▸ Nat.one_pos
  obtain ⟨x, hx, -⟩ := (Option.any_eq_true ..).mp (hs ix hmem hid 0 hnum)
  have hread : Ed25519.resolve tx ix.data e = some x := by
    rwa [Ed25519.entry, he, Option.bind_some] at hx
  obtain ⟨rfl, rfl⟩ := hc.resolve (by rw [hix]; rfl) he hrefers hread
  exact hs.verified hmem hid hnum hx

/-- What a precompile instruction carries and does not refer to itself can be accepted unverified: the
instructions its entry refers to may hold anything. -/
theorem CarriedAt.unverified {verifies : Ed25519.Signed → Bool} {i : ℕ}
    (hs : Ed25519.Succeeded verifies tx) (hkey : pubkey ≠ []) (h : CarriedAt tx pubkey message i)
    (hself : ¬Ed25519.SelfContained tx i) :
    ∃ verifies' tx', tx'[i]? = tx[i]? ∧ Ed25519.Succeeded verifies' tx' ∧
      ¬Ed25519.Verified verifies' tx' pubkey message := by
  obtain ⟨ix, hix, hid, hc⟩ := h
  have hnum := hc.numSignatures
  obtain ⟨x, hx, -⟩ := (Option.any_eq_true ..).mp (hs ix (List.mem_of_getElem? hix) hid 0 (by omega))
  obtain ⟨e, he, hread⟩ := Option.bind_eq_some_iff.mp hx
  have hrefers : ¬e.RefersTo i := fun hr ↦ hself ⟨ix, e, hix, he, hr⟩
  obtain ⟨c, x', hx', hne⟩ :=
    Ed25519.exists_resolve_overwrite hread hrefers hkey (hc.slices he).2.2
  refine ⟨fun y ↦ decide (y = x'), Ed25519.overwrite tx i c, Ed25519.overwrite_self tx i c, ?_, ?_⟩
  · intro ix' hmem hid' j hj
    obtain rfl : ix = ix' := by
      rw [Ed25519.eq_of_mem_overwrite hmem hid', Option.some.injEq] at hix
      exact hix.symm
    obtain rfl : j = 0 := by omega
    rw [Ed25519.entry, he, Option.bind_some, hx', Option.any_some, decide_eq_true rfl]
  · rintro ⟨signature, hv, -⟩
    rw [← of_decide_eq_true hv] at hne
    exact hne ⟨rfl, rfl⟩

/-- **Authenticity of a match.** An accepted key and message were verified if one of the earlier
instructions that carry them also refers to itself. That is exact for each such instruction: whatever
else the transaction holds, what it carries is only accepted when verified if and only if it refers to
itself. -/
theorem verifyEd25519Signature_authentic_iff (verifies : Ed25519.Signed → Bool) (tx : Transaction)
    (currentIndex : ℕ) (maker : Pubkey) (message : List UInt8)
    (hs : Ed25519.Succeeded verifies tx) :
    (((∃ i < currentIndex, CarriedAt tx maker.toBytes message i) →
        ∃ i < currentIndex, CarriedAt tx maker.toBytes message i ∧ Ed25519.SelfContained tx i) →
      verifyEd25519Signature tx currentIndex maker.toBytes message = .ok () →
      Ed25519.Verified verifies tx maker.toBytes message) ∧
    ∀ i < currentIndex, CarriedAt tx maker.toBytes message i →
      ((∀ verifies' tx', tx'[i]? = tx[i]? → Ed25519.Succeeded verifies' tx' →
          verifyEd25519Signature tx' currentIndex maker.toBytes message = .ok () →
          Ed25519.Verified verifies' tx' maker.toBytes message) ↔
        Ed25519.SelfContained tx i) := by
  refine ⟨fun hcond hok ↦ ?_, fun i hi hc ↦ ⟨fun hauthentic ↦ ?_, ?_⟩⟩
  · obtain ⟨i, -, hc, hself⟩ := hcond (verifyEd25519Signature_eq_ok.mp hok)
    exact hc.verified hs hself
  · by_contra hself
    have hkey : maker.toBytes ≠ [] := by
      intro hnil
      have hlen := Pubkey.length_toBytes maker
      rw [hnil] at hlen
      exact absurd hlen (by decide)
    obtain ⟨verifies', tx', hix, hs', hnot⟩ := hc.unverified hs hkey hself
    have hc' : CarriedAt tx' maker.toBytes message i := by rwa [CarriedAt, hix]
    exact hnot (hauthentic verifies' tx' hix hs' (verifyEd25519Signature_eq_ok.mpr ⟨i, hi, hc'⟩))
  · rintro hself verifies' tx' hix hs' -
    have hc' : CarriedAt tx' maker.toBytes message i := by rwa [CarriedAt, hix]
    exact hc'.verified hs' (by rwa [Ed25519.SelfContained, hix])

section Forged

/-- A quote of the maker that the maker never signed. -/
def forgedQuote : List UInt8 := buildQuoteMessage 7 1 2000000000 1 1000000000000 0 9

/-- Somebody else's key, in the order of its bytes. -/
def otherKey : Pubkey := 0x1a5107f7681a02af2523a6daf372e10e3a0764c9d3fe4bd5b70ab18201985ad7

/-- That key's signature over the quote. -/
def otherSignature : List UInt8 :=
  leBytes 64 0x665b6c00b4a67832f53f8afffde3724a10e11e45947e67262e037ced802933a59d783bf9bf216664165824061864a1fd81b657f947f11a289934a6323c167b9

/-- The key whose quote it pretends to be. -/
def victim : Pubkey := 5

/-- A precompile instruction with one entry and everything it needs in its own data, after the
table: signature, key, message. The key is read from instruction `keyIndex`. -/
def precompileData (keyIndex : ℕ) (signature key message : List UInt8) : List UInt8 :=
  [1, 0] ++ leBytes 2 16 ++ leBytes 2 Ed25519.CURRENT ++ leBytes 2 80 ++ leBytes 2 keyIndex ++
    leBytes 2 112 ++ leBytes 2 message.length ++ leBytes 2 Ed25519.CURRENT ++ signature ++ key ++
    message

/-- The entry takes its key from the next instruction, which carries the other key at the offset
where the precompile instruction itself carries the victim's. -/
def forgedTransaction : Transaction :=
  [⟨Ed25519.ID, precompileData 1 otherSignature victim.toBytes forgedQuote⟩,
   ⟨0, List.replicate 80 0 ++ otherKey.toBytes⟩]

/-- The same entry without the redirection. -/
def honestTransaction : Transaction :=
  [⟨Ed25519.ID, precompileData Ed25519.CURRENT otherSignature otherKey.toBytes forgedQuote⟩]

/-- The scheme, on the one triple both transactions ask about. -/
def verifiesOther (x : Ed25519.Signed) : Bool :=
  decide (x = ⟨otherKey.toBytes, forgedQuote, otherSignature⟩)

/-- **A forged quote is accepted.** Every precompile instruction succeeded, the search finds the
victim's key and the quote, and no entry of the transaction was verified under that key. -/
theorem verifyEd25519Signature_forged :
    Ed25519.Succeeded verifiesOther forgedTransaction ∧
      verifyEd25519Signature forgedTransaction 2 victim.toBytes forgedQuote = .ok () ∧
      ¬Ed25519.Verified verifiesOther forgedTransaction victim.toBytes forgedQuote := by
  refine ⟨by decide +kernel, by decide +kernel, ?_⟩
  rintro ⟨signature, hv, -⟩
  have hkey : victim.toBytes = otherKey.toBytes := congrArg Ed25519.Signed.publicKey (of_decide_eq_true hv)
  exact absurd hkey (by decide +kernel)

/-- The honest instruction refers to itself, and what it carries was verified; the forged one does not, and
in its place no key is safe. -/
theorem verifyEd25519Signature_authentic_iff_honest :
    (Ed25519.SelfContained honestTransaction 0 ∧
        verifyEd25519Signature honestTransaction 1 otherKey.toBytes forgedQuote = .ok () ∧
        Ed25519.Verified verifiesOther honestTransaction otherKey.toBytes forgedQuote) ∧
      ¬Ed25519.SelfContained forgedTransaction 0 ∧
        ¬∀ verifies' tx', tx'[0]? = forgedTransaction[0]? → Ed25519.Succeeded verifies' tx' →
          verifyEd25519Signature tx' 2 victim.toBytes forgedQuote = .ok () →
          Ed25519.Verified verifies' tx' victim.toBytes forgedQuote := by
  have hhonest : Ed25519.Succeeded verifiesOther honestTransaction := by decide +kernel
  have hforged : Ed25519.Succeeded verifiesOther forgedTransaction := by decide +kernel
  have hok : verifyEd25519Signature honestTransaction 1 otherKey.toBytes forgedQuote = .ok () := by
    decide +kernel
  have hself : Ed25519.SelfContained honestTransaction 0 := by decide +kernel
  have hnot : ¬Ed25519.SelfContained forgedTransaction 0 := by decide +kernel
  have hfirst : ∀ {tx : Transaction} {key : Pubkey},
      verifyEd25519Signature tx 1 key.toBytes forgedQuote = .ok () →
        CarriedAt tx key.toBytes forgedQuote 0 := by
    intro tx key h
    obtain ⟨i, hi, hc⟩ := verifyEd25519Signature_eq_ok.mp h
    rwa [Nat.lt_one_iff.mp hi] at hc
  refine ⟨⟨hself, hok, ?_⟩, hnot, ?_⟩
  · exact (verifyEd25519Signature_authentic_iff verifiesOther honestTransaction 1 otherKey forgedQuote
      hhonest).1 (fun _ ↦ ⟨0, Nat.one_pos, hfirst hok, hself⟩) hok
  · exact fun hall ↦ hnot ((verifyEd25519Signature_authentic_iff verifiesOther forgedTransaction 2 victim
      forgedQuote hforged).2 0 Nat.two_pos (hfirst (by decide +kernel)) |>.mp hall)

end Forged

end Settler

end OptionsProtocol
