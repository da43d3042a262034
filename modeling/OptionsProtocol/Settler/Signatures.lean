import OptionsProtocol.Settler.Machine

/-!
# What a signature commits to, and that it is found

The quote message is seven fields of fixed widths, one after the other. It says everything there is to a
quote: two quotes never share a message, and any bytes of the right length are the message of one quote.

A signature that is there is found. The search skips what it cannot read, and stops at the first instruction
that carries the key and the message; so nothing that is put around a valid signature hides it.
-/

namespace OptionsProtocol

namespace Settler

open Except Bytes

/-! ## Quotes -/

/-- The terms a maker signs. -/
structure Quote where
  otokenMint : Pubkey
  premiumMint : Pubkey
  bidPrice : UInt64
  deadline : Int64
  quoteId : UInt64
  maxAmount : UInt64
  makerNonce : UInt64
  deriving DecidableEq

def Quote.message (q : Quote) : List UInt8 :=
  buildQuoteMessage q.otokenMint q.bidPrice.toNat q.deadline.toInt q.quoteId.toNat q.maxAmount.toNat
    q.makerNonce.toNat q.premiumMint

/-- The quote an order presents. -/
def ExecuteOrder.quote (ctx : ExecuteOrder) (ord : Order) : Quote where
  otokenMint := ctx.otokenMint
  premiumMint := ord.premiumMint
  bidPrice := ord.bidPrice
  deadline := ord.deadline
  quoteId := ord.quoteId
  maxAmount := ord.maxAmount
  makerNonce := ord.makerNonce

@[simp] theorem ExecuteOrder.message_quote (ctx : ExecuteOrder) (ord : Order) :
    (ctx.quote ord).message = ord.message ctx.otokenMint := rfl

@[simp] theorem Quote.length_message (q : Quote) : q.message.length = 104 := by
  simp [message, buildQuoteMessage, i64Bytes]

theorem Quote.message_injective : Function.Injective Quote.message := by
  have hlt : ∀ v w : UInt64, v.toNat < 2 ^ 64 ∧ w.toNat < 2 ^ 64 :=
    fun v w ↦ ⟨v.toNat_lt, w.toNat_lt⟩
  have hint : ∀ v : Int64, -2 ^ 63 ≤ v.toInt ∧ v.toInt < 2 ^ 63 :=
    fun v ↦ ⟨v.le_toInt, v.toInt_lt⟩
  rintro ⟨o, p, b, d, q, x, n⟩ ⟨o', p', b', d', q', x', n'⟩ h
  obtain ⟨rfl, rfl, hb, hd, hq, hx, hn⟩ := buildQuoteMessage_inj (hlt _ _) (hint _) (hint _) (hlt _ _)
    (hlt _ _) (hlt _ _) h
  obtain rfl := UInt64.toNat_inj.mp hb
  obtain rfl := Int64.toInt_inj.mp hd
  obtain rfl := UInt64.toNat_inj.mp hq
  obtain rfl := UInt64.toNat_inj.mp hx
  obtain rfl := UInt64.toNat_inj.mp hn
  rfl

theorem i64Bytes_toInt (x : BitVec 64) : i64Bytes x.toInt = leBytes 8 x.toNat := by
  have hword : x.toInt % 2 ^ 64 = x.toNat := by
    rw [BitVec.toInt_eq_toNat_bmod, show (2 : ℤ) ^ 64 = (2 ^ 64 : ℕ) from by norm_cast, Int.bmod_emod]
    exact Int.emod_eq_of_lt (Int.natCast_nonneg _) (by exact_mod_cast x.isLt)
  rw [i64Bytes, hword, Int.toNat_natCast]

/-- **Any `104` bytes are the message of a quote.** -/
theorem Quote.exists_message {bytes : List UInt8} (h : bytes.length = 104) :
    ∃ q : Quote, q.message = bytes := by
  have hkey : (2 : ℕ) ^ 256 = 256 ^ 32 := by norm_num
  have hword : (2 : ℕ) ^ 64 = 256 ^ 8 := by norm_num
  obtain ⟨o, _, rfl, ho⟩ := exists_word_append (m := 72) hkey h
  obtain ⟨p, _, rfl, hp⟩ := exists_word_append (m := 40) hkey ho
  obtain ⟨b, _, rfl, hb⟩ := exists_word_append (m := 32) hword hp
  obtain ⟨d, _, rfl, hd⟩ := exists_word_append (m := 24) hword hb
  obtain ⟨q, _, rfl, hq⟩ := exists_word_append (m := 16) hword hd
  obtain ⟨x, _, rfl, hx⟩ := exists_word_append (m := 8) hword hq
  obtain ⟨n, rfl⟩ := exists_word hword hx
  refine ⟨⟨o, p, ⟨b⟩, ⟨⟨d⟩⟩, ⟨q⟩, ⟨x⟩, ⟨n⟩⟩, ?_⟩
  have hdeadline : i64Bytes (Int64.toInt ⟨⟨d⟩⟩) = leBytes 8 d.toNat := i64Bytes_toInt d
  rw [message, buildQuoteMessage, hdeadline]
  rfl

/-- **The message is the quote.** Quotes and strings of `104` bytes correspond one to one; and an order is
executed only if an instruction before it carries, under the maker's key, a message no other quote has. -/
theorem message_determines_quote :
    Function.Injective Quote.message ∧
    (∀ bytes : List UInt8, bytes.length = 104 ↔ ∃! q : Quote, q.message = bytes) ∧
    ∀ (D : Deployment) (T : TokenProgram) (rent : ℕ → ℕ) (ctx : ExecuteOrder) (ord : Order)
      (tx : Transaction) (currentIndex : ℕ) (s s' : State),
      executeOrder D T rent ctx ord tx currentIndex s = .ok s' →
        ∃ i < currentIndex, ∃ message, CarriedAt tx ctx.maker.toBytes message i ∧
          ∀ q : Quote, q.message = message ↔ q = ctx.quote ord := by
  refine ⟨Quote.message_injective, fun bytes ↦ ⟨fun h ↦ ?_, ?_⟩, ?_⟩
  · obtain ⟨q, rfl⟩ := Quote.exists_message h
    exact ⟨q, rfl, fun q' hq' ↦ Quote.message_injective hq'⟩
  · rintro ⟨q, rfl, -⟩
    exact q.length_message
  · intro D T rent ctx ord tx currentIndex s s' h
    obtain ⟨r, he⟩ := executeOrder_effect h
    obtain ⟨i, hi, hc⟩ := verifyEd25519Signature_eq_ok.mp he.signed
    refine ⟨i, hi, _, hc, fun q ↦ ⟨fun hq ↦ ?_, ?_⟩⟩
    · exact Quote.message_injective (hq.trans (ctx.message_quote ord).symm)
    · rintro rfl
      exact ctx.message_quote ord

theorem message_determines_quote_sample :
    ∃ i < 1, ∃ message, CarriedAt sampleTransaction otherKey.toBytes message i ∧
      ∀ q : Quote, q.message = message ↔ q = (sampleExecuteOrder 0).quote sampleOrder := by
  obtain ⟨s', h⟩ := exists_of_isSome (x := executeOrder sampleDeployment splToken id (sampleExecuteOrder 0)
    sampleOrder sampleTransaction 1 (sampleRun sampleSetup)) (by decide +kernel)
  exact message_determines_quote.2.2 _ _ _ _ _ _ _ _ _ h

/-! ## Signatures that are there -/

variable {own pubkey message : List UInt8}

/-- What the precompile reads at the offsets of its only entry is what the search compares. -/
theorem carries_of_pointsAt (h : Ed25519.PointsAt own pubkey message) : Carries own pubkey message := by
  obtain ⟨hone, e, he, hpk, hmsg⟩ := h
  simp only [Ed25519.readOffsets, Nat.mul_zero, Nat.add_zero, Nat.reduceAdd, Option.bind_eq_bind,
    Option.bind_eq_some_iff, Option.some.injEq] at he
  obtain ⟨_, -, _, -, pkOff, hpkOff, _, -, msgOff, hmsgOff, size, hsize, _, hlast, rfl⟩ := he
  -- the entry ends where its last field does
  have hlen : 16 ≤ own.length := by
    obtain ⟨bs, hbs, -⟩ := Option.map_eq_some_iff.mp hlast
    exact (slice_eq_some.mp hbs).1.2
  have hcount : own[0]? = some 1 := by
    rw [Ed25519.numSignatures] at hone
    obtain ⟨n, hn⟩ : ∃ n, own[0]? = some n := ⟨own[0], List.getElem?_eq_getElem (by omega)⟩
    rw [hn, Option.elim_some] at hone
    rw [hn, UInt8.toNat_inj.mp (hone.trans (show 1 = (1 : UInt8).toNat from rfl))]
  have hsz : size = message.length := by
    obtain ⟨⟨-, hend⟩, hm⟩ := slice_eq_some.mp hmsg
    have hlength := congrArg List.length hm
    rw [List.length_take, List.length_drop] at hlength
    dsimp only at hend hlength
    omega
  subst hsz
  exact ⟨hlen, hcount, pkOff, msgOff, hpkOff, hmsgOff, hsize, hpk, hmsg⟩

/-- **A valid signature is always found.** If an instruction before the current one is one of the precompile
with a single entry that points, within its own data, at the maker's key and exactly the message, the search
succeeds, whatever the other instructions of the transaction are; and no data whatever makes the parser read
out of range. -/
theorem signature_always_found :
    (∀ (tx : Transaction) (currentIndex i : ℕ) (ix : SysvarInstruction) (maker : Pubkey)
      (message : List UInt8), i < currentIndex → tx[i]? = some ix → ix.programId = Ed25519.ID →
        Ed25519.PointsAt ix.data maker.toBytes message →
          verifyEd25519Signature tx currentIndex maker.toBytes message = .ok ()) ∧
    ∀ data pubkey message : List UInt8,
      (∃ found, ed25519InstructionMatches data pubkey message = .ok found) ∨
        ed25519InstructionMatches data pubkey message = .error (err .invalidEd25519Data) := by
  constructor
  · intro tx currentIndex i ix maker message hi hix hid h
    exact verifyEd25519Signature_eq_ok.mpr ⟨i, hi, ix, hix, hid, carries_of_pointsAt h⟩
  · intro data pubkey message
    cases h : ed25519InstructionMatches data pubkey message with
    | ok found => exact .inl ⟨found, rfl⟩
    | error e => exact .inr (congrArg _ (ed25519InstructionMatches_failsOnly e h))

/-- The sample signature, between instructions of the precompile that are cut short, declare two entries, or
point nowhere. -/
def sampleSurrounded : Transaction :=
  [⟨Ed25519.ID, []⟩, ⟨Ed25519.ID, 2 :: List.replicate 15 0⟩, ⟨Ed25519.ID, 1 :: List.replicate 15 255⟩] ++
    sampleTransaction ++ [⟨Ed25519.ID, [1]⟩]

theorem signature_always_found_sample :
    verifyEd25519Signature sampleSurrounded 5 otherKey.toBytes (sampleOrder.message 20) = .ok () := by
  have hpoints : Ed25519.PointsAt (precompileData Ed25519.CURRENT sampleSignature otherKey.toBytes
      (sampleOrder.message 20)) otherKey.toBytes (sampleOrder.message 20) := by
    exact ⟨by decide +kernel, ⟨16, Ed25519.CURRENT, 80, Ed25519.CURRENT, 112, 104, Ed25519.CURRENT⟩,
      by decide +kernel, by decide +kernel, by decide +kernel⟩
  exact signature_always_found.1 sampleSurrounded 5 3 _ otherKey (sampleOrder.message 20) (by decide) rfl rfl
    hpoints

end Settler

end OptionsProtocol
