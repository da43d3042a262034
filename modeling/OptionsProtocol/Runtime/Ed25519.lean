import Mathlib.Data.BitVec
import OptionsProtocol.Library.Bytes
import OptionsProtocol.Runtime.Token

/-!
# Transactions and the Ed25519 precompile

The instructions sysvar shows a program the other instructions of its transaction. Signatures are
checked by instructions of the Ed25519 precompile, whose data is a table of entries: each names,
for its signature, its public key and its message, an offset *and the instruction whose data the
offset is into* (`0xFFFF` for the precompile instruction itself).

The precompile is not part of the repository. What is relied on is that an instruction of it
succeeds only if every entry can be read this way and verifies, under a signature scheme that
stays a parameter.
-/

namespace OptionsProtocol

open Bytes

/-- `Pubkey::to_bytes()`. -/
def Pubkey.toBytes (k : Pubkey) : List UInt8 := leBytes 32 k.toNat

@[simp] theorem Pubkey.length_toBytes (k : Pubkey) : (Pubkey.toBytes k).length = 32 :=
  length_leBytes 32 _

theorem Pubkey.toBytes_inj {k l : Pubkey} (h : Pubkey.toBytes k = Pubkey.toBytes l) : k = l := by
  apply BitVec.eq_of_toNat_eq
  exact leBytes_inj (by simpa using k.isLt) (by simpa using l.isLt) h

/-- An instruction, as the instructions sysvar shows it. -/
structure SysvarInstruction where
  programId : Pubkey
  data : List UInt8

/-- The instructions of a transaction. -/
abbrev Transaction := List SysvarInstruction

namespace Ed25519

/-- The address of the precompile. -/
def ID : Pubkey := 0x804470cafc648af42749747005ff408d838f42f912befb937cd6467d03

/-- The index that stands for the precompile instruction itself. -/
def CURRENT : ℕ := 0xFFFF

/-- One entry of the table. -/
structure SignatureOffsets where
  signatureOffset : ℕ
  signatureInstructionIndex : ℕ
  publicKeyOffset : ℕ
  publicKeyInstructionIndex : ℕ
  messageDataOffset : ℕ
  messageDataSize : ℕ
  messageInstructionIndex : ℕ
  deriving DecidableEq

/-- Entry `j` of the table: fourteen bytes, after the count and a padding byte. -/
def readOffsets (data : List UInt8) (j : ℕ) : Option SignatureOffsets := do
  let base := 2 + 14 * j
  let signatureOffset ← readU16 data base
  let signatureInstructionIndex ← readU16 data (base + 2)
  let publicKeyOffset ← readU16 data (base + 4)
  let publicKeyInstructionIndex ← readU16 data (base + 6)
  let messageDataOffset ← readU16 data (base + 8)
  let messageDataSize ← readU16 data (base + 10)
  let messageInstructionIndex ← readU16 data (base + 12)
  some { signatureOffset, signatureInstructionIndex, publicKeyOffset, publicKeyInstructionIndex,
         messageDataOffset, messageDataSize, messageInstructionIndex }

/-- The data an instruction index refers to, from an instruction with data `own`. -/
def instructionData (tx : Transaction) (own : List UInt8) (i : ℕ) : Option (List UInt8) :=
  if i = CURRENT then some own else (tx[i]?).map SysvarInstruction.data

/-- What an entry asks to verify. -/
structure Signed where
  publicKey : List UInt8
  message : List UInt8
  signature : List UInt8
  deriving DecidableEq

/-- Follow the offsets of an entry. -/
def resolve (tx : Transaction) (own : List UInt8) (e : SignatureOffsets) : Option Signed := do
  let signatureData ← instructionData tx own e.signatureInstructionIndex
  let signature ← slice signatureData e.signatureOffset (e.signatureOffset + 64)
  let publicKeyData ← instructionData tx own e.publicKeyInstructionIndex
  let publicKey ← slice publicKeyData e.publicKeyOffset (e.publicKeyOffset + 32)
  let messageData ← instructionData tx own e.messageInstructionIndex
  let message ← slice messageData e.messageDataOffset (e.messageDataOffset + e.messageDataSize)
  some { publicKey, message, signature }

/-- The entry `j` of an instruction with data `own`, followed. -/
def entry (tx : Transaction) (own : List UInt8) (j : ℕ) : Option Signed :=
  (readOffsets own j).bind (resolve tx own)

/-- The number of entries an instruction declares. -/
def numSignatures (own : List UInt8) : ℕ := (own[0]?).elim 0 UInt8.toNat

/-- Every precompile instruction succeeded: each of its entries can be read and verifies. -/
def Succeeded (verifies : Signed → Bool) (tx : Transaction) : Prop :=
  ∀ ix ∈ tx, ix.programId = ID → ∀ j < numSignatures ix.data,
    (entry tx ix.data j).any verifies = true

instance (verifies : Signed → Bool) (tx : Transaction) : Decidable (Succeeded verifies tx) :=
  inferInstanceAs (Decidable (∀ _ ∈ tx, _))

/-- Some entry of some precompile instruction is a valid signature under this public key over this
message. -/
def Verified (verifies : Signed → Bool) (tx : Transaction) (publicKey message : List UInt8) : Prop :=
  ∃ signature, verifies ⟨publicKey, message, signature⟩ = true ∧
    ∃ ix ∈ tx, ix.programId = ID ∧ ∃ j < numSignatures ix.data,
      entry tx ix.data j = some ⟨publicKey, message, signature⟩

/-- The entry reads its public key and its message out of instruction `i`, which it is in. (No bytes are the
same wherever they are read.) -/
def SignatureOffsets.RefersTo (e : SignatureOffsets) (i : ℕ) : Prop :=
  (e.publicKeyInstructionIndex = CURRENT ∨ e.publicKeyInstructionIndex = i) ∧
    (e.messageDataSize = 0 ∨ e.messageInstructionIndex = CURRENT ∨ e.messageInstructionIndex = i)

instance (e : SignatureOffsets) (i : ℕ) : Decidable (e.RefersTo i) :=
  inferInstanceAs (Decidable (_ ∧ _))

/-- The first entry of instruction `i` does. -/
def SelfContained (tx : Transaction) (i : ℕ) : Prop :=
  ∃ ix e, tx[i]? = some ix ∧ readOffsets ix.data 0 = some e ∧ e.RefersTo i

instance (tx : Transaction) (i : ℕ) : Decidable (SelfContained tx i) :=
  decidable_of_iff
    ((tx[i]?.bind fun ix ↦ readOffsets ix.data 0).any (fun e ↦ decide (e.RefersTo i)) = true) <| by
      simp [SelfContained, Option.any_eq_true, Option.bind_eq_some_iff]
      grind

/-- The one entry of an instruction with data `own` points at this public key and this message within that
data. -/
def PointsAt (own publicKey message : List UInt8) : Prop :=
  numSignatures own = 1 ∧ ∃ e, readOffsets own 0 = some e ∧
    slice own e.publicKeyOffset (e.publicKeyOffset + 32) = some publicKey ∧
    slice own e.messageDataOffset (e.messageDataOffset + e.messageDataSize) = some message

variable {verifies : Signed → Bool} {tx : Transaction} {own d : List UInt8} {i k : ℕ} {c : UInt8}

theorem Succeeded.verified (hs : Succeeded verifies tx) {ix : SysvarInstruction} (hix : ix ∈ tx)
    (hid : ix.programId = ID) {j : ℕ} (hj : j < numSignatures ix.data) {x : Signed}
    (hx : entry tx ix.data j = some x) : Verified verifies tx x.publicKey x.message := by
  have hv := hs ix hix hid j hj
  rw [hx, Option.any_some] at hv
  exact ⟨x.signature, hv, ix, hix, hid, j, hj, hx⟩

/-! ## The rest of a transaction

What an entry reads out of another instruction is up to whoever writes that instruction. Here all of them
are overwritten, with one byte throughout. -/

/-- The transaction with every instruction but `i` overwritten. -/
def overwrite (tx : Transaction) (i : ℕ) (c : UInt8) : Transaction :=
  tx.mapIdx fun j ix ↦ if j = i then ix else ⟨Pubkey.default, List.replicate ix.data.length c⟩

theorem overwrite_self (tx : Transaction) (i : ℕ) (c : UInt8) : (overwrite tx i c)[i]? = tx[i]? := by
  rw [overwrite, List.getElem?_mapIdx]
  simp

theorem overwrite_of_ne (tx : Transaction) (c : UInt8) (h : k ≠ i) :
    (overwrite tx i c)[k]? = tx[k]?.map fun ix ↦ ⟨Pubkey.default, List.replicate ix.data.length c⟩ := by
  rw [overwrite, List.getElem?_mapIdx]
  simp [h]

/-- The precompile is called by the instruction that was kept only. -/
theorem eq_of_mem_overwrite {ix : SysvarInstruction} (h : ix ∈ overwrite tx i c)
    (hid : ix.programId = ID) : tx[i]? = some ix := by
  obtain ⟨k, hk⟩ := List.mem_iff_getElem?.mp h
  by_cases hki : k = i
  · rw [← hk, hki, overwrite_self]
  · rw [overwrite_of_ne tx c hki] at hk
    obtain ⟨_, -, rfl⟩ := Option.map_eq_some_iff.mp hk
    exact absurd hid (show Pubkey.default ≠ ID by decide)

/-- As much data is there as before; of another instruction, the byte. -/
theorem instructionData_overwrite (h : instructionData tx own k = some d) :
    ∃ d', instructionData (overwrite tx i c) own k = some d' ∧ d'.length = d.length ∧
      (k ≠ CURRENT → k ≠ i → d' = List.replicate d.length c) := by
  rw [instructionData] at h ⊢
  by_cases hk : k = CURRENT
  · rw [if_pos hk] at h ⊢
    exact ⟨own, rfl, by rw [Option.some.inj h], fun hne ↦ absurd hk hne⟩
  · rw [if_neg hk] at h ⊢
    obtain ⟨ix, hix, rfl⟩ := Option.map_eq_some_iff.mp h
    by_cases hki : k = i
    · subst hki
      rw [overwrite_self, hix]
      exact ⟨ix.data, rfl, rfl, fun _ hne ↦ absurd rfl hne⟩
    · rw [overwrite_of_ne tx c hki, hix]
      exact ⟨_, rfl, List.length_replicate, fun _ _ ↦ rfl⟩

theorem slice_overwrite {a b : ℕ} {cs : List UInt8} (h : instructionData tx own k = some d)
    (hcs : slice d a b = some cs) : ∃ d' cs', instructionData (overwrite tx i c) own k = some d' ∧
      slice d' a b = some cs' ∧ (k ≠ CURRENT → k ≠ i → cs' = List.replicate (b - a) c) := by
  obtain ⟨d', hd', hlen, hfill⟩ := instructionData_overwrite (i := i) (c := c) h
  obtain ⟨⟨hab, hb⟩, -⟩ := slice_eq_some.mp hcs
  obtain ⟨cs', hcs', -⟩ := exists_slice hab (hlen ▸ hb)
  refine ⟨d', cs', hd', hcs', fun hk hki ↦ ?_⟩
  rw [hfill hk hki] at hcs'
  exact slice_replicate hcs'

theorem resolve_overwrite {e : SignatureOffsets} {x : Signed} (h : resolve tx own e = some x) :
    ∃ x', resolve (overwrite tx i c) own e = some x' ∧
      (e.publicKeyInstructionIndex ≠ CURRENT → e.publicKeyInstructionIndex ≠ i →
        x'.publicKey = List.replicate 32 c) ∧
      (e.messageInstructionIndex ≠ CURRENT → e.messageInstructionIndex ≠ i →
        x'.message = List.replicate e.messageDataSize c) := by
  simp only [resolve, Option.bind_eq_bind, Option.bind_eq_some_iff] at h
  obtain ⟨d₁, hd₁, s₁, hs₁, d₂, hd₂, s₂, hs₂, d₃, hd₃, s₃, hs₃, -⟩ := h
  obtain ⟨d₁', s₁', hd₁', hs₁', -⟩ := slice_overwrite (i := i) (c := c) hd₁ hs₁
  obtain ⟨d₂', s₂', hd₂', hs₂', hkey⟩ := slice_overwrite (i := i) (c := c) hd₂ hs₂
  obtain ⟨d₃', s₃', hd₃', hs₃', hmessage⟩ := slice_overwrite (i := i) (c := c) hd₃ hs₃
  rw [Nat.add_sub_cancel_left] at hkey hmessage
  refine ⟨⟨s₂', s₃', s₁'⟩, ?_, hkey, hmessage⟩
  simp only [resolve, Option.bind_eq_bind, Option.bind_eq_some_iff]
  exact ⟨d₁', hd₁', s₁', hs₁', d₂', hd₂', s₂', hs₂', d₃', hd₃', s₃', hs₃', rfl⟩

/-- **An entry that refers elsewhere can be made to read something else.** -/
theorem exists_resolve_overwrite {e : SignatureOffsets} {x : Signed} (h : resolve tx own e = some x)
    (hrefers : ¬e.RefersTo i) {publicKey message : List UInt8} (hkey : publicKey ≠ [])
    (hsize : message.length = e.messageDataSize) :
    ∃ c x', resolve (overwrite tx i c) own e = some x' ∧
      ¬(x'.publicKey = publicKey ∧ x'.message = message) := by
  rw [SignatureOffsets.RefersTo, not_and_or, not_or, not_or, not_or] at hrefers
  obtain ⟨hcurrent, hi⟩ | ⟨hne, hcurrent, hi⟩ := hrefers
  · obtain ⟨c, hc⟩ := exists_replicate_ne hkey
    obtain ⟨x', hx', hkey', -⟩ := resolve_overwrite (i := i) (c := c) h
    exact ⟨c, x', hx', fun hx ↦ hc 32 (hkey' hcurrent hi ▸ hx.1)⟩
  · have hmessage : message ≠ [] := by
      rintro rfl
      exact hne hsize.symm
    obtain ⟨c, hc⟩ := exists_replicate_ne hmessage
    obtain ⟨x', hx', -, hmessage'⟩ := resolve_overwrite (i := i) (c := c) h
    exact ⟨c, x', hx', fun hx ↦ hc _ (hmessage' hcurrent hi ▸ hx.2)⟩

end Ed25519

end OptionsProtocol
