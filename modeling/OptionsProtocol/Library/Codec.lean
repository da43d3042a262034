import Mathlib.Logic.Equiv.Defs
import OptionsProtocol.Library.Bytes

/-!
# Binary formats

A format writes the values of a type in a fixed number of bytes, and reads them off the front of a byte list.
What was written is read back, and nothing else is read: a list that can be read begins with the encoding of
what is read. Formats of fields are put together to formats of records, and both halves of the round trip
come with them.
-/

/-- A format of fixed width for some of the values of a type. -/
structure Codec (α : Type*) where
  width : ℕ
  /-- The values that can be written. -/
  Valid : α → Prop
  encode : α → List UInt8
  decode : List UInt8 → Option (α × List UInt8)
  length_encode : ∀ a, (encode a).length = width
  decode_encode : ∀ {a}, Valid a → ∀ bs, decode (encode a ++ bs) = some (a, bs)
  eq_of_decode : ∀ {bs a rest}, decode bs = some (a, rest) → Valid a ∧ bs = encode a ++ rest

namespace Codec

open Bytes

variable {α β : Type*}

/-! ## Fields -/

/-- The format that writes a value in `n` bytes, from a way to write and a way to read so many. -/
def ofBytes (n : ℕ) (Valid : α → Prop) (write : α → List UInt8) (read : List UInt8 → Option α)
    (length_write : ∀ a, (write a).length = n) (read_write : ∀ {a}, Valid a → read (write a) = some a)
    (eq_of_read : ∀ {bs a}, bs.length = n → read bs = some a → Valid a ∧ bs = write a) : Codec α where
  width := n
  Valid := Valid
  encode := write
  decode bs := if n ≤ bs.length then (read (bs.take n)).map fun a ↦ (a, bs.drop n) else none
  length_encode := length_write
  decode_encode {a} ha bs := by
    have htake : (write a ++ bs).take n = write a := by
      rw [← length_write a, List.take_left]
    have hdrop : (write a ++ bs).drop n = bs := by
      rw [← length_write a, List.drop_left]
    rw [if_pos (by rw [List.length_append, length_write]; exact Nat.le_add_right _ _), htake, hdrop,
      read_write ha]
    rfl
  eq_of_decode {bs a rest} h := by
    obtain ⟨hle, h⟩ := Option.ite_none_right_eq_some.mp h
    obtain ⟨b, hb, heq⟩ := Option.map_eq_some_iff.mp h
    obtain ⟨rfl, rfl⟩ := Prod.mk.inj heq
    have hlen : (bs.take n).length = n := by
      rw [List.length_take]
      omega
    obtain ⟨hvalid, hwrite⟩ := eq_of_read hlen hb
    exact ⟨hvalid, by rw [← hwrite, List.take_append_drop]⟩

/-- Numbers below `256 ^ n`, least significant byte first. -/
def nat (n : ℕ) : Codec ℕ :=
  ofBytes n (· < 256 ^ n) (leBytes n) (fun bs ↦ some (ofLeBytes bs)) (length_leBytes n)
    (fun h ↦ congrArg some (ofLeBytes_leBytes h)) fun hlen h ↦ by
      obtain rfl := Option.some.inj h
      subst hlen
      exact ⟨ofLeBytes_lt _, (leBytes_ofLeBytes _).symm⟩

/-- Machine words of `n` bytes. -/
def word {w n : ℕ} (h : 2 ^ w = 256 ^ n) : Codec (BitVec w) :=
  ofBytes n (fun _ ↦ True) (fun x ↦ leBytes n x.toNat) (fun bs ↦ some (BitVec.ofNat w (ofLeBytes bs)))
    (fun _ ↦ length_leBytes _ _) (fun {x} _ ↦ by
      rw [ofLeBytes_word h, BitVec.ofNat_toNat, BitVec.setWidth_eq])
    fun {bs x} hlen hread ↦ by
      obtain rfl := Option.some.inj hread
      have hlt : ofLeBytes bs < 2 ^ w := by
        rw [h, ← hlen]
        exact ofLeBytes_lt bs
      refine ⟨trivial, ?_⟩
      rw [BitVec.toNat_ofNat, Nat.mod_eq_of_lt hlt, ← hlen, leBytes_ofLeBytes]

/-- Integers in two's complement. -/
def int (n : ℕ) : Codec ℤ :=
  ofBytes n (fun v ↦ -(((256 ^ n : ℕ) : ℤ) / 2) ≤ v ∧ v < (((256 ^ n : ℕ) : ℤ) + 1) / 2)
    (fun v ↦ leBytes n (v % (256 ^ n : ℕ)).toNat) (fun bs ↦ some (ofLeBytesSigned bs))
    (fun _ ↦ length_leBytes _ _) (fun {v} h ↦ by
      have hpos : (0 : ℤ) < (256 ^ n : ℕ) := Int.natCast_pos.mpr (Nat.pow_pos (by decide))
      have hlow := Int.emod_nonneg v hpos.ne'
      have hlt : (v % (256 ^ n : ℕ)).toNat < 256 ^ n := by
        have hup := Int.emod_lt_of_pos v hpos
        omega
      rw [ofLeBytesSigned, length_leBytes, ofLeBytes_leBytes hlt, Int.toNat_of_nonneg hlow,
        Int.emod_bmod, Int.bmod_eq_of_le h.1 h.2])
    fun {bs v} hlen hread ↦ by
      obtain rfl := Option.some.inj hread
      subst hlen
      have hpos : 0 < 256 ^ bs.length := Nat.pow_pos (by decide)
      refine ⟨⟨Int.le_bmod hpos, Int.bmod_lt hpos⟩, ?_⟩
      have hlt : (ofLeBytes bs : ℤ) < (256 ^ bs.length : ℕ) := by exact_mod_cast ofLeBytes_lt bs
      rw [ofLeBytesSigned, Int.bmod_emod, Int.emod_eq_of_lt (Int.natCast_nonneg _) hlt, Int.toNat_natCast,
        leBytes_ofLeBytes]

/-- One byte. -/
def byte : Codec UInt8 :=
  ofBytes 1 (fun _ ↦ True) (fun b ↦ [b]) List.head? (fun _ ↦ rfl) (fun _ ↦ rfl) fun {bs b} hlen hread ↦ by
    obtain ⟨c, rfl⟩ := List.length_eq_one_iff.mp hlen
    obtain rfl : c = b := Option.some.inj hread
    exact ⟨trivial, rfl⟩

/-- Truth values, as the bytes `0` and `1`. Other bytes are not read. -/
def bool : Codec Bool :=
  ofBytes 1 (fun _ ↦ True) (fun b ↦ [if b then 1 else 0])
    (fun bs ↦ if bs = [0] then some false else if bs = [1] then some true else none) (fun _ ↦ rfl)
    (fun {b} _ ↦ by cases b <;> rfl) fun {bs b} _ hread ↦ by
      split at hread
      · rename_i h0
        obtain rfl := Option.some.inj hread
        exact ⟨trivial, h0⟩
      · obtain ⟨h1, hread⟩ := Option.ite_none_right_eq_some.mp hread
        obtain rfl := Option.some.inj hread
        exact ⟨trivial, h1⟩

/-! ## Records -/

/-- One value after the other. -/
def pair (c : Codec α) (d : Codec β) : Codec (α × β) where
  width := c.width + d.width
  Valid x := c.Valid x.1 ∧ d.Valid x.2
  encode x := c.encode x.1 ++ d.encode x.2
  decode bs := (c.decode bs).bind fun x ↦ (d.decode x.2).map fun y ↦ ((x.1, y.1), y.2)
  length_encode x := by rw [List.length_append, c.length_encode, d.length_encode]
  decode_encode {x} h bs := by
    rw [List.append_assoc, c.decode_encode h.1, Option.bind_some, d.decode_encode h.2]
    rfl
  eq_of_decode {bs x rest} h := by
    obtain ⟨⟨a, tail⟩, ha, h⟩ := Option.bind_eq_some_iff.mp h
    obtain ⟨⟨b, tail'⟩, hb, heq⟩ := Option.map_eq_some_iff.mp h
    obtain ⟨rfl, rfl⟩ := Prod.mk.inj heq
    obtain ⟨hva, rfl⟩ := c.eq_of_decode ha
    obtain ⟨hvb, rfl⟩ := d.eq_of_decode hb
    exact ⟨⟨hva, hvb⟩, (List.append_assoc _ _ _).symm⟩

/-- The same bytes for another presentation of the values. -/
def equiv (c : Codec α) (e : α ≃ β) : Codec β where
  width := c.width
  Valid b := c.Valid (e.symm b)
  encode b := c.encode (e.symm b)
  decode bs := (c.decode bs).map fun x ↦ (e x.1, x.2)
  length_encode b := c.length_encode _
  decode_encode {b} h bs := by
    rw [c.decode_encode h, Option.map_some, Equiv.apply_symm_apply]
  eq_of_decode {bs b rest} h := by
    obtain ⟨⟨a, tail⟩, ha, heq⟩ := Option.map_eq_some_iff.mp h
    obtain ⟨rfl, rfl⟩ := Prod.mk.inj heq
    rw [Equiv.symm_apply_apply]
    exact c.eq_of_decode ha

end Codec
