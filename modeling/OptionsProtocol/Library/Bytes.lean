import Mathlib.Algebra.Order.Group.Nat
import Mathlib.Tactic.Common

/-!
# Little-endian bytes and slices

Fixed-width little-endian encodings of natural numbers as byte lists, and the half-open ranges
`bs[a..b]` of a byte list. The encoding in `n` bytes can be decoded for the numbers below `256 ^ n`;
concatenations of fixed-width fields are taken apart with `List.append_inj`.
-/

namespace Bytes

/-- The `n` low bytes of `v`, least significant first. -/
def leBytes : ℕ → ℕ → List UInt8
  | 0, _ => []
  | n + 1, v => UInt8.ofNat v :: leBytes n (v / 256)

/-- The number a byte list denotes, least significant byte first. -/
def ofLeBytes : List UInt8 → ℕ
  | [] => 0
  | b :: bs => b.toNat + 256 * ofLeBytes bs

@[simp] theorem length_leBytes (n v : ℕ) : (leBytes n v).length = n := by
  induction n generalizing v with
  | zero => rfl
  | succ n ih => rw [leBytes, List.length_cons, ih]

theorem ofLeBytes_leBytes {n v : ℕ} (h : v < 256 ^ n) : ofLeBytes (leBytes n v) = v := by
  induction n generalizing v with
  | zero => simp_all [leBytes, ofLeBytes]
  | succ n ih =>
    have hq : v / 256 < 256 ^ n := Nat.div_lt_of_lt_mul (by rwa [Nat.pow_succ, Nat.mul_comm] at h)
    have hr : (UInt8.ofNat v).toNat = v % 256 := UInt8.toNat_ofNat' ..
    rw [leBytes, ofLeBytes, ih hq, hr]
    omega

/-- **Encodings determine the numbers that fit.** -/
theorem leBytes_inj {n v w : ℕ} (hv : v < 256 ^ n) (hw : w < 256 ^ n)
    (h : leBytes n v = leBytes n w) : v = w := by
  rw [← ofLeBytes_leBytes hv, h, ofLeBytes_leBytes hw]

theorem ofLeBytes_lt (bs : List UInt8) : ofLeBytes bs < 256 ^ bs.length := by
  induction bs with
  | nil => exact Nat.one_pos
  | cons b bs ih =>
    have hb : b.toNat < 256 := b.toNat_lt
    rw [ofLeBytes, List.length_cons, Nat.pow_succ]
    omega

theorem leBytes_ofLeBytes (bs : List UInt8) : leBytes bs.length (ofLeBytes bs) = bs := by
  induction bs with
  | nil => rfl
  | cons b bs ih =>
    have hb : b.toNat < 256 := b.toNat_lt
    have hlow : UInt8.ofNat (b.toNat + 256 * ofLeBytes bs) = b := by
      apply UInt8.toNat_inj.mp
      rw [UInt8.toNat_ofNat']
      omega
    have hhigh : (b.toNat + 256 * ofLeBytes bs) / 256 = ofLeBytes bs := by omega
    rw [ofLeBytes, List.length_cons, leBytes, hlow, hhigh, ih]

/-- The bytes of an ASCII string. -/
def ascii (s : String) : List UInt8 := s.toList.map fun c ↦ UInt8.ofNat c.toNat

/-! ## Slices -/

/-- `bs[a..b]`, if the range lies within the list. -/
def slice (bs : List UInt8) (a b : ℕ) : Option (List UInt8) :=
  if a ≤ b ∧ b ≤ bs.length then some ((bs.drop a).take (b - a)) else none

theorem slice_eq_some {bs cs : List UInt8} {a b : ℕ} :
    slice bs a b = some cs ↔ (a ≤ b ∧ b ≤ bs.length) ∧ (bs.drop a).take (b - a) = cs := by
  rw [slice, Option.ite_none_right_eq_some, Option.some.injEq]

/-- The little-endian `u16` at offset `i`. -/
def readU16 (bs : List UInt8) (i : ℕ) : Option ℕ := (slice bs i (i + 2)).map ofLeBytes

/-- The little-endian `u64` at offset `i`. -/
def readU64 (bs : List UInt8) (i : ℕ) : Option ℕ := (slice bs i (i + 8)).map ofLeBytes

/-- The number a byte list denotes in two's complement, least significant byte first. -/
def ofLeBytesSigned (bs : List UInt8) : ℤ := Int.bmod (ofLeBytes bs) (256 ^ bs.length)

/-- The little-endian `i32` at offset `i`. -/
def readI32 (bs : List UInt8) (i : ℕ) : Option ℤ := (slice bs i (i + 4)).map ofLeBytesSigned

/-- The little-endian `i64` at offset `i`. -/
def readI64 (bs : List UInt8) (i : ℕ) : Option ℤ := (slice bs i (i + 8)).map ofLeBytesSigned

theorem exists_slice {bs : List UInt8} {a b : ℕ} (hab : a ≤ b) (hb : b ≤ bs.length) :
    ∃ cs, slice bs a b = some cs ∧ cs.length = b - a := by
  refine ⟨_, if_pos ⟨hab, hb⟩, ?_⟩
  rw [List.length_take, List.length_drop]
  omega

theorem length_slice {bs cs : List UInt8} {a b : ℕ} (h : slice bs a b = some cs) :
    cs.length = b - a := by
  obtain ⟨⟨hab, hb⟩, rfl⟩ := slice_eq_some.mp h
  rw [List.length_take, List.length_drop]
  omega

theorem slice_replicate {n a b : ℕ} {c : UInt8} {cs : List UInt8}
    (h : slice (List.replicate n c) a b = some cs) : cs = List.replicate (b - a) c := by
  obtain ⟨⟨hab, hb⟩, rfl⟩ := slice_eq_some.mp h
  rw [List.length_replicate] at hb
  rw [List.drop_replicate, List.take_replicate, Nat.min_eq_left (by omega)]

theorem exists_replicate_ne {bs : List UInt8} (h : bs ≠ []) :
    ∃ c : UInt8, ∀ n, List.replicate n c ≠ bs := by
  obtain ⟨b, bs, rfl⟩ := List.exists_cons_of_ne_nil h
  obtain ⟨c, hc⟩ : ∃ c : UInt8, c ≠ b := by
    by_cases hb : b = 0
    · exact ⟨1, by rw [hb]; decide⟩
    · exact ⟨0, Ne.symm hb⟩
  refine ⟨c, fun n hn ↦ hc ?_⟩
  cases n with
  | zero => cases hn
  | succ n => exact (List.cons.inj hn).1

/-! ## Machine words

The encoding of a word of `w` bits in `n` bytes, where these are as many bits. -/

section Words

variable {w n : ℕ}

theorem ofLeBytes_word (h : 2 ^ w = 256 ^ n) (x : BitVec w) : ofLeBytes (leBytes n x.toNat) = x.toNat :=
  ofLeBytes_leBytes (h ▸ x.isLt)

theorem leBytes_word_injective (h : 2 ^ w = 256 ^ n) :
    Function.Injective fun x : BitVec w ↦ leBytes n x.toNat := by
  intro x y hxy
  apply BitVec.eq_of_toNat_eq
  rw [← ofLeBytes_word h x, ← ofLeBytes_word h y]
  exact congrArg ofLeBytes hxy

theorem ofLeBytesSigned_word (h : 2 ^ w = 256 ^ n) (x : BitVec w) :
    ofLeBytesSigned (leBytes n x.toNat) = x.toInt := by
  rw [ofLeBytesSigned, ofLeBytes_word h, length_leBytes, ← h, BitVec.toInt_eq_toNat_bmod]

theorem exists_word (h : 2 ^ w = 256 ^ n) {bs : List UInt8} (hbs : bs.length = n) :
    ∃ x : BitVec w, leBytes n x.toNat = bs := by
  have hlt : ofLeBytes bs < 2 ^ w := by
    rw [h, ← hbs]
    exact ofLeBytes_lt bs
  refine ⟨BitVec.ofNat w (ofLeBytes bs), ?_⟩
  rw [BitVec.toNat_ofNat, Nat.mod_eq_of_lt hlt, ← hbs, leBytes_ofLeBytes]

theorem exists_word_append (h : 2 ^ w = 256 ^ n) {bs : List UInt8} {m : ℕ} (hbs : bs.length = n + m) :
    ∃ (x : BitVec w) (rest : List UInt8), bs = leBytes n x.toNat ++ rest ∧ rest.length = m := by
  have htake : (bs.take n).length = n := by
    rw [List.length_take]
    omega
  obtain ⟨x, hx⟩ := exists_word h htake
  refine ⟨x, bs.drop n, ?_, ?_⟩
  · rw [hx, List.take_append_drop]
  · rw [List.length_drop]
    omega

end Words

/-! ## Reading a concatenation

A slice begins the rest of the list, and what begins the rest of the list is a slice. -/

theorem drop_eq_of_slice {bs cs : List UInt8} {a b : ℕ} (h : slice bs a b = some cs) :
    bs.drop a = cs ++ bs.drop b := by
  obtain ⟨⟨hab, -⟩, rfl⟩ := slice_eq_some.mp h
  have hdrop : bs.drop b = (bs.drop a).drop (b - a) := by
    rw [List.drop_drop, Nat.add_sub_cancel' hab]
  rw [hdrop, List.take_append_drop]

theorem slice_of_drop {bs cs ds : List UInt8} {a b : ℕ} (h : bs.drop a = cs ++ ds)
    (ha : a ≤ bs.length) (hb : a + cs.length = b) : slice bs a b = some cs := by
  have hlen := congrArg List.length h
  rw [List.length_drop, List.length_append] at hlen
  refine slice_eq_some.mpr ⟨⟨by omega, by omega⟩, ?_⟩
  rw [h, ← hb, Nat.add_sub_cancel_left, List.take_left']
  rfl

theorem drop_of_drop {bs cs ds : List UInt8} {a b : ℕ} (h : bs.drop a = cs ++ ds)
    (hb : a + cs.length = b) : bs.drop b = ds := by
  rw [← hb, ← List.drop_drop, h, List.drop_left]

theorem exists_readU16 {bs : List UInt8} {i : ℕ} (h : i + 2 ≤ bs.length) :
    ∃ v, readU16 bs i = some v := by
  obtain ⟨cs, hcs, -⟩ := exists_slice (Nat.le_add_right i 2) h
  exact ⟨ofLeBytes cs, by rw [readU16, hcs, Option.map_some]⟩

end Bytes
