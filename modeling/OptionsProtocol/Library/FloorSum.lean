import Mathlib.Algebra.BigOperators.Group.Multiset.Basic
import Mathlib.Algebra.Order.BigOperators.Group.Multiset
import Mathlib.Algebra.Order.Group.Nat
import Mathlib.Data.Rat.Floor

/-!
# Rounding down, in pieces and at once

Scaling an amount by the rational `c / b` and rounding down loses less than one unit per rounding.
Scaling a sum at once therefore yields at least what scaling the summands one by one does, and at
most one unit more for each summand after the first that is rounded at all. Scaling by a power whose
exponent has a sign is scaling by a numerator or by a denominator.
-/

namespace FloorSum

variable {c b : ℕ}

/-- `n * (c / b)`, rounded down. -/
def scale (c b n : ℕ) : ℕ := n * c / b

@[simp] theorem scale_zero (c b : ℕ) : scale c b 0 = 0 := by
  rw [scale, Nat.zero_mul, Nat.zero_div]

theorem scale_mono {m n : ℕ} (h : m ≤ n) : scale c b m ≤ scale c b n :=
  Nat.div_le_div_right (Nat.mul_le_mul_right c h)

theorem scale_add_le (m n : ℕ) : scale c b m + scale c b n ≤ scale c b (m + n) := by
  rw [scale, scale, scale, Nat.add_mul]
  exact Nat.div_add_div_le_add_div

/-- The scaled amount is the integer part of the exact rational product. -/
theorem floor_mul_div_eq_scale (c b n : ℕ) : ⌊(n : ℚ) * (c / b)⌋ = scale c b n := by
  rw [← mul_div_assoc, ← Nat.cast_mul, Rat.floor_natCast_div_natCast, scale, Int.natCast_ediv]

/-- **Scaling by a signed power.** A negative exponent divides. -/
theorem floor_mul_zpow_eq_scale (b n : ℕ) (e : ℤ) :
    ⌊(n : ℚ) * (b : ℚ) ^ e⌋ = scale (b ^ e.toNat) (b ^ (-e).toNat) n := by
  rw [← floor_mul_div_eq_scale, Nat.cast_pow, Nat.cast_pow]
  rcases le_total 0 e with he | he
  · obtain ⟨k, rfl⟩ := Int.eq_ofNat_of_zero_le he
    simp
  · obtain ⟨k, hk⟩ := Int.eq_ofNat_of_zero_le (neg_nonneg.mpr he)
    obtain rfl : e = -(k : ℤ) := by omega
    simp

/-! ## Remainders -/

/-- What rounding `n * (c / b)` drops, in units of `1 / b`. -/
def rest (c b n : ℕ) : ℕ := n * c % b

/-- `1` if rounding `n * (c / b)` drops anything. -/
def rounded (c b n : ℕ) : ℕ := if rest c b n = 0 then 0 else 1

@[simp] theorem rest_zero (c b : ℕ) : rest c b 0 = 0 := by
  rw [rest, Nat.zero_mul, Nat.zero_mod]

@[simp] theorem rounded_zero (c b : ℕ) : rounded c b 0 = 0 := by
  rw [rounded, rest_zero, if_pos rfl]

/-- A remainder stays below one unit, and vanishes if nothing is dropped. -/
theorem rest_add_rounded_le (hb : 0 < b) (n : ℕ) : rest c b n + rounded c b n ≤ rounded c b n * b := by
  have hlt : rest c b n < b := Nat.mod_lt _ hb
  rw [rounded]
  split
  · rename_i h
    rw [h, Nat.zero_mul]
  · rw [Nat.one_mul]
    exact hlt

theorem sum_rest_add_rounded_le (hb : 0 < b) (s : Multiset ℕ) :
    (s.map (rest c b)).sum + (s.map (rounded c b)).sum ≤ (s.map (rounded c b)).sum * b := by
  induction s using Multiset.induction_on with
  | empty => simp
  | cons n s ih =>
    rw [Multiset.map_cons, Multiset.sum_cons, Multiset.map_cons, Multiset.sum_cons, Nat.add_mul]
    have hn := rest_add_rounded_le (c := c) hb n
    omega

/-! ## Sums -/

theorem sum_mul_eq (s : Multiset ℕ) :
    s.sum * c = b * (s.map (scale c b)).sum + (s.map (rest c b)).sum := by
  induction s using Multiset.induction_on with
  | empty => simp
  | cons n s ih =>
    rw [Multiset.sum_cons, Multiset.map_cons, Multiset.sum_cons, Multiset.map_cons,
      Multiset.sum_cons, Nat.add_mul, Nat.mul_add, ih]
    have hn : b * scale c b n + rest c b n = n * c := Nat.div_add_mod _ _
    omega

/-- The sum scales to what its pieces do, and to what their remainders make up together. -/
theorem scale_sum_eq (hb : 0 < b) (s : Multiset ℕ) :
    scale c b s.sum = (s.map (scale c b)).sum + (s.map (rest c b)).sum / b := by
  rw [scale, sum_mul_eq (b := b), Nat.mul_add_div hb]

theorem sum_scale_le (hb : 0 < b) (s : Multiset ℕ) : (s.map (scale c b)).sum ≤ scale c b s.sum := by
  rw [scale_sum_eq hb]
  exact Nat.le_add_right _ _

/-- **The pieces lose at most one unit for each rounded piece after the first.** -/
theorem scale_sum_le (hb : 0 < b) (s : Multiset ℕ) :
    scale c b s.sum ≤ (s.map (scale c b)).sum + ((s.map (rounded c b)).sum - 1) := by
  have hrest := sum_rest_add_rounded_le (c := c) hb s
  rw [scale_sum_eq hb]
  refine Nat.add_le_add_left ?_ _
  rcases Nat.eq_zero_or_pos (s.map (rounded c b)).sum with h0 | hpos
  · rw [h0, Nat.zero_mul, Nat.add_zero, Nat.le_zero] at hrest
    rw [hrest, Nat.zero_div]
    exact Nat.zero_le _
  · refine Nat.le_sub_one_of_lt ((Nat.div_lt_iff_lt_mul hb).mpr ?_)
    omega

theorem sum_rounded_le_card (s : Multiset ℕ) : (s.map (rounded c b)).sum ≤ s.card := by
  induction s using Multiset.induction_on with
  | empty => simp
  | cons n s ih =>
    have hn : rounded c b n ≤ 1 := by
      rw [rounded]
      split <;> decide
    rw [Multiset.map_cons, Multiset.sum_cons, Multiset.card_cons]
    omega

/-! ## Computations that round down

A fallible function whose results are scaled amounts: what is known of scaling is known of its results,
wherever there are any. -/

section Splitting

variable {ε : Type*} {f : ℕ → Except ε ℕ}

/-- `f` grows with the amount, yields no more in pieces than at once, and at most one unit less for each
piece after the first. -/
structure SplitsDown (f : ℕ → Except ε ℕ) : Prop where
  mono : ∀ {m n x y : ℕ}, m ≤ n → f m = .ok x → f n = .ok y → x ≤ y
  pieces : ∀ {amounts parts : List ℕ} {whole : ℕ}, List.Forall₂ (fun n r ↦ f n = .ok r) amounts parts →
    f amounts.sum = .ok whole → parts.sum ≤ whole ∧ whole ≤ parts.sum + (amounts.length - 1)

theorem eq_map_scale (hf : ∀ {n r}, f n = .ok r → r = scale c b n) {amounts parts : List ℕ}
    (h : List.Forall₂ (fun n r ↦ f n = .ok r) amounts parts) : parts = amounts.map (scale c b) := by
  induction h with
  | nil => rfl
  | cons hn _ ih => rw [List.map_cons, ← ih, hf hn]

theorem splitsDown_of_scale (hb : 0 < b) (hf : ∀ {n r}, f n = .ok r → r = scale c b n) :
    SplitsDown f where
  mono hmn hx hy := by
    rw [hf hx, hf hy]
    exact scale_mono hmn
  pieces {amounts parts whole} hparts hwhole := by
    have hsum : parts.sum = ((amounts : Multiset ℕ).map (scale c b)).sum := by
      rw [eq_map_scale hf hparts, Multiset.map_coe, Multiset.sum_coe]
    have htotal : whole = scale c b (amounts : Multiset ℕ).sum := by
      rw [hf hwhole, Multiset.sum_coe]
    have hupper := scale_sum_le (c := c) hb (amounts : Multiset ℕ)
    have hcard := sum_rounded_le_card (c := c) (b := b) (amounts : Multiset ℕ)
    rw [Multiset.coe_card] at hcard
    rw [hsum, htotal]
    exact ⟨sum_scale_le hb _, hupper.trans (by omega)⟩

end Splitting

end FloorSum
