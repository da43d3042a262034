import Mathlib.Data.Finmap
import Mathlib.Algebra.BigOperators.Group.Multiset.Basic
import Mathlib.Algebra.Order.BigOperators.Group.Multiset
import Mathlib.Algebra.Order.Group.Nat

/-!
# Finite stores and their totals

A store maps finitely many keys to values. The representation is Mathlib's `Finmap`, which brings
extensional equality and the `lookup`/`insert`/`erase` API; what is added here is the *total* of a
store, a sum over its entries of any quantity in a commutative monoid, and the way a total moves
when one entry is written.

Every accounting argument about a store is an instance of `total_insert`: writing `v` at `k` trades
the old contribution of `k` for the new one. It is stated without subtraction, so that it holds in
any commutative monoid and leaves linear goals behind in `ℕ`.
-/

/-- A finite map from keys to values. -/
abbrev Store (K V : Type*) := Finmap fun _ : K ↦ V

namespace Store

variable {K V M : Type*}

/-- Every store is built by inserting fresh keys. -/
theorem induction_insert [DecidableEq K] {C : Store K V → Prop} (s : Store K V) (empty : C ∅)
    (insert : ∀ k v (s : Store K V), s.lookup k = none → C s → C (s.insert k v)) : C s := by
  induction s using Finmap.induction_on with
  | H a =>
    induction a using AList.insertRec with
    | H0 => exact empty
    | IH k v l hk ih =>
      rw [← Finmap.insert_toFinmap]
      exact insert k v _ (Finmap.lookup_eq_none.mpr hk) ih

/-! ## Totals -/

section Total

variable [AddCommMonoid M]

/-- The sum of `f` over the entries of a store. -/
def total (f : K → V → M) (s : Store K V) : M := (s.entries.map fun e ↦ f e.1 e.2).sum

@[simp] theorem total_empty (f : K → V → M) : total f (∅ : Store K V) = 0 := rfl

theorem total_zero (s : Store K V) : total (fun _ _ ↦ (0 : M)) s = 0 := by
  simp [total]

theorem total_add (f g : K → V → M) (s : Store K V) :
    total (fun k v ↦ f k v + g k v) s = total f s + total g s := by
  rw [total, Multiset.sum_map_add, total, total]

theorem total_comm {L W : Type*} (f : K → V → L → W → M) (s : Store K V) (t : Store L W) :
    total (fun k v ↦ total (fun l w ↦ f k v l w) t) s =
      total (fun l w ↦ total (fun k v ↦ f k v l w) s) t :=
  Multiset.sum_map_sum_map _ _

variable [DecidableEq K]

theorem mem_entries_iff {s : Store K V} {e : Sigma fun _ : K ↦ V} :
    e ∈ s.entries ↔ s.lookup e.1 = some e.2 := by
  induction s using Finmap.induction_on with
  | H a => exact (AList.mem_lookup_iff (s := a)).symm

theorem total_congr {f g : K → V → M} {s : Store K V}
    (h : ∀ k v, s.lookup k = some v → f k v = g k v) : total f s = total g s := by
  rw [total, total]
  exact congrArg Multiset.sum
    (Multiset.map_congr rfl fun e he ↦ h e.1 e.2 (mem_entries_iff.mp he))

theorem total_eq_zero {f : K → V → M} {s : Store K V}
    (h : ∀ k v, s.lookup k = some v → f k v = 0) : total f s = 0 := by
  rw [total_congr h, total_zero]

theorem insert_erase {s : Store K V} {k : K} {v : V} (h : s.lookup k = some v) :
    (s.erase k).insert k v = s := by
  refine Finmap.ext_lookup fun k' ↦ ?_
  by_cases hk : k' = k
  · subst hk
    rw [Finmap.lookup_insert, h]
  · rw [Finmap.lookup_insert_of_ne _ hk, Finmap.lookup_erase_ne hk]

theorem total_insert_of_lookup_eq_none (f : K → V → M) {s : Store K V} {k : K} (v : V)
    (h : s.lookup k = none) : total f (s.insert k v) = f k v + total f s := by
  rw [total, Finmap.entries_insert_of_notMem (Finmap.lookup_eq_none.mp h), Multiset.map_cons,
    Multiset.sum_cons, total]

theorem total_eq_add_erase (f : K → V → M) {s : Store K V} {k : K} {v : V}
    (h : s.lookup k = some v) : total f s = f k v + total f (s.erase k) := by
  conv_lhs => rw [← insert_erase h]
  exact total_insert_of_lookup_eq_none f v (Finmap.lookup_erase k s)

theorem insert_erase_self {s : Store K V} {k : K} (v : V) :
    (s.erase k).insert k v = s.insert k v := by
  refine Finmap.ext_lookup fun k' ↦ ?_
  by_cases hk : k' = k
  · subst hk
    rw [Finmap.lookup_insert, Finmap.lookup_insert]
  · rw [Finmap.lookup_insert_of_ne _ hk, Finmap.lookup_insert_of_ne _ hk,
      Finmap.lookup_erase_ne hk]

/-- **Writing one entry** trades the contribution it replaces for the new one. -/
theorem total_insert (f : K → V → M) (s : Store K V) (k : K) (v : V) :
    total f (s.insert k v) + (s.lookup k).elim 0 (f k) = total f s + f k v := by
  cases h : s.lookup k with
  | none =>
    rw [Option.elim_none, add_zero, total_insert_of_lookup_eq_none f v h, add_comm]
  | some w =>
    rw [Option.elim_some, total_eq_add_erase f h, ← insert_erase_self,
      total_insert_of_lookup_eq_none f v (Finmap.lookup_erase k s)]
    rw [add_comm (f k v), add_comm (f k w), add_assoc, add_assoc, add_comm (f k v)]

theorem total_insert_of_lookup (f : K → V → M) {s : Store K V} {k : K} {w : V} (v : V)
    (h : s.lookup k = some w) : total f (s.insert k v) + f k w = total f s + f k v := by
  have key := total_insert f s k v
  rwa [h, Option.elim_some] at key

theorem total_insert_of_agree {f g : K → V → M} {s : Store K V} {k : K} {w : V} (v : V)
    (h : s.lookup k = some w)
    (hfg : ∀ l u, s.lookup l = some u → l ≠ k → f l u = g l u) :
    total g (s.insert k v) + f k w = total f s + g k v := by
  have hrest : total f (s.erase k) = total g (s.erase k) := by
    refine total_congr fun l u hl ↦ ?_
    by_cases hlk : l = k
    · subst hlk
      rw [Finmap.lookup_erase] at hl
      exact absurd hl (by simp)
    · rw [Finmap.lookup_erase_ne hlk] at hl
      exact hfg l u hl hlk
  rw [← insert_erase_self, total_insert_of_lookup_eq_none g v (Finmap.lookup_erase k s),
    total_eq_add_erase f h, hrest, add_assoc, add_comm (total g _) (f k w), add_comm (g k v)]

/-- Of a quantity that lives at one key only, the total is its value there. -/
theorem total_single (f : K → V → M) (s : Store K V) (l : K) :
    total (fun k v ↦ if k = l then f k v else 0) s = (s.lookup l).elim 0 (f l) := by
  cases h : s.lookup l with
  | none =>
    refine total_eq_zero fun k v hk ↦ if_neg ?_
    rintro rfl
    rw [h] at hk
    exact absurd hk (by simp)
  | some v =>
    have hrest : total (fun k v ↦ if k = l then f k v else 0) (s.erase l) = 0 := by
      refine total_eq_zero fun k w hk ↦ if_neg ?_
      rintro rfl
      rw [Finmap.lookup_erase] at hk
      exact absurd hk (by simp)
    rw [total_eq_add_erase _ h, hrest, if_pos rfl, add_zero, Option.elim_some]

theorem total_insert_eq_self [IsRightCancelAdd M] {f : K → V → M} {s : Store K V} {k : K} {v : V}
    (h : (s.lookup k).elim 0 (f k) = f k v) : total f (s.insert k v) = total f s := by
  have key := total_insert f s k v
  rw [h] at key
  exact add_right_cancel key

end Total

/-! ## Totals and order -/

section Order

variable [DecidableEq K]

theorem le_total (f : K → V → ℕ) {s : Store K V} {k : K} {v : V} (h : s.lookup k = some v) :
    f k v ≤ total f s := by
  rw [total_eq_add_erase f h]
  exact Nat.le_add_right _ _

theorem exists_mem_keys_iff {p : K → Prop} [DecidablePred p] {s : Store K V} :
    (∃ k ∈ s.keys, p k) ↔ total (fun k _ ↦ if p k then 1 else 0) s ≠ 0 := by
  constructor
  · rintro ⟨k, hk, hp⟩ hzero
    obtain ⟨v, hv⟩ := Finmap.mem_iff.mp (Finmap.mem_keys.mp hk)
    have hle := le_total (fun k (_ : V) ↦ if p k then 1 else 0) hv
    rw [hzero, if_pos hp] at hle
    exact absurd hle (by decide)
  · intro hne
    by_contra hnone
    refine hne (total_eq_zero fun k v hv ↦ if_neg fun hp ↦ hnone ⟨k, ?_, hp⟩)
    exact Finmap.mem_keys.mpr (Finmap.mem_of_lookup_eq_some hv)

theorem add_le_total (f : K → V → ℕ) {s : Store K V} {k l : K} {v w : V}
    (hk : s.lookup k = some v) (hl : s.lookup l = some w) (hne : k ≠ l) :
    f k v + f l w ≤ total f s := by
  rw [total_eq_add_erase f hk]
  have hl' : (s.erase k).lookup l = some w := by rw [Finmap.lookup_erase_ne (Ne.symm hne), hl]
  exact Nat.add_le_add_left (le_total f hl') _

/-- Totals of two stores are ordered if every positive contribution to the first is matched at the
same key of the second. -/
theorem total_le_total_of_lookup {W : Type*} {f : K → V → ℕ} {g : K → W → ℕ} {s : Store K V}
    {t : Store K W}
    (h : ∀ k v, s.lookup k = some v → 0 < f k v → ∃ w, t.lookup k = some w ∧ f k v ≤ g k w) :
    total f s ≤ total g t := by
  induction s using induction_insert generalizing t with
  | empty => simp
  | insert k v s hnone ih =>
    rw [total_insert_of_lookup_eq_none f v hnone]
    have hrest : ∀ l w, s.lookup l = some w → l ≠ k ∧ (s.insert k v).lookup l = some w := by
      intro l w hl
      have hne : l ≠ k := by
        rintro rfl
        rw [hnone] at hl
        exact absurd hl (by simp)
      exact ⟨hne, by rw [Finmap.lookup_insert_of_ne _ hne, hl]⟩
    rcases Nat.eq_zero_or_pos (f k v) with h0 | hpos
    · rw [h0, Nat.zero_add]
      exact ih fun l w hl hlpos ↦ h l w (hrest l w hl).2 hlpos
    · obtain ⟨w, hw, hle⟩ := h k v (Finmap.lookup_insert s) hpos
      rw [total_eq_add_erase g hw]
      refine Nat.add_le_add hle (ih fun l u hl hlpos ↦ ?_)
      obtain ⟨hne, hl'⟩ := hrest l u hl
      obtain ⟨u', hu', hle'⟩ := h l u hl' hlpos
      exact ⟨u', by rw [Finmap.lookup_erase_ne hne, hu'], hle'⟩

theorem total_eq_of_lookup {f g : K → V → ℕ} {s t : Store K V}
    (hst : ∀ k v, s.lookup k = some v → 0 < f k v → t.lookup k = some v ∧ f k v = g k v)
    (hts : ∀ k v, t.lookup k = some v → 0 < g k v → s.lookup k = some v ∧ f k v = g k v) :
    total f s = total g t :=
  Nat.le_antisymm
    (total_le_total_of_lookup fun k v hv hpos ↦
      ⟨v, (hst k v hv hpos).1, (hst k v hv hpos).2.le⟩)
    (total_le_total_of_lookup fun k v hv hpos ↦
      ⟨v, (hts k v hv hpos).1, (hts k v hv hpos).2.ge⟩)

theorem total_le_total {f g : K → V → ℕ} {s : Store K V}
    (h : ∀ k v, s.lookup k = some v → f k v ≤ g k v) : total f s ≤ total g s := by
  rw [total, total]
  exact Multiset.sum_map_le_sum_map _ _ fun e he ↦ h e.1 e.2 (mem_entries_iff.mp he)

end Order

theorem lookup_insert_eq_some [DecidableEq K] {s : Store K V} {k l : K} {v w : V} :
    (s.insert k v).lookup l = some w ↔ (l = k ∧ w = v) ∨ (l ≠ k ∧ s.lookup l = some w) := by
  by_cases h : l = k
  · subst h
    rw [Finmap.lookup_insert]
    simp [eq_comm]
  · rw [Finmap.lookup_insert_of_ne _ h]
    simp [h]

theorem forall_lookup_insert [DecidableEq K] {P : K → V → Prop} {s : Store K V} {k : K} {v : V}
    (h : ∀ l w, s.lookup l = some w → P l w) (hv : P k v) (l : K) (w : V)
    (hl : (s.insert k v).lookup l = some w) : P l w := by
  rcases lookup_insert_eq_some.mp hl with ⟨rfl, rfl⟩ | ⟨-, hl⟩
  · exact hv
  · exact h l w hl

theorem lookup_insert_eq [DecidableEq K] (s : Store K V) (k l : K) (v : V) :
    (s.insert k v).lookup l = if l = k then some v else s.lookup l := by
  by_cases h : l = k
  · subst h
    rw [Finmap.lookup_insert, if_pos rfl]
  · rw [Finmap.lookup_insert_of_ne _ h, if_neg h]

theorem isSome_lookup_insert [DecidableEq K] (s : Store K V) (k l : K) (v : V) :
    ((s.insert k v).lookup l).isSome = (decide (l = k) || (s.lookup l).isSome) := by
  rw [lookup_insert_eq]
  by_cases h : l = k
  · rw [if_pos h, decide_eq_true h, Bool.true_or, Option.isSome_some]
  · rw [if_neg h, decide_eq_false h, Bool.false_or]

end Store
