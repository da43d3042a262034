import Mathlib.Data.List.Perm.Basic
import OptionsProtocol.Library.Checked

/-!
# Reordering independent actions

A list of fallible actions is carried out from left to right and stops at the first failure. If two
neighbours that are independent can always be exchanged, with the same outcome, then so can blocks of
them, and a list of pairwise independent actions succeeds in every order if it does in one.

The two neighbours may leave states that differ in something that does not matter, such as the order of a
log: outcomes are compared by a relation that the actions respect. Exchanging them may need an invariant
that they all keep.
-/

namespace Reorder

open Except

variable {A σ ε : Type} {f : σ → A → Except ε σ} {I : σ → Prop} {R : σ → σ → Prop}
  {Indep : A → A → Prop} {s t u : σ} {a b : A} {l l' : List A}

theorem foldlM_cons_eq_ok :
    (a :: l).foldlM f s = .ok t ↔ ∃ u, f s a = .ok u ∧ l.foldlM f u = .ok t := by
  rw [List.foldlM_cons, bind_eq_ok]

theorem foldlM_keeps (hI : ∀ s a t, I s → f s a = .ok t → I t) (hs : I s)
    (h : l.foldlM f s = .ok t) : I t := by
  induction l generalizing s with
  | nil =>
    rw [List.foldlM_nil, pure_eq_ok] at h
    exact h ▸ hs
  | cons a l ih =>
    obtain ⟨u, hu, hrest⟩ := foldlM_cons_eq_ok.mp h
    exact ih (hI s a u hs hu) hrest

theorem foldlM_respects (hR : ∀ s s' a t, R s s' → f s a = .ok t → ∃ t', f s' a = .ok t' ∧ R t t')
    {s' : σ} (hs : R s s') (h : l.foldlM f s = .ok t) :
    ∃ t', l.foldlM f s' = .ok t' ∧ R t t' := by
  induction l generalizing s s' with
  | nil =>
    rw [List.foldlM_nil, pure_eq_ok] at h
    exact ⟨s', rfl, h ▸ hs⟩
  | cons a l ih =>
    obtain ⟨u, hu, hrest⟩ := foldlM_cons_eq_ok.mp h
    obtain ⟨u', hu', hRu⟩ := hR s s' a u hs hu
    obtain ⟨t', ht', hRt⟩ := ih hRu hrest
    exact ⟨t', foldlM_cons_eq_ok.mpr ⟨u', hu', ht'⟩, hRt⟩

/-! ## Exchanging blocks -/

/-- An action that is independent of all before it can come first. -/
theorem foldlM_slide (hI : ∀ s a t, I s → f s a = .ok t → I t)
    (hswap : ∀ s a b u t, I s → Indep a b → f s a = .ok u → f u b = .ok t →
      ∃ v, f s b = .ok v ∧ f v a = .ok t)
    (hs : I s) (hind : ∀ a ∈ l, Indep a b) (h : l.foldlM f s = .ok u) (hb : f u b = .ok t) :
    ∃ v, f s b = .ok v ∧ l.foldlM f v = .ok t := by
  induction l generalizing s with
  | nil =>
    rw [List.foldlM_nil, pure_eq_ok] at h
    subst h
    exact ⟨t, hb, rfl⟩
  | cons a l ih =>
    obtain ⟨w, hw, hrest⟩ := foldlM_cons_eq_ok.mp h
    obtain ⟨v, hv, hlast⟩ := ih (hI s a w hs hw) (fun c hc ↦ hind c (List.mem_cons_of_mem a hc)) hrest
    obtain ⟨x, hx, hxv⟩ := hswap s a b w v hs (hind a List.mem_cons_self) hw hv
    exact ⟨x, hx, foldlM_cons_eq_ok.mpr ⟨v, hxv, hlast⟩⟩

/-- **Independent blocks can be exchanged.** -/
theorem foldlM_exchange (hI : ∀ s a t, I s → f s a = .ok t → I t)
    (hswap : ∀ s a b u t, I s → Indep a b → f s a = .ok u → f u b = .ok t →
      ∃ v, f s b = .ok v ∧ f v a = .ok t)
    (hs : I s) (hind : ∀ a ∈ l, ∀ b ∈ l', Indep a b) (h : l.foldlM f s = .ok u)
    (h' : l'.foldlM f u = .ok t) : ∃ v, l'.foldlM f s = .ok v ∧ l.foldlM f v = .ok t := by
  induction l' generalizing s u with
  | nil =>
    rw [List.foldlM_nil, pure_eq_ok] at h'
    subst h'
    exact ⟨s, rfl, h⟩
  | cons b l' ih =>
    obtain ⟨w, hw, hrest⟩ := foldlM_cons_eq_ok.mp h'
    obtain ⟨x, hx, hlast⟩ := foldlM_slide hI hswap hs (fun a ha ↦ hind a ha b List.mem_cons_self) h hw
    obtain ⟨v, hv, hvt⟩ := ih (hI s b x hs hx)
      (fun a ha c hc ↦ hind a ha c (List.mem_cons_of_mem b hc)) hlast hrest
    exact ⟨v, foldlM_cons_eq_ok.mpr ⟨x, hx, hv⟩, hvt⟩

/-! ## Every order -/

/-- **Pairwise independent actions succeed in every order if they do in one**, with related outcomes. -/
theorem foldlM_perm (hsymm : ∀ a b, Indep a b → Indep b a) (hrefl : ∀ s, R s s)
    (htrans : ∀ s t u, R s t → R t u → R s u) (hI : ∀ s a t, I s → f s a = .ok t → I t)
    (hR : ∀ s s' a t, R s s' → f s a = .ok t → ∃ t', f s' a = .ok t' ∧ R t t')
    (hswap : ∀ s a b u t, I s → Indep a b → f s a = .ok u → f u b = .ok t →
      ∃ v t', f s b = .ok v ∧ f v a = .ok t' ∧ R t t')
    (hperm : l.Perm l') (hind : l.Pairwise Indep) (hs : I s) (h : l.foldlM f s = .ok t) :
    ∃ t', l'.foldlM f s = .ok t' ∧ R t t' := by
  induction hperm generalizing s t with
  | nil => exact ⟨t, h, hrefl t⟩
  | cons a _ ih =>
    obtain ⟨u, hu, hrest⟩ := foldlM_cons_eq_ok.mp h
    obtain ⟨t', ht', hRt⟩ := ih (List.pairwise_cons.mp hind).2 (hI s a u hs hu) hrest
    exact ⟨t', foldlM_cons_eq_ok.mpr ⟨u, hu, ht'⟩, hRt⟩
  | swap b a l =>
    obtain ⟨u, hu, htail⟩ := foldlM_cons_eq_ok.mp h
    obtain ⟨v, hv, hrest⟩ := foldlM_cons_eq_ok.mp htail
    have hab : Indep a b := (List.pairwise_cons.mp hind).1 b List.mem_cons_self
    obtain ⟨x, y, hx, hy, hRy⟩ := hswap s a b u v hs hab hu hv
    obtain ⟨t', ht', hRt⟩ := foldlM_respects hR hRy hrest
    exact ⟨t', foldlM_cons_eq_ok.mpr ⟨x, hx, foldlM_cons_eq_ok.mpr ⟨y, hy, ht'⟩⟩, hRt⟩
  | trans hp _ ih₁ ih₂ =>
    obtain ⟨t₁, ht₁, hR₁⟩ := ih₁ hind hs h
    have hind' := hp.pairwise hind (hsymm _ _)
    obtain ⟨t₂, ht₂, hR₂⟩ := ih₂ hind' hs ht₁
    exact ⟨t₂, ht₂, htrans t t₁ t₂ hR₁ hR₂⟩

end Reorder
