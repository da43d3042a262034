import Mathlib.Data.List.Induction
import OptionsProtocol.Library.Trace

/-!
# Journals

A system may write down what it does. A reader who sees nothing but the journal keeps a view of the
system and brings it up to date with every entry; an entry may be impossible in a view, and it may
leave open what happened. `Reading R v es v'` says that `es` can be read from the view `v` on, and
that `v'` is a view it may lead to.

* `Run.reading` — if what every step writes can be read from the view of the state before to the
  view of the state after, then so can the journal of a run;
* `Reading.history` — what each entry keeps of the view and of the entries read so far, holds
  throughout;
* `Reading.foldlM_eq_some` — entries that leave nothing open determine the view.
-/

/-- The entries can be read one after another, each as `R` allows. -/
inductive Reading {V E : Type*} (R : V → E → V → Prop) : V → List E → V → Prop
  | nil (v : V) : Reading R v [] v
  | cons {v v' v'' : V} {e : E} {es : List E} :
      R v e v' → Reading R v' es v'' → Reading R v (e :: es) v''

namespace Reading

variable {V E : Type*} {R : V → E → V → Prop} {v v' v'' : V} {e : E} {es fs : List E}

theorem single (h : R v e v') : Reading R v [e] v' := .cons h (.nil v')

theorem append (h : Reading R v es v') (h' : Reading R v' fs v'') : Reading R v (es ++ fs) v'' := by
  induction h with
  | nil v => exact h'
  | cons hr _ ih => exact .cons hr (ih h')

theorem split (h : Reading R v (es ++ fs) v'') :
    ∃ v', Reading R v es v' ∧ Reading R v' fs v'' := by
  induction es generalizing v with
  | nil => exact ⟨v, .nil v, h⟩
  | cons e es ih =>
    rw [List.cons_append] at h
    cases h with
    | cons hr h =>
      obtain ⟨v', hes, hfs⟩ := ih h
      exact ⟨v', .cons hr hes, hfs⟩

theorem split_cons (h : Reading R v (es ++ e :: fs) v'') :
    ∃ u u', Reading R v es u ∧ R u e u' ∧ Reading R u' fs v'' := by
  obtain ⟨u, hes, h⟩ := h.split
  cases h with
  | cons hr hfs => exact ⟨u, _, hes, hr, hfs⟩

/-- **The history rule for readers.** -/
theorem history {I : V → List E → Prop} (h₀ : I v [])
    (hstep : ∀ u fs e u', I u fs → R u e u' → I u' (fs ++ [e])) (h : Reading R v es v') : I v' es := by
  induction es using List.reverseRecOn generalizing v' with
  | nil =>
    cases h
    exact h₀
  | append_singleton es e ih =>
    obtain ⟨u, u', hes, hr, hnil⟩ := h.split_cons
    cases hnil with
    | nil => exact hstep _ _ _ _ (ih hes) hr

/-- What every entry keeps, a reading keeps, and no entry it excludes is ever read. -/
theorem never {I : V → Prop} {Q : E → Prop} (hstep : ∀ u e u', I u → R u e u' → I u' ∧ ¬Q e)
    (h : Reading R v es v') (hv : I v) : I v' ∧ ∀ e ∈ es, ¬Q e := by
  induction h with
  | nil v => exact ⟨hv, by simp⟩
  | @cons u u' _ e es hr _ ih =>
    obtain ⟨hu', he⟩ := hstep u e u' hv hr
    obtain ⟨hlast, hes⟩ := ih hu'
    refine ⟨hlast, fun f hf ↦ ?_⟩
    rcases List.mem_cons.mp hf with rfl | hf
    · exact he
    · exact hes f hf

/-- **Entries that leave nothing open** are read by a function. -/
theorem foldlM_eq_some {read : V → E → Option V} {P : E → Prop}
    (hread : ∀ u e u', P e → R u e u' → read u e = some u') (h : Reading R v es v')
    (hes : ∀ e ∈ es, P e) : es.foldlM read v = some v' := by
  induction h with
  | nil v => rfl
  | @cons u u' _ e es hr _ ih =>
    rw [List.foldlM_cons, hread u e u' (hes e List.mem_cons_self) hr, Option.bind_eq_bind,
      Option.bind_some]
    exact ih fun f hf ↦ hes f (List.mem_cons_of_mem _ hf)

end Reading

/-- **Reading along.** `log` is the journal of a state, and `view` what its reader is after. -/
theorem Run.reading {σ Λ V E : Type*} {Step : σ → Λ → σ → Prop} {I : σ → Prop} {s₀ s : σ}
    {tr : List (Transition σ Λ)} {R : V → E → V → Prop} {log : σ → List E} {view : σ → V}
    (h₀ : I s₀) (hinv : ∀ s l s', I s → Step s l s' → I s')
    (hstep : ∀ s l s', I s → Step s l s' →
      ∃ es, log s' = log s ++ es ∧ Reading R (view s) es (view s'))
    (hrun : Run Step s₀ tr s) : ∃ es, log s = log s₀ ++ es ∧ Reading R (view s₀) es (view s) := by
  induction hrun with
  | nil => exact ⟨[], (List.append_nil _).symm, .nil _⟩
  | snoc hr hs ih =>
    obtain ⟨es, hlog, hes⟩ := ih
    obtain ⟨fs, hlog', hfs⟩ := hstep _ _ _ (hr.invariant h₀ hinv) hs
    exact ⟨es ++ fs, by rw [hlog', hlog, List.append_assoc], hes.append hfs⟩
