import Mathlib.Algebra.BigOperators.Group.Finset.Basic
import Mathlib.Algebra.BigOperators.Group.List.Basic
import Mathlib.Algebra.Order.BigOperators.Group.List
import Mathlib.Algebra.Order.Ring.Nat
import Mathlib.Order.Defs.Unbundled
import Mathlib.Tactic.Common

/-!
# Runs of labelled transition systems

A system is a relation `Step s l s'`: in state `s` the move labelled `l` may lead to `s'`. A run is
a list of transitions, oldest first, each of which starts where the previous one ended. Keeping the
transitions rather than the states alone is what lets a quantity be a *history*: the sum over the
run of something each transition decides.

A few rules carry the inductions of every system:

* `Run.invariant` — what one step preserves, a run preserves;
* `Run.accounting` — if every step balances an account, so does the run, with the inflow and the
  outflow summed along it;
* `Run.simulate` and `Run.project` — a run of one system is a run of another, with any number of steps for
  each of its own, or with at most one;
* `Run.split` and `Run.after` — a run can be cut at any of its transitions, so that what a
  transition establishes can be followed from there on;
* `Run.exists_origin` and `Run.once` — what a run ends with and did not start with has a first
  transition, and a move that can only be made as long as it has not been made is made once.
-/

/-- One move of a system, with the states on both sides. -/
structure Transition (σ Λ : Type*) where
  /-- The state before. -/
  pre : σ
  /-- The move. -/
  label : Λ
  /-- The state after. -/
  post : σ

/-- The move as another system sees it, which looks at a part of the state and at some of the moves. -/
def Transition.seen {σ Λ τ M : Type*} (p : σ → τ) (q : Λ → Option M) (t : Transition σ Λ) :
    Option (Transition τ M) :=
  (q t.label).map fun m ↦ ⟨p t.pre, m, p t.post⟩

/-- Where the other system's run can be cut, so can the run. -/
theorem Transition.exists_split_of_seen {σ Λ τ M : Type*} {p : σ → τ} {q : Λ → Option M}
    {tr : List (Transition σ Λ)} {as' bs' : List (Transition τ M)} {t' : Transition τ M}
    (h : tr.filterMap (Transition.seen p q) = as' ++ t' :: bs') :
    ∃ as t bs, tr = as ++ t :: bs ∧ t.seen p q = some t' ∧ bs.filterMap (Transition.seen p q) = bs' := by
  obtain ⟨l₁, l₂, rfl, -, h₂⟩ := List.filterMap_eq_append_iff.mp h
  obtain ⟨cs, t, bs, rfl, -, ht, hbs⟩ := List.filterMap_eq_cons_iff.mp h₂
  exact ⟨l₁ ++ cs, t, bs, by simp, ht, hbs⟩

/-- Runs from `s₀`: the transitions taken, oldest first, and the state reached. -/
inductive Run {σ Λ : Type*} (Step : σ → Λ → σ → Prop) (s₀ : σ) :
    List (Transition σ Λ) → σ → Prop
  | nil : Run Step s₀ [] s₀
  | snoc {tr : List (Transition σ Λ)} {s s' : σ} {l : Λ} :
      Run Step s₀ tr s → Step s l s' → Run Step s₀ (tr ++ [⟨s, l, s'⟩]) s'

namespace Run

variable {σ Λ : Type*} {Step : σ → Λ → σ → Prop} {s₀ s s' : σ} {tr : List (Transition σ Λ)}

/-! ## Invariants -/

/-- **The invariant rule**, for steps whose transitions satisfy `Q`: what such a step preserves,
a run of them preserves. -/
theorem invariant_of {I : σ → Prop} {Q : Transition σ Λ → Prop} (h₀ : I s₀)
    (hstep : ∀ s l s', I s → Step s l s' → Q ⟨s, l, s'⟩ → I s') (hrun : Run Step s₀ tr s)
    (hQ : ∀ t ∈ tr, Q t) : I s := by
  induction hrun with
  | nil => exact h₀
  | snoc _ hs ih =>
    exact hstep _ _ _ (ih fun t ht ↦ hQ t (List.mem_append_left _ ht)) hs
      (hQ _ (List.mem_append_right _ (List.mem_singleton_self _)))

/-- **The rule of the stretch**: such an invariant holds before each of the transitions, too. -/
theorem throughout {I : σ → Prop} {Q : Transition σ Λ → Prop} (h₀ : I s₀)
    (hstep : ∀ s l s', I s → Step s l s' → Q ⟨s, l, s'⟩ → I s') (hrun : Run Step s₀ tr s)
    (hQ : ∀ t ∈ tr, Q t) : I s ∧ ∀ t ∈ tr, I t.pre := by
  induction hrun with
  | nil => exact ⟨h₀, by simp⟩
  | snoc _ hs ih =>
    obtain ⟨hI, hpre⟩ := ih fun t ht ↦ hQ t (List.mem_append_left _ ht)
    have hq := hQ _ (List.mem_append_right _ (List.mem_singleton_self _))
    refine ⟨hstep _ _ _ hI hs hq, fun t ht ↦ ?_⟩
    rcases List.mem_append.mp ht with h | h
    · exact hpre t h
    · rw [List.mem_singleton] at h
      subst h
      exact hI

/-- The invariant rule. -/
theorem invariant {I : σ → Prop} (h₀ : I s₀) (hstep : ∀ s l s', I s → Step s l s' → I s')
    (hrun : Run Step s₀ tr s) : I s :=
  invariant_of (Q := fun _ ↦ True) h₀ (fun s l s' hI hs _ ↦ hstep s l s' hI hs) hrun
    fun _ _ ↦ trivial

theorem step_of_mem (hrun : Run Step s₀ tr s) {t : Transition σ Λ} (ht : t ∈ tr) :
    Step t.pre t.label t.post := by
  induction hrun with
  | nil => exact absurd ht (by simp)
  | snoc _ hs ih =>
    rcases List.mem_append.mp ht with h | h
    · exact ih h
    · rw [List.mem_singleton] at h
      subst h
      exact hs

theorem pre_of_mem {I : σ → Prop} (h₀ : I s₀) (hstep : ∀ s l s', I s → Step s l s' → I s')
    (hrun : Run Step s₀ tr s) {t : Transition σ Λ} (ht : t ∈ tr) : I t.pre := by
  induction hrun with
  | nil => exact absurd ht (by simp)
  | snoc hr _ ih =>
    rcases List.mem_append.mp ht with h | h
    · exact ih h
    · rw [List.mem_singleton] at h
      subst h
      exact invariant h₀ hstep hr

/-! ## Composition -/

theorem append {tr' : List (Transition σ Λ)} (h : Run Step s₀ tr s) (h' : Run Step s tr' s') :
    Run Step s₀ (tr ++ tr') s' := by
  induction h' with
  | nil => rwa [List.append_nil]
  | snoc _ hs ih =>
    rw [← List.append_assoc]
    exact ih.snoc hs

theorem single {l : Λ} (h : Step s l s') : Run Step s [⟨s, l, s'⟩] s' := by
  have := (nil : Run Step s [] s).snoc h
  rwa [List.nil_append] at this

/-- **The simulation rule.** A run of one system, each of whose steps is a run of another from the
states that satisfy an invariant `J` of the other, is a run of the other. `P` is what is known of
the transitions of the one, `Q` what follows for those of the other. -/
theorem simulate {τ M : Type*} {Step' : τ → M → τ → Prop} {p : σ → τ} {J : τ → Prop}
    {P : Transition σ Λ → Prop} {Q : Transition τ M → Prop} (h₀ : J (p s₀))
    (hJ : ∀ u m u', J u → Step' u m u' → J u')
    (hsim : ∀ s l s', J (p s) → Step s l s' → P ⟨s, l, s'⟩ →
      ∃ tr, Run Step' (p s) tr (p s') ∧ ∀ t ∈ tr, Q t)
    (hrun : Run Step s₀ tr s) (hP : ∀ t ∈ tr, P t) :
    ∃ tr', Run Step' (p s₀) tr' (p s) ∧ ∀ t ∈ tr', Q t := by
  induction hrun with
  | nil => exact ⟨[], nil, by simp⟩
  | snoc _ hs ih =>
    obtain ⟨tr₁, h₁, hQ₁⟩ := ih fun t ht ↦ hP t (List.mem_append_left _ ht)
    obtain ⟨tr₂, h₂, hQ₂⟩ := hsim _ _ _ (invariant h₀ hJ h₁) hs
      (hP _ (List.mem_append_right _ (List.mem_singleton_self _)))
    refine ⟨tr₁ ++ tr₂, h₁.append h₂, fun t ht ↦ ?_⟩
    exact (List.mem_append.mp ht).elim (hQ₁ t) (hQ₂ t)

/-- **The projection rule.** Where each step of one system is a step of another or leaves what the other
looks at as it was, a run of the one is a run of the other, transition by transition. -/
theorem project {τ M : Type*} {Step' : τ → M → τ → Prop} {p : σ → τ} {q : Λ → Option M} {I : σ → Prop}
    (h₀ : I s₀) (hI : ∀ s l s', I s → Step s l s' → I s')
    (hstep : ∀ s l s', I s → Step s l s' → (q l).elim (p s' = p s) fun m ↦ Step' (p s) m (p s'))
    (hrun : Run Step s₀ tr s) : Run Step' (p s₀) (tr.filterMap (Transition.seen p q)) (p s) := by
  induction hrun with
  | nil => exact nil
  | @snoc tr u u' l hr hs ih =>
    have hseen := hstep _ _ _ (invariant h₀ hI hr) hs
    rw [List.filterMap_append]
    cases hl : q l with
    | none =>
      rw [hl, Option.elim_none] at hseen
      simpa [Transition.seen, hl, hseen] using ih
    | some m =>
      rw [hl, Option.elim_some] at hseen
      simpa [Transition.seen, hl] using ih.snoc hseen

theorem split {as bs : List (Transition σ Λ)} {t : Transition σ Λ}
    (hrun : Run Step s₀ (as ++ t :: bs) s) :
    Run Step s₀ as t.pre ∧ Step t.pre t.label t.post ∧ Run Step t.post bs s := by
  generalize htr : as ++ t :: bs = tr at hrun
  induction hrun generalizing bs with
  | nil => simp at htr
  | @snoc tr' u u' l hr hs ih =>
    rcases List.eq_nil_or_concat bs with rfl | ⟨bs', b, rfl⟩
    · obtain ⟨rfl, ht⟩ := List.append_inj' htr rfl
      rw [List.singleton_inj] at ht
      subst ht
      exact ⟨hr, hs, nil⟩
    · rw [List.concat_eq_append, ← List.cons_append, ← List.append_assoc] at htr
      obtain ⟨htr', hb⟩ := List.append_inj' htr rfl
      rw [List.singleton_inj] at hb
      subst hb
      obtain ⟨h₁, h₂, h₃⟩ := ih htr'
      rw [List.concat_eq_append]
      exact ⟨h₁, h₂, h₃.snoc hs⟩

/-- **Persistence.** What a transition establishes and every later step keeps holds before every
later transition and at the end. -/
theorem after {I : σ → Prop} (hstep : ∀ s l s', I s → Step s l s' → I s')
    {as bs : List (Transition σ Λ)} {t : Transition σ Λ}
    (hrun : Run Step s₀ (as ++ t :: bs) s) (ht : I t.post) : I s ∧ ∀ u ∈ bs, I u.pre :=
  ⟨invariant ht hstep (split hrun).2.2, fun _ hu ↦ pre_of_mem ht hstep (split hrun).2.2 hu⟩

/-- **The origin rule.** What holds at the end of a run and not at its start was brought about by one
of its transitions. -/
theorem exists_origin {P : σ → Prop} (hrun : Run Step s₀ tr s) (h₀ : ¬P s₀) (hs : P s) :
    ∃ as t bs, tr = as ++ t :: bs ∧ ¬P t.pre ∧ P t.post := by
  induction hrun with
  | nil => exact absurd hs h₀
  | @snoc tr u u' l hr hstep ih =>
    by_cases hu : P u
    · obtain ⟨as, t, bs, rfl, hpre, hpost⟩ := ih hu
      exact ⟨as, t, bs ++ [⟨u, l, u'⟩], by simp, hpre, hpost⟩
    · exact ⟨tr, ⟨u, l, u'⟩, [], rfl, hu, hs⟩

/-- **The rule of the first time.** A move that is possible only as long as `P` fails, and makes `P`
hold for good, is made at most once. -/
theorem once {I P : σ → Prop} {Q : Λ → Prop} (h₀ : I s₀)
    (hinv : ∀ s l s', I s → Step s l s' → I s')
    (hkeep : ∀ s l s', I s → Step s l s' → P s → P s')
    (hfirst : ∀ s l s', I s → Step s l s' → Q l → ¬P s ∧ P s') {as bs : List (Transition σ Λ)}
    {t : Transition σ Λ} (hrun : Run Step s₀ (as ++ t :: bs) s) (ht : Q t.label) :
    ∀ u ∈ as ++ bs, ¬Q u.label := by
  have hinv' : ∀ s l s', I s ∧ P s → Step s l s' → I s' ∧ P s' := fun _ _ _ h hs ↦
    ⟨hinv _ _ _ h.1 hs, hkeep _ _ _ h.1 hs h.2⟩
  obtain ⟨hpre, hstep, -⟩ := hrun.split
  have hI : I t.pre := hpre.invariant h₀ hinv
  obtain ⟨hnot, hpost⟩ := hfirst _ _ _ hI hstep ht
  intro u hu hQ
  rcases List.mem_append.mp hu with hu | hu
  · obtain ⟨cs, ds, rfl⟩ := List.append_of_mem hu
    obtain ⟨hpre', hstep', -⟩ := hpre.split
    have hI' : I u.pre := hpre'.invariant h₀ hinv
    have hafter := hpre.after hinv' ⟨hinv _ _ _ hI' hstep', (hfirst _ _ _ hI' hstep' hQ).2⟩
    exact hnot hafter.1.2
  · have hafter := hrun.after hinv' ⟨hinv _ _ _ hI hstep, hpost⟩
    obtain ⟨hIu, hPu⟩ := hafter.2 u hu
    exact (hfirst _ _ _ hIu (hrun.step_of_mem (by simp [hu])) hQ).1 hPu

/-! ## Accounting -/

section Accounting

/-- The sum along a run of what each transition contributes. -/
def history (f : Transition σ Λ → ℕ) (tr : List (Transition σ Λ)) : ℕ := (tr.map f).sum

@[simp] theorem history_nil (f : Transition σ Λ → ℕ) : history f [] = 0 := rfl

@[simp] theorem history_snoc (f : Transition σ Λ → ℕ) (tr : List (Transition σ Λ))
    (t : Transition σ Λ) : history f (tr ++ [t]) = history f tr + f t := by
  simp [history]

@[simp] theorem history_zero (tr : List (Transition σ Λ)) : history (fun _ ↦ 0) tr = 0 := by
  simp [history]

theorem history_add (f g : Transition σ Λ → ℕ) (tr : List (Transition σ Λ)) :
    history (fun t ↦ f t + g t) tr = history f tr + history g tr := by
  simp [history, List.sum_map_add]

theorem history_sum {ι : Type*} (S : Finset ι) (f : ι → Transition σ Λ → ℕ)
    (tr : List (Transition σ Λ)) :
    history (fun t ↦ S.sum fun i ↦ f i t) tr = S.sum fun i ↦ history (f i) tr := by
  induction tr with
  | nil => simp
  | cons t ts ih =>
    simp only [history, List.map_cons, List.sum_cons, Finset.sum_add_distrib] at ih ⊢
    rw [ih]

theorem history_mono {f g : Transition σ Λ → ℕ} {tr : List (Transition σ Λ)}
    (h : ∀ t ∈ tr, f t ≤ g t) : history f tr ≤ history g tr :=
  List.sum_le_sum h

/-- What another system's run adds up to, with nothing for the moves it does not see. -/
theorem history_seen {τ M : Type*} {p : σ → τ} {q : Λ → Option M} (f : Transition τ M → ℕ)
    (tr : List (Transition σ Λ)) :
    history f (tr.filterMap (Transition.seen p q)) = history (fun t ↦ (t.seen p q).elim 0 f) tr := by
  induction tr with
  | nil => rfl
  | cons t tr ih =>
    simp only [history, List.map_cons, List.sum_cons] at ih ⊢
    cases ht : t.seen p q with
    | none => rw [List.filterMap_cons_none ht, ih, Option.elim_none, Nat.zero_add]
    | some t' => rw [List.filterMap_cons_some ht, List.map_cons, List.sum_cons, ih, Option.elim_some]

/-- **The history rule**: an invariant of the state and of what has been summed up so far. -/
theorem invariant_history {f : Transition σ Λ → ℕ} {I : σ → ℕ → Prop} (h₀ : I s₀ 0)
    (hstep : ∀ s l s' n, I s n → Step s l s' → I s' (n + f ⟨s, l, s'⟩)) (hrun : Run Step s₀ tr s) :
    I s (history f tr) := by
  induction hrun with
  | nil => exact h₀
  | snoc _ hs ih =>
    rw [history_snoc]
    exact hstep _ _ _ _ ih hs

variable {I : σ → Prop} {Q : Transition σ Λ → Prop} (assets liabilities : σ → ℕ)
  (inflow outflow : Transition σ Λ → ℕ)

/-- **The accounting rule.** If every step changes assets and liabilities by the same amount, up to
an inflow and an outflow, then so does a run, up to the inflows and outflows summed along it. -/
theorem accounting (h₀ : I s₀) (hstep : ∀ s l s', I s → Step s l s' → Q ⟨s, l, s'⟩ → I s')
    (hbal : ∀ s l s', I s → Step s l s' → Q ⟨s, l, s'⟩ →
      assets s' + liabilities s + outflow ⟨s, l, s'⟩ =
        assets s + liabilities s' + inflow ⟨s, l, s'⟩)
    (hrun : Run Step s₀ tr s) (hQ : ∀ t ∈ tr, Q t) :
    assets s + liabilities s₀ + history outflow tr =
      assets s₀ + liabilities s + history inflow tr := by
  induction hrun with
  | nil => rfl
  | @snoc tr u u' l hr hs ih =>
    have hQ' : ∀ t ∈ tr, Q t := fun t ht ↦ hQ t (List.mem_append_left _ ht)
    have hq : Q ⟨u, l, u'⟩ := hQ _ (List.mem_append_right _ (List.mem_singleton_self _))
    have hlast := hbal _ _ _ (invariant_of h₀ hstep hr hQ') hs hq
    have hprev := ih hQ'
    rw [history_snoc, history_snoc]
    omega

/-- The rule for assets that may fall short of the liabilities they started with. -/
theorem accounting_le (h₀ : I s₀) (hstep : ∀ s l s', I s → Step s l s' → Q ⟨s, l, s'⟩ → I s')
    (hbal : ∀ s l s', I s → Step s l s' → Q ⟨s, l, s'⟩ →
      assets s' + liabilities s + outflow ⟨s, l, s'⟩ ≤
        assets s + liabilities s' + inflow ⟨s, l, s'⟩)
    (hrun : Run Step s₀ tr s) (hQ : ∀ t ∈ tr, Q t) :
    assets s + liabilities s₀ + history outflow tr ≤
      assets s₀ + liabilities s + history inflow tr := by
  induction hrun with
  | nil => exact le_rfl
  | @snoc tr u u' l hr hs ih =>
    have hQ' : ∀ t ∈ tr, Q t := fun t ht ↦ hQ t (List.mem_append_left _ ht)
    have hq : Q ⟨u, l, u'⟩ := hQ _ (List.mem_append_right _ (List.mem_singleton_self _))
    have hlast := hbal _ _ _ (invariant_of h₀ hstep hr hQ') hs hq
    have hprev := ih hQ'
    rw [history_snoc, history_snoc]
    omega

end Accounting

/-! ## Scripts

A script is a list of actions a partial function can carry out. If each action of a script is a step
of the system, playing the script is a run, so that a concrete run is checked by evaluation. -/

section Script

variable {A : Type*} (next : A → σ → Option σ) (label : A → Λ)

/-- The script can be played to its end. -/
def playable : σ → List A → Bool
  | _, [] => true
  | s, a :: as => (next a s).any fun s' ↦ playable s' as

/-- The state a script leads to; where it cannot be continued, the state it stops in. -/
def playState : σ → List A → σ
  | s, [] => s
  | s, a :: as => (next a s).elim s fun s' ↦ playState s' as

/-- The transitions a script takes. -/
def playTrace : σ → List A → List (Transition σ Λ)
  | _, [] => []
  | s, a :: as => (next a s).elim [] fun s' ↦ ⟨s, label a, s'⟩ :: playTrace s' as

theorem of_script {as : List A} {s : σ}
    (hstep : ∀ a ∈ as, ∀ s s', next a s = some s' → Step s (label a) s')
    (hplay : playable next s as = true) :
    Run Step s (playTrace next label s as) (playState next s as) := by
  induction as generalizing s with
  | nil => exact nil
  | cons a as ih =>
    rw [playable, Option.any_eq_true] at hplay
    obtain ⟨s', hs', hplay'⟩ := hplay
    have hfirst : Step s (label a) s' := hstep a List.mem_cons_self s s' hs'
    have hrest := ih (fun b hb ↦ hstep b (List.mem_cons_of_mem _ hb)) hplay'
    rw [playTrace, playState, hs', Option.elim_some, Option.elim_some]
    exact (single hfirst).append hrest

/-- The last action of a script leads from where the others stop to where the script stops. -/
theorem next_of_playable {as : List A} {a : A} {s : σ} (h : playable next s (as ++ [a]) = true) :
    next a (playState next s as) = some (playState next s (as ++ [a])) := by
  induction as generalizing s with
  | nil =>
    rw [List.nil_append, playable, Option.any_eq_true] at h
    obtain ⟨s', hs', -⟩ := h
    simp [playState, hs']
  | cons b as ih =>
    rw [List.cons_append, playable, Option.any_eq_true] at h
    obtain ⟨s', hs', h⟩ := h
    simp only [List.cons_append, playState, hs', Option.elim_some, ih h]

theorem label_of_mem_playTrace {P : Λ → Prop} {as : List A} {s : σ} (h : ∀ a ∈ as, P (label a))
    {t : Transition σ Λ} (ht : t ∈ playTrace next label s as) : P t.label := by
  induction as generalizing s with
  | nil => exact absurd ht (by simp [playTrace])
  | cons a as ih =>
    rw [playTrace] at ht
    cases hs : next a s with
    | none => exact absurd ht (by simp [hs])
    | some s' =>
      rw [hs, Option.elim_some, List.mem_cons] at ht
      rcases ht with rfl | ht
      · exact h a List.mem_cons_self
      · exact ih (fun b hb ↦ h b (List.mem_cons_of_mem _ hb)) ht

theorem playTrace_append_cons {as bs : List A} {a : A} {s : σ}
    (h : playable next s (as ++ [a]) = true) :
    playTrace next label s (as ++ a :: bs) = playTrace next label s as ++
      ⟨playState next s as, label a, playState next s (as ++ [a])⟩ ::
        playTrace next label (playState next s (as ++ [a])) bs := by
  induction as generalizing s with
  | nil =>
    rw [List.nil_append, playable, Option.any_eq_true] at h
    obtain ⟨s', hs', -⟩ := h
    simp [playTrace, playState, hs']
  | cons b as ih =>
    rw [List.cons_append, playable, Option.any_eq_true] at h
    obtain ⟨s', hs', h⟩ := h
    simp only [List.cons_append, playTrace, playState, hs', Option.elim_some, ih h]

end Script

end Run
