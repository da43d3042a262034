import Mathlib.Algebra.Order.Group.Nat
import Mathlib.Tactic.Common

/-!
# Guarded computations and checked machine arithmetic

A fallible function is a value of `Except ε`. The two guards below are the only ways the programs
of this development leave a computation early: a condition that does not hold, and an option that
is empty. Their bind lemmas, together with `Except.bind_eq_ok`, turn a successful run of a long
`do` block into the conjunction of its guards, which is how every specification lemma is read off
the code.

Machine integers are natural numbers; a checked operation on `w` bits fails exactly where the
exact result leaves the range.
-/

namespace Except

variable {ε : Type*} {α β : Type}

/-- Continue only if `p` holds. -/
def require (p : Prop) [Decidable p] (e : ε) : Except ε Unit := if p then .ok () else .error e

/-- The contents of an option, or the error. -/
def fromOption (o : Option α) (e : ε) : Except ε α := o.elim (.error e) .ok

@[simp] theorem require_eq_ok {p : Prop} [Decidable p] {e : ε} {u : Unit} :
    require p e = .ok u ↔ p := by
  by_cases h : p <;> simp [require, h]

theorem require_eq_error {p : Prop} [Decidable p] {e e' : ε} :
    require p e = .error e' ↔ ¬p ∧ e = e' := by
  by_cases h : p <;> simp [require, h]

@[simp] theorem fromOption_eq_ok {o : Option α} {e : ε} {a : α} :
    fromOption o e = .ok a ↔ o = some a := by
  cases o <;> simp [fromOption]

theorem fromOption_eq_error {o : Option α} {e e' : ε} :
    fromOption o e = .error e' ↔ o = none ∧ e = e' := by
  cases o <;> simp [fromOption]

theorem bind_eq_ok {x : Except ε α} {f : α → Except ε β} {b : β} :
    (x >>= f) = .ok b ↔ ∃ a, x = .ok a ∧ f a = .ok b := by
  cases x with
  | error e => simp [bind, Except.bind]
  | ok a => simp [bind, Except.bind]

theorem bind_eq_error {x : Except ε α} {f : α → Except ε β} {e : ε} :
    (x >>= f) = .error e ↔ x = .error e ∨ ∃ a, x = .ok a ∧ f a = .error e := by
  cases x with
  | error e' => simp [bind, Except.bind]
  | ok a => simp [bind, Except.bind]

theorem require_bind_eq_ok {p : Prop} [Decidable p] {e : ε} {f : Unit → Except ε β} {b : β} :
    (require p e >>= f) = .ok b ↔ p ∧ f () = .ok b := by
  rw [bind_eq_ok]
  constructor
  · rintro ⟨⟨⟩, hp, hf⟩
    exact ⟨require_eq_ok.mp hp, hf⟩
  · rintro ⟨hp, hf⟩
    exact ⟨(), require_eq_ok.mpr hp, hf⟩

theorem fromOption_bind_eq_ok {o : Option α} {e : ε} {f : α → Except ε β} {b : β} :
    (fromOption o e >>= f) = .ok b ↔ ∃ a, o = some a ∧ f a = .ok b := by
  simp only [bind_eq_ok, fromOption_eq_ok]

theorem require_bind_of {p : Prop} [Decidable p] (hp : p) {e : ε} {f : Unit → Except ε β} :
    (require p e >>= f) = f () := by
  rw [require, if_pos hp]
  rfl

theorem fromOption_bind_of {o : Option α} {a : α} (ho : o = some a) {e : ε} {f : α → Except ε β} :
    (fromOption o e >>= f) = f a := by
  rw [ho]
  rfl

theorem pure_eq_ok {a b : α} : (pure a : Except ε α) = .ok b ↔ a = b := by
  rw [show (pure a : Except ε α) = .ok a from rfl, Except.ok.injEq]

theorem checked_eq_ok {o : Option α} {p : α → Prop} [DecidablePred p] {e e' : ε} {a : α} :
    (fromOption o e >>= fun x ↦ require (p x) e' >>= fun _ ↦ pure x) = .ok a ↔ o = some a ∧ p a := by
  simp only [fromOption_bind_eq_ok, require_bind_eq_ok, pure_eq_ok]
  constructor
  · rintro ⟨_, ho, hp, rfl⟩
    exact ⟨ho, hp⟩
  · rintro ⟨ho, hp⟩
    exact ⟨a, ho, hp, rfl⟩

/-! ## How a computation can fail

`FailsOnly P x` says that whatever error `x` returns satisfies `P`. A computation is walked guard by
guard: a guard contributes its own error, and everything after it may assume that it passed. -/

/-- Every error of `x` satisfies `P`. -/
def FailsOnly (P : ε → Prop) (x : Except ε α) : Prop := ∀ e, x = .error e → P e

variable {P : ε → Prop}

theorem FailsOnly.pure (a : α) : FailsOnly P (pure a : Except ε α) := fun _ h ↦ nomatch h

theorem FailsOnly.of_ok {x : Except ε α} {a : α} (h : x = .ok a) : FailsOnly P x := by
  rw [h]
  exact FailsOnly.pure a

theorem FailsOnly.fromOption {o : Option α} {e : ε} (h : o = none → P e) :
    FailsOnly P (fromOption o e) := by
  intro e' he
  obtain ⟨ho, rfl⟩ := fromOption_eq_error.mp he
  exact h ho

theorem FailsOnly.bind {x : Except ε α} {f : α → Except ε β} (hx : FailsOnly P x)
    (hf : ∀ a, x = .ok a → FailsOnly P (f a)) : FailsOnly P (x >>= f) := by
  intro e he
  rcases bind_eq_error.mp he with h | ⟨a, ha, h⟩
  · exact hx e h
  · exact hf a ha e h

theorem FailsOnly.require_bind {p : Prop} [Decidable p] {e : ε} {f : Unit → Except ε β} (h : P e)
    (hf : p → FailsOnly P (f ())) : FailsOnly P (require p e >>= f) := by
  refine FailsOnly.bind (fun e' he ↦ ?_) fun _ hp ↦ hf (require_eq_ok.mp hp)
  obtain ⟨-, rfl⟩ := require_eq_error.mp he
  exact h

theorem FailsOnly.fromOption_bind {o : Option α} {e : ε} {f : α → Except ε β} (h : P e)
    (hf : ∀ a, o = some a → FailsOnly P (f a)) :
    FailsOnly P (Except.fromOption o e >>= f) :=
  FailsOnly.bind (FailsOnly.fromOption fun _ ↦ h) fun a ha ↦ hf a (fromOption_eq_ok.mp ha)

theorem FailsOnly.fromOption_bind_of_some {o : Option α} {e : ε} {f : α → Except ε β} {a : α}
    (ho : o = some a) (hf : FailsOnly P (f a)) : FailsOnly P (Except.fromOption o e >>= f) := by
  rw [fromOption_bind_of ho]
  exact hf

/-! ## Two computations side by side

`Alike R x y` says that `x` and `y` end in the same way: both succeed, with results related by `R`, or both
fail with one error. Two computations that are made of alike steps are alike. -/

inductive Alike {α' : Type} (R : α → α' → Prop) : Except ε α → Except ε α' → Prop
  | ok {a : α} {a' : α'} (h : R a a') : Alike R (.ok a) (.ok a')
  | error (e : ε) : Alike R (.error e) (.error e)

section Alike

variable {α' β' : Type} {R : β → β' → Prop} {f : α → Except ε β}

theorem Alike.bind_same {g : α → Except ε β'} (x : Except ε α)
    (hf : ∀ a, x = .ok a → Alike R (f a) (g a)) : Alike R (x >>= f) (x >>= g) := by
  cases x with
  | error e => exact .error e
  | ok a => exact hf a rfl

theorem Alike.bind_of_ok {g : α' → Except ε β'} {x : Except ε α} {y : Except ε α'} {a : α} {a' : α'}
    (hx : x = .ok a) (hy : y = .ok a') (hf : Alike R (f a) (g a')) : Alike R (x >>= f) (y >>= g) := by
  rw [hx, hy]
  exact hf

theorem Alike.bind_of_error {g : α' → Except ε β'} {x : Except ε α} {y : Except ε α'} {e : ε}
    (hx : x = .error e) (hy : y = .error e) : Alike R (x >>= f) (y >>= g) := by
  rw [hx, hy]
  exact .error e

theorem Alike.of_ok {x : Except ε β} {y : Except ε β'} {b : β} (h : Alike R x y) (hx : x = .ok b) :
    ∃ b', y = .ok b' ∧ R b b' := by
  cases h with
  | error e => exact absurd hx (by simp)
  | @ok a a' h =>
    obtain rfl := Except.ok.inj hx
    exact ⟨a', rfl, h⟩

end Alike

theorem toOption_eq_some {x : Except ε α} {a : α} : x.toOption = some a ↔ x = .ok a := by
  cases x <;> simp [Except.toOption]

theorem exists_of_isSome {x : Except ε α} (h : x.toOption.isSome = true) : ∃ a, x = .ok a := by
  cases x with
  | ok a => exact ⟨a, rfl⟩
  | error e => exact absurd h (by simp [Except.toOption])

end Except

/-! ## Checked arithmetic -/

namespace Checked

/-- Addition on `w` bits. -/
def add (w a b : ℕ) : Option ℕ := if a + b < 2 ^ w then some (a + b) else none

/-- Subtraction of unsigned numbers. -/
def sub (a b : ℕ) : Option ℕ := if b ≤ a then some (a - b) else none

/-- Multiplication on `w` bits. -/
def mul (w a b : ℕ) : Option ℕ := if a * b < 2 ^ w then some (a * b) else none

/-- Division, undefined at zero. -/
def div (a b : ℕ) : Option ℕ := if b = 0 then none else some (a / b)

/-- Exponentiation on `w` bits. -/
def pow (w a b : ℕ) : Option ℕ := if a ^ b < 2 ^ w then some (a ^ b) else none

/-- Conversion to `w` bits. -/
def cast (w a : ℕ) : Option ℕ := if a < 2 ^ w then some a else none

@[simp] theorem add_eq_some {w a b c : ℕ} : add w a b = some c ↔ a + b = c ∧ a + b < 2 ^ w := by
  rw [add]
  split
  · rename_i h
    rw [Option.some.injEq]
    exact (and_iff_left h).symm
  · rename_i h
    exact iff_of_false (by simp) fun hc ↦ h hc.2

@[simp] theorem sub_eq_some {a b c : ℕ} : sub a b = some c ↔ a = b + c := by
  rw [sub]
  split
  · rw [Option.some.injEq]
    omega
  · exact iff_of_false (by simp) (by omega)

@[simp] theorem mul_eq_some {w a b c : ℕ} : mul w a b = some c ↔ a * b = c ∧ a * b < 2 ^ w := by
  rw [mul]
  split
  · rename_i h
    rw [Option.some.injEq]
    exact (and_iff_left h).symm
  · rename_i h
    exact iff_of_false (by simp) fun hc ↦ h hc.2

@[simp] theorem div_eq_some {a b c : ℕ} : div a b = some c ↔ b ≠ 0 ∧ a / b = c := by
  rw [div]
  split
  · rename_i h
    exact iff_of_false (by simp) fun hc ↦ hc.1 h
  · rename_i h
    rw [Option.some.injEq]
    exact (and_iff_right h).symm

@[simp] theorem pow_eq_some {w a b c : ℕ} : pow w a b = some c ↔ a ^ b = c ∧ a ^ b < 2 ^ w := by
  rw [pow]
  split
  · rename_i h
    rw [Option.some.injEq]
    exact (and_iff_left h).symm
  · rename_i h
    exact iff_of_false (by simp) fun hc ↦ h hc.2

theorem pow_lt_of_le {w b e m : ℕ} (hb : 0 < b) (he : e ≤ m) (h : b ^ m < 2 ^ w) : b ^ e < 2 ^ w :=
  (Nat.pow_le_pow_right hb he).trans_lt h

theorem pow_of_le {w b e m : ℕ} (hb : 0 < b) (he : e ≤ m) (h : b ^ m < 2 ^ w) :
    pow w b e = some (b ^ e) := pow_eq_some.mpr ⟨rfl, pow_lt_of_le hb he h⟩

@[simp] theorem cast_eq_some {w a c : ℕ} : cast w a = some c ↔ a = c ∧ a < 2 ^ w := by
  rw [cast]
  split
  · rename_i h
    rw [Option.some.injEq]
    exact (and_iff_left h).symm
  · rename_i h
    exact iff_of_false (by simp) fun hc ↦ h hc.2

end Checked
