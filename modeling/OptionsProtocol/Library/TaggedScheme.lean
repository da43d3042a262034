import Mathlib.Algebra.BigOperators.Group.List.Basic
import Mathlib.Algebra.GroupWithZero.Nat
import Mathlib.Data.Fintype.Basic
import Mathlib.Data.List.Infix
import Mathlib.Tactic.Common

/-!
# Tagged records without separators

Records of several families, each written as a tag and then fields of fixed widths, one after the other with
nothing in between. Within a family the text determines the fields, since their widths are known. Across
families it need not: a short tag followed by the right first field reads like a longer tag.

Two families are kept apart if their records differ in length, or if neither tag begins the other. That is a
condition on the tags and the widths alone. Where one tag does begin the other, the texts agree exactly if the
rest of the longer tag is found where the fields of the shorter one begin.
-/

/-- Families of records over an alphabet: a tag, and how parameters are written in fields of fixed widths. -/
structure TaggedScheme (α ι : Type*) (Params : ι → Type*) where
  tag : ι → List α
  widths : ι → List ℕ
  /-- How the parameters are written, field by field. -/
  fields : ∀ i, Params i → List (List α)
  map_length_fields : ∀ i p, (fields i p).map List.length = widths i
  fields_injective : ∀ i, Function.Injective (fields i)

namespace TaggedScheme

variable {α ι : Type*} {Params : ι → Type*} (S : TaggedScheme α ι Params)

/-- The text of a record. -/
def text (x : Sigma Params) : List α := S.tag x.1 ++ (S.fields x.1 x.2).flatten

/-- The length of the records of a family. -/
def size (i : ι) : ℕ := (S.tag i).length + (S.widths i).sum

theorem length_text (x : Sigma Params) : (S.text x).length = S.size x.1 := by
  rw [text, List.length_append, List.length_flatten, S.map_length_fields, size]

theorem tag_prefix_text (x : Sigma Params) : S.tag x.1 <+: S.text x := List.prefix_append _ _

theorem params_inj {i : ι} {p q : Params i} (h : S.text ⟨i, p⟩ = S.text ⟨i, q⟩) : p = q := by
  have hflat : (S.fields i p).flatten = (S.fields i q).flatten := List.append_cancel_left h
  have hwidths : (S.fields i p).map List.length = (S.fields i q).map List.length := by
    rw [S.map_length_fields, S.map_length_fields]
  exact S.fields_injective i (List.eq_iff_flatten_eq.mpr ⟨hflat, hwidths⟩)

/-- Records of the two families differ in length, or neither tag begins the other. -/
def Separated (i j : ι) : Prop :=
  S.size i ≠ S.size j ∨ ¬S.tag i <+: S.tag j ∧ ¬S.tag j <+: S.tag i

instance [DecidableEq α] (i j : ι) : Decidable (S.Separated i j) :=
  inferInstanceAs (Decidable (_ ∨ _))

theorem Separated.text_ne {x y : Sigma Params} (h : S.Separated x.1 y.1) : S.text x ≠ S.text y := by
  intro heq
  rcases h with hsize | ⟨hxy, hyx⟩
  · apply hsize
    rw [← S.length_text x, ← S.length_text y, heq]
  · rcases List.prefix_or_prefix_of_prefix (S.tag_prefix_text x) (heq ▸ S.tag_prefix_text y) with hp | hp
    · exact hxy hp
    · exact hyx hp

/-- **Where families are separated, the text determines the record.** -/
theorem eq_of_text_eq {x y : Sigma Params} (hsep : x.1 ≠ y.1 → S.Separated x.1 y.1)
    (h : S.text x = S.text y) : x = y := by
  obtain ⟨i, p⟩ := x
  obtain ⟨j, q⟩ := y
  by_cases hij : i = j
  · subst hij
    rw [S.params_inj h]
  · exact absurd h (hsep hij).text_ne

theorem text_injective (hsep : ∀ i j, i ≠ j → S.Separated i j) : Function.Injective S.text :=
  fun _ _ h ↦ S.eq_of_text_eq (hsep _ _) h

/-- A record of a family whose tag begins another's reads like one of the other exactly if its fields begin
with the rest of the other tag. -/
theorem text_eq_iff_of_tag {i j : ι} {u : List α} (hu : S.tag j = S.tag i ++ u) (p : Params i)
    (q : Params j) :
    S.text ⟨i, p⟩ = S.text ⟨j, q⟩ ↔ (S.fields i p).flatten = u ++ (S.fields j q).flatten := by
  rw [text, text, hu, List.append_assoc, List.append_cancel_left_eq]

end TaggedScheme
