import Mathlib.Logic.Function.Basic
import Mathlib.Data.List.Basic

/-!
# Foundations — Digest

A digest absorbs one letter after the other into a value.  Where a step forgets nothing, neither
of the value nor of the letter (`Lossless`), two words that differ in exactly one letter have
different digests: the step at that letter tells them apart, and no later step brings them
together again (`Lossless.foldl_set_ne`).
-/

namespace Vesta.Digest

variable {σ α : Type} {step : σ → α → σ}

/-- A step that can be undone, given either of its arguments. -/
structure Lossless (step : σ → α → σ) : Prop where
  value : ∀ a, Function.Injective fun s => step s a
  letter : ∀ s, Function.Injective (step s)

/-- Words that continue alike keep different values apart. -/
theorem Lossless.foldl_injective (h : Lossless step) (as : List α) :
    Function.Injective fun s => as.foldl step s := by
  induction as with
  | nil => exact fun s t he => he
  | cons a as ih => exact fun s t he => h.value a (ih he)

theorem Lossless.foldl_ne (h : Lossless step) (s : σ) (as bs : List α) {a b : α} (hab : a ≠ b) :
    (as ++ a :: bs).foldl step s ≠ (as ++ b :: bs).foldl step s := by
  rw [List.foldl_append, List.foldl_append, List.foldl_cons, List.foldl_cons]
  intro he
  exact hab (h.letter _ (h.foldl_injective bs he))

/-- Replacing one letter changes the digest. -/
theorem Lossless.foldl_set_ne (h : Lossless step) (s : σ) {as : List α} {i : Nat} {b : α}
    (hi : i < as.length) (hb : as[i] ≠ b) : (as.set i b).foldl step s ≠ as.foldl step s := by
  have hsplit : as.take i ++ as[i] :: as.drop (i + 1) = as := by
    rw [← List.drop_eq_getElem_cons hi, List.take_append_drop]
  have hset : as.set i b = as.take i ++ b :: as.drop (i + 1) := List.set_eq_take_append_cons_drop
    |>.trans (if_pos hi)
  rw [hset]
  conv => rhs; rw [← hsplit]
  exact h.foldl_ne s _ _ (Ne.symm hb)

/-- Two words of one length that differ in one letter: one is the other with it replaced. -/
theorem eq_set {as bs : List α} {i : Nat} (hl : as.length = bs.length) (hi : i < bs.length)
    (h : ∀ j, j ≠ i → as[j]? = bs[j]?) : bs = as.set i bs[i] := by
  refine List.ext_getElem? fun j => ?_
  rw [List.getElem?_set]
  by_cases hj : i = j
  · subst hj
    simp [hl, hi]
  · rw [if_neg hj, h j (Ne.symm hj)]

end Vesta.Digest
