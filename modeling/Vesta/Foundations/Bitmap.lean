import Mathlib.Data.Nat.Bitwise
import Mathlib.Data.List.Count
import Mathlib.Data.List.Range
import Mathlib.Tactic.Ring

/-!
# Foundations — Bitmap

A `u16` as a set of indices below 16.  `has b i` says that bit `i` of `b` is set; the tests the
code makes with masks (`b & (1 << i) == 0`, `b & !((1 << n) - 1) == 0`), the updates
(`b | (1 << i)`) and `count_ones` are read back in terms of it.
-/

namespace Vesta.Bitmap

/-- Bit `i` of `b` is set. -/
def has (b : UInt16) (i : Nat) : Bool := b.toNat.testBit i

/-- `1 << i`. -/
def bit (i : Nat) : UInt16 := UInt16.ofNat (2 ^ i)

/-- `(1 << n) - 1`. -/
def lowMask (n : Nat) : UInt16 := UInt16.ofNat (2 ^ n) - 1

/-- `count_ones`. -/
def countOnes (b : UInt16) : Nat := (List.range 16).countP (has b)

theorem toNat_bit {i : Nat} (h : i < 16) : (bit i).toNat = 2 ^ i := by
  have hlt : 2 ^ i < UInt16.size := Nat.pow_lt_pow_right (by decide) h
  exact UInt16.toNat_ofNat_of_lt' hlt

theorem toNat_lowMask {n : Nat} (h : n < 16) : (lowMask n).toNat = 2 ^ n - 1 := by
  have hb : (UInt16.ofNat (2 ^ n)).toNat = 2 ^ n := toNat_bit h
  have hle : (1 : UInt16) ≤ UInt16.ofNat (2 ^ n) := by
    rw [UInt16.le_iff_toNat_le, hb]
    exact Nat.one_le_two_pow
  rw [lowMask, UInt16.toNat_sub_of_le _ _ hle, hb]
  rfl

theorem has_of_ge {b : UInt16} {i : Nat} (h : 16 ≤ i) : has b i = false :=
  Nat.testBit_eq_false_of_lt (lt_of_lt_of_le b.toNat_lt (Nat.pow_le_pow_right (by decide) h))

/-- Two bitmaps with the same bits are equal. -/
theorem ext {a b : UInt16} (h : ∀ i < 16, has a i = has b i) : a = b := by
  apply UInt16.toNat_inj.mp
  refine Nat.eq_of_testBit_eq fun i => ?_
  by_cases hi : i < 16
  · exact h i hi
  · exact (has_of_ge (not_lt.mp hi)).trans (has_of_ge (not_lt.mp hi)).symm

@[simp] theorem has_zero (i : Nat) : has 0 i = false := by simp [has]

theorem has_and (a b : UInt16) (i : Nat) : has (a &&& b) i = (has a i && has b i) := by
  simp [has]

theorem has_or (a b : UInt16) (i : Nat) : has (a ||| b) i = (has a i || has b i) := by
  simp [has]

theorem has_not (b : UInt16) {i : Nat} (h : i < 16) : has (~~~b) i = !has b i := by
  have hs : (~~~b).toNat = 2 ^ 16 - (b.toNat + 1) := by
    rw [UInt16.toNat_not]
    have := b.toNat_lt
    simp only [UInt16.size]
    omega
  rw [has, hs, Nat.testBit_two_pow_sub_succ b.toNat_lt]
  simp [has, h]

theorem has_bit {n : Nat} (h : n < 16) (i : Nat) : has (bit n) i = decide (i = n) := by
  simp [has, toNat_bit h, Nat.testBit_two_pow, eq_comm]

theorem has_lowMask {n : Nat} (h : n < 16) (i : Nat) : has (lowMask n) i = decide (i < n) := by
  simp [has, toNat_lowMask h]

/-- The bits collected by a loop that ors them together. -/
theorem has_foldl_or {α : Type} (f : α → UInt16) (as : List α) (b : UInt16) (i : Nat) :
    has (as.foldl (fun b a => b ||| f a) b) i ↔ has b i ∨ ∃ a ∈ as, has (f a) i := by
  induction as generalizing b with
  | nil => simp
  | cons a as ih =>
      rw [List.foldl_cons, ih, has_or]
      simp only [Bool.or_eq_true, List.exists_mem_cons_iff, or_assoc]

/-- `b & (1 << i) == 0`. -/
theorem and_bit_eq_zero {b : UInt16} {i : Nat} (h : i < 16) :
    b &&& bit i = 0 ↔ has b i = false := by
  constructor
  · intro hz
    have hi := has_and b (bit i) i
    rw [hz, has_bit h] at hi
    simpa using hi.symm
  · intro hb
    refine ext fun j _ => ?_
    rw [has_and, has_bit h, has_zero]
    by_cases hj : j = i
    · simp [hj, hb]
    · simp [hj]

/-- `b & !((1 << n) - 1) == 0`. -/
theorem and_not_lowMask_eq_zero {b : UInt16} {n : Nat} (h : n < 16) :
    b &&& ~~~(lowMask n) = 0 ↔ ∀ i, has b i → i < n := by
  constructor
  · intro hz i hi
    by_cases hlt : i < 16
    · have hb := has_and b (~~~(lowMask n)) i
      rw [hz, has_not _ hlt, has_lowMask h] at hb
      simpa [hi] using hb
    · rw [has_of_ge (not_lt.mp hlt)] at hi
      cases hi
  · intro hb
    refine ext fun i hi => ?_
    rw [has_and, has_not _ hi, has_lowMask h, has_zero]
    by_cases hbi : has b i
    · simp [hb i hbi]
    · simp [hbi]

/-- The ones of a bitmap confined to `n` indices are among those. -/
theorem countOnes_eq {b : UInt16} {n : Nat} (hn : n ≤ 16) (h : ∀ i, has b i → i < n) :
    countOnes b = (List.range n).countP (has b) := by
  obtain ⟨k, hk⟩ := Nat.exists_eq_add_of_le hn
  have hz : ((List.range k).map (n + ·)).countP (has b) = 0 := by
    rw [List.countP_eq_zero]
    intro i hi hb
    obtain ⟨j, -, rfl⟩ := List.mem_map.mp hi
    have := h _ hb
    omega
  rw [countOnes, hk, List.range_add, List.countP_append, hz, Nat.add_zero]

theorem countOnes_le {b : UInt16} {n : Nat} (hn : n ≤ 16) (h : ∀ i, has b i → i < n) :
    countOnes b ≤ n := by
  rw [countOnes_eq hn h]
  exact List.countP_le_length.trans (by simp)

end Vesta.Bitmap
