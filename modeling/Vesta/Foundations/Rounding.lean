import Mathlib.Algebra.Order.Floor.Ring
import Mathlib.Algebra.Order.Field.Rat
import Mathlib.Data.Rat.Floor
import Mathlib.Tactic.Linarith
import Vesta.Foundations.Fault

/-!
# Foundations — Rounding

Integer arithmetic that must fit its type, and quotients rounded up.  `blocks n d` is how many
blocks of `d` hold `n`: none when nothing is left to hold, the ceiling of `n / d` otherwise.  It is
the least `k ≥ 0` with `n ≤ k * d` (`blocks_le_iff`), which is all that its comparisons need: no
proof about the count computes a quotient.
-/

namespace Vesta

/-! ### Arithmetic that fits -/

section
variable {ε : Type}

/-- The exact result `n` of an operation on `u64`, which overflows from `2 ^ 64` on. -/
def fitU64 (n : Nat) : Outcome ε Nat := if n < 2 ^ 64 then .ok n else .abort

/-- The exact result `z` of an operation on `i64`, which overflows outside its range. -/
def fitI64 (z : Int) : Outcome ε Int := if -2 ^ 63 ≤ z ∧ z < 2 ^ 63 then .ok z else .abort

/-- `1_u64 << n`, which overflows from 64 on. -/
def bitU64 (n : Nat) : Outcome ε Nat := if n < 64 then .ok (2 ^ n) else .abort

/-- `a / b` on `i64`, which truncates toward zero and panics when `b` is zero. -/
def divI64 (a b : Int) : Outcome ε Int := if b = 0 then .abort else fitI64 (a.tdiv b)

/-- `a.div_ceil(b)` on `u64`, which panics when `b` is zero. -/
def divCeilU64 (a b : Nat) : Outcome ε Nat :=
  if b = 0 then .abort else if 0 < a % b then fitU64 (a / b + 1) else .ok (a / b)

/-- `i64::try_from(n)` of a `usize`. -/
def tryI64 (n : Nat) (e : ε) : Outcome ε Int := if n < 2 ^ 63 then .ok n else Outcome.fail e

/-- `u64::try_from(z)` of an `i64`. -/
def tryU64 (z : Int) (e : ε) : Outcome ε Nat := if 0 ≤ z then .ok z.toNat else Outcome.fail e

theorem fitU64_bind {β : Type} {n : Nat} {k : Nat → Outcome ε β} (h : n < 2 ^ 64) :
    (fitU64 n >>= k) = k n := Outcome.bind_of_eq_ok (if_pos h)

theorem fitI64_bind {β : Type} {z : Int} {k : Int → Outcome ε β} (hlo : -2 ^ 63 ≤ z)
    (hhi : z < 2 ^ 63) : (fitI64 z >>= k) = k z := Outcome.bind_of_eq_ok (if_pos ⟨hlo, hhi⟩)

theorem fitU64_eq {n : Nat} (h : n < 2 ^ 64) : (fitU64 n : Outcome ε Nat) = .ok n := if_pos h

theorem fitI64_eq {z : Int} (hlo : -2 ^ 63 ≤ z) (hhi : z < 2 ^ 63) :
    (fitI64 z : Outcome ε Int) = .ok z := if_pos ⟨hlo, hhi⟩

theorem bitU64_eq {n : Nat} (h : n < 64) : (bitU64 n : Outcome ε Nat) = .ok (2 ^ n) := if_pos h

theorem tryI64_eq {n : Nat} (h : n < 2 ^ 63) (e : ε) : tryI64 n e = .ok (n : Int) := if_pos h

theorem tryU64_natCast (n : Nat) (e : ε) : tryU64 (n : Int) e = .ok n :=
  if_pos (Int.natCast_nonneg n)

end

/-! ### Blocks -/

/-- How many blocks of `d` hold `n`. -/
def blocks (n d : ℤ) : ℤ := max 0 ⌈(n : ℚ) / d⌉

theorem blocks_nonneg (n d : ℤ) : 0 ≤ blocks n d := le_max_left _ _

section
variable {n n' d d' k : ℤ}

/-- The count is the least that suffices. -/
theorem blocks_le_iff (hd : 0 < d) (hk : 0 ≤ k) : blocks n d ≤ k ↔ n ≤ k * d := by
  have hd' : (0 : ℚ) < d := Int.cast_pos.mpr hd
  rw [blocks, max_le_iff, Int.ceil_le, div_le_iff₀ hd']
  exact ⟨fun h => by exact_mod_cast h.2, fun h => ⟨hk, by exact_mod_cast h⟩⟩

theorem le_blocks_mul (hd : 0 < d) : n ≤ blocks n d * d :=
  (blocks_le_iff hd (blocks_nonneg n d)).mp le_rfl

/-- More to hold takes more blocks. -/
theorem blocks_mono (hd : 0 < d) (h : n ≤ n') : blocks n d ≤ blocks n' d :=
  (blocks_le_iff hd (blocks_nonneg n' d)).mpr (h.trans (le_blocks_mul hd))

/-- Larger blocks are fewer. -/
theorem blocks_anti (hd : 0 < d) (h : d ≤ d') : blocks n d' ≤ blocks n d := by
  refine (blocks_le_iff (hd.trans_le h) (blocks_nonneg n d)).mpr ?_
  exact (le_blocks_mul hd).trans (mul_le_mul_of_nonneg_left h (blocks_nonneg n d))

/-- Blocks that grow by at most `c`, on a load that shrinks by `c`, halve the count at best. -/
theorem blocks_le_two_mul {c : ℤ} (hd : 0 < d) (hd' : 0 < d') (hc : c ≤ d) (hgrow : d' ≤ d + c)
    (hshrink : n ≤ n' + c) : blocks n d ≤ 2 * blocks n' d' + 1 := by
  have hk := blocks_nonneg n' d'
  refine (blocks_le_iff hd (by omega)).mpr ?_
  calc n ≤ n' + c := hshrink
    _ ≤ blocks n' d' * d' + c := by have := le_blocks_mul (n := n') hd'; omega
    _ ≤ blocks n' d' * (d + c) + c := by
        have := mul_le_mul_of_nonneg_left hgrow hk
        omega
    _ = blocks n' d' * d + (blocks n' d' + 1) * c := by ring
    _ ≤ blocks n' d' * d + (blocks n' d' + 1) * d := by
        have := mul_le_mul_of_nonneg_left hc (show 0 ≤ blocks n' d' + 1 by omega)
        omega
    _ = (2 * blocks n' d' + 1) * d := by ring

theorem blocks_eq_zero (hd : 0 < d) (h : n ≤ 0) : blocks n d = 0 :=
  le_antisymm ((blocks_le_iff hd le_rfl).mpr (by omega)) (blocks_nonneg n d)

/-- The count in integer arithmetic. -/
theorem tdiv_eq_blocks (hn : 0 < n) (hd : 0 < d) : (n + d - 1).tdiv d = blocks n d := by
  rw [Int.tdiv_eq_ediv_of_nonneg (by omega)]
  refine le_antisymm ?_ ((blocks_le_iff hd (Int.ediv_nonneg (by omega) hd.le)).mpr ?_)
  · have h := le_blocks_mul (n := n) hd
    refine Int.lt_add_one_iff.mp (Int.ediv_lt_of_lt_mul hd ?_)
    rw [add_mul, one_mul]
    omega
  · have h := Int.lt_ediv_add_one_mul_self (n + d - 1) hd
    rw [add_mul, one_mul] at h
    omega

end

/-! ### The next integer -/

/-- `div_ceil` is the ceiling of the quotient, which the type holds. -/
theorem divCeilU64_eq {ε : Type} {a b : Nat} (hb : 0 < b) (h : a < 2 ^ 64) :
    ∃ q : Nat, (divCeilU64 a b : Outcome ε Nat) = .ok q ∧ (q : ℤ) = ⌈(a : ℚ) / b⌉ := by
  rw [divCeilU64, if_neg hb.ne']
  have hb' : (0 : ℚ) < b := Nat.cast_pos.mpr hb
  have hsplit : b * (a / b) + a % b = a := Nat.div_add_mod a b
  have hmod : a % b < b := Nat.mod_lt a hb
  split
  next hr =>
      have hlt : a / b < a := Nat.div_lt_self (by omega) (by omega)
      refine ⟨a / b + 1, fitU64_eq (by omega), (Int.ceil_eq_iff.mpr ⟨?_, ?_⟩).symm⟩
      · rw [lt_div_iff₀ hb']
        have : (a / b) * b < a := by
          rw [Nat.mul_comm]
          omega
        push_cast
        rw [add_sub_cancel_right]
        exact_mod_cast this
      · rw [div_le_iff₀ hb']
        have : a ≤ (a / b + 1) * b := by
          rw [Nat.add_mul, Nat.mul_comm]
          omega
        exact_mod_cast this
  next hr =>
      refine ⟨a / b, rfl, ?_⟩
      have hexact : a = (a / b) * b := by
        rw [Nat.mul_comm]
        omega
      have hquot : (a : ℚ) / b = ((a / b : ℕ) : ℤ) := by
        rw [div_eq_iff hb'.ne']
        exact_mod_cast hexact
      rw [hquot, Int.ceil_intCast]

end Vesta
