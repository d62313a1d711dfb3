import Mathlib.Algebra.Order.Floor.Semiring
import Mathlib.Algebra.Order.Field.Basic

/-! # Truncated scaling

    A value between `lo` and `hi` is given by the number of the step it lies
    in, of `n` (`stepOf`), and a step by a whole number between `low` and
    `high` (`levelOf`).  Both truncate.  Both are monotone, and neither leaves
    its range, whatever the ends of the ranges are. -/

namespace Quantize

variable {K : Type} [Field K] [LinearOrder K] [IsStrictOrderedRing K] [FloorSemiring K]

/-- The step that `x` lies in, of `n` from `lo` to `hi`. -/
def stepOf (n : Nat) (lo hi x : K) : Nat := ⌊(x - lo) * (n / (hi - lo))⌋₊

/-- The level of step `p`, of `n` from `low` to `high`. -/
def levelOf (K : Type) [Field K] [LinearOrder K] [FloorSemiring K] (n low high p : Nat) : Nat :=
  ⌊((high : K) - low) / n * p + low⌋₊

section Step

variable {n : Nat} {lo hi : K}

theorem stepOf_mono (h : lo ≤ hi) : Monotone (stepOf n lo hi) := by
  intro x y hxy
  have hscale : 0 ≤ (n : K) / (hi - lo) :=
    div_nonneg (Nat.cast_nonneg n) (sub_nonneg.mpr h)
  exact Nat.floor_le_floor (mul_le_mul_of_nonneg_right (sub_le_sub_right hxy lo) hscale)

theorem stepOf_le (h : lo < hi) {x : K} (hx : x ≤ hi) : stepOf n lo hi x ≤ n := by
  have hend : (hi - lo) * (n / (hi - lo)) = n :=
    mul_div_cancel₀ (n : K) (sub_pos.mpr h).ne'
  calc stepOf n lo hi x ≤ stepOf n lo hi hi := stepOf_mono h.le hx
    _ = ⌊(n : K)⌋₊ := congrArg Nat.floor hend
    _ = n := Nat.floor_natCast n

end Step

section Level

variable {n low high : Nat}

theorem levelOf_mono (h : low ≤ high) : Monotone (levelOf K n low high) := by
  intro p q hpq
  have hscale : 0 ≤ ((high : K) - low) / n :=
    div_nonneg (sub_nonneg.mpr (Nat.cast_le.mpr h)) (Nat.cast_nonneg n)
  exact Nat.floor_le_floor
    (add_le_add_left (mul_le_mul_of_nonneg_left (Nat.cast_le.mpr hpq) hscale) (low : K))

theorem levelOf_zero : levelOf K n low high 0 = low := by
  rw [levelOf, Nat.cast_zero, mul_zero, zero_add, Nat.floor_natCast]

theorem levelOf_last (hn : 0 < n) : levelOf K n low high n = high := by
  have hn' : (n : K) ≠ 0 := Nat.cast_ne_zero.mpr hn.ne'
  rw [levelOf, div_mul_cancel₀ _ hn', sub_add_cancel, Nat.floor_natCast]

theorem le_levelOf (h : low ≤ high) (p : Nat) : low ≤ levelOf K n low high p := by
  calc low = levelOf K n low high 0 := levelOf_zero.symm
    _ ≤ levelOf K n low high p := levelOf_mono h (Nat.zero_le p)

theorem levelOf_le (h : low ≤ high) (hn : 0 < n) {p : Nat} (hp : p ≤ n) :
    levelOf K n low high p ≤ high := by
  calc levelOf K n low high p ≤ levelOf K n low high n := levelOf_mono h hp
    _ = high := levelOf_last hn

end Level

end Quantize
