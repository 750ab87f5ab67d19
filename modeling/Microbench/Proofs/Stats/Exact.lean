import Mathlib.Algebra.Order.Floor.Semiring
import Mathlib.Algebra.Order.Field.Basic
import Mathlib.Data.Nat.Cast.Order.Ring
import Microbench.Stats.Samples

/-!
# Exact arithmetic on samples

Floating point numbers round, so the laws of the statistics hold of them only nearly.  Of the
elements of an ordered field they hold exactly, and there the statistics are what their
names say.  A statistic that does not exist is zero here, as a quotient by zero is.

## Main definitions

* `Scalar.ofField` — the arithmetic of an ordered field.

## Main results

* `Scalar.ceilWhole_eq` — rounding up is rounding up.
* `Scalar.sum_eq`, `Samples.mean_eq` — sum and mean are sum and mean.
-/

namespace Microbench

variable {K : Type} [Field K] [LinearOrder K] [FloorSemiring K]

/-- The elements of an ordered field are samples, and nothing is rounded. -/
instance (priority := low) Scalar.ofField : Scalar K where
  ofCount n := n
  nothing := 0
  undefined := 0
  isUndefined _ := false
  less x y := decide (x < y)
  wholePart x := ⌊x⌋₊

@[simp] theorem Scalar.ofCount_eq (n : Nat) : (Scalar.ofCount n : K) = n := rfl

@[simp] theorem Scalar.less_iff {x y : K} : Scalar.less x y = true ↔ x < y := decide_eq_true_iff

theorem Scalar.sum_eq (xs : List K) : Scalar.sum xs = xs.sum := by
  rw [List.sum_eq_foldl]
  rfl

/-- A share of nothing is nothing. -/
theorem Scalar.not_zero_less_zero_div (n : Nat) :
    Scalar.less (Scalar.ofCount 0 : K) (Scalar.ofCount 0 / Scalar.ofCount n) = false := by
  rw [Scalar.ofCount_eq, Nat.cast_zero, zero_div]
  exact decide_eq_false (lt_irrefl 0)

theorem Scalar.ceilWhole_eq [IsStrictOrderedRing K] (x : K) : Scalar.ceilWhole x = ⌈x⌉₊ := by
  show (if less (ofCount ⌊x⌋₊) x then ⌊x⌋₊ + 1 else ⌊x⌋₊) = ⌈x⌉₊
  split
  · next hlt =>
    have hlow : ⌊x⌋₊ < ⌈x⌉₊ := Nat.lt_ceil.2 (less_iff.1 hlt)
    have hhigh : ⌈x⌉₊ ≤ ⌊x⌋₊ + 1 := Nat.ceil_le_floor_add_one x
    omega
  · next hge =>
    have hwhole : x ≤ (⌊x⌋₊ : K) := not_lt.1 fun hlt => hge (less_iff.2 hlt)
    exact Nat.le_antisymm (Nat.floor_le_ceil x) (Nat.ceil_le.2 hwhole)

namespace Samples

theorem mean_eq (xs : List K) : mean xs = xs.sum / xs.length := by
  cases xs with
  | nil => simp [mean, Scalar.undefined]
  | cons x xs =>
    show Scalar.sum (x :: xs) / _ = _
    rw [Scalar.sum_eq]
    rfl

/-- So many samples of the size of the mean make the sum. -/
theorem length_mul_mean [IsStrictOrderedRing K] (xs : List K) : xs.length * mean xs = xs.sum := by
  rw [mean_eq]
  cases xs with
  | nil => simp
  | cons x xs =>
    refine mul_div_cancel₀ _ ?_
    exact Nat.cast_ne_zero.2 (Nat.succ_ne_zero _)

end Samples

end Microbench
