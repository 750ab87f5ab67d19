import Mathlib.Algebra.Order.Ring.Int
import Mathlib.Data.Nat.Cast.Order.Ring
import Mathlib.Data.Prod.Lex
import Microbench.Number.Binary

/-!
# Floating point numbers in order

Floating point numbers are compared by sign, exponent and mantissa, in this order.  What is no
number is neither above nor below nor equal to anything, so they are not ordered; but as long
as they are numbers each has its place in a linear order, and comparing them is comparing their
places.

## Main definitions

* `Binary.place` — the place of a number.

## Main results

* `Binary.lt_iff_place`, `Binary.le_iff_place` — comparing numbers is comparing places.
* `Binary.isNaN_of_le` — what is comparable is a number.
-/

namespace Microbench.Binary

open Float.Model (UnpackedFloat)

/-- The place of a number that has been taken apart: first by its sign, with zeros between the
signs and infinities beyond them, then by its exponent and its mantissa. -/
def partsPlace : UnpackedFloat → ℤ ×ₗ ℤ ×ₗ ℤ
  | .infinity .negative => toLex (-2, toLex (0, 0))
  | .finite .negative m e _ => toLex (-1, toLex (-e, -m))
  | .zero _ => toLex (0, toLex (0, 0))
  | .finite .positive m e _ => toLex (1, toLex (e, m))
  | .infinity .positive => toLex (2, toLex (0, 0))
  | .notANumber => toLex (0, toLex (0, 0))

/-- The place of a number; it says nothing of what is no number. -/
def place (x : Float) : ℤ ×ₗ ℤ ×ₗ ℤ := partsPlace x.toModel.unpack

theorem compare_natCast (m n : ℕ) : compare (m : ℤ) n = compare m n := by
  rw [← cmp_eq_compare, ← cmp_eq_compare]
  exact Nat.strictMono_cast.cmp_map_eq m n

theorem compare_neg (a b : ℤ) : compare (-a) (-b) = (compare a b).swap := by
  have hanti : StrictAnti fun c : ℤ => -c := fun _ _ h => neg_lt_neg h
  rw [← Std.OrientedOrd.eq_swap, ← cmp_eq_compare, ← cmp_eq_compare]
  exact hanti.cmp_map_eq a b

theorem compare_positive {m m' : ℕ} (hm : 0 < m) (hm' : 0 < m') (e e' : ℤ) :
    (compare e e').then (compare m m') =
      compare (partsPlace (.finite .positive m e hm))
        (partsPlace (.finite .positive m' e' hm')) := by
  rw [← compare_natCast]
  rfl

theorem compare_negative {m m' : ℕ} (hm : 0 < m) (hm' : 0 < m') (e e' : ℤ) :
    ((compare e e').then (compare m m')).swap =
      compare (partsPlace (.finite .negative m e hm))
        (partsPlace (.finite .negative m' e' hm')) := by
  rw [Ordering.swap_then, ← compare_natCast, ← compare_neg, ← compare_neg]
  rfl

/-- Numbers are compared by their places. -/
theorem compare_eq {a b : UnpackedFloat} (ha : a.isNaN = false) (hb : b.isNaN = false) :
    a.compare b = some (compare (partsPlace a) (partsPlace b)) := by
  cases a with
  | notANumber => cases ha
  | infinity s =>
    cases b with
    | notANumber => cases hb
    | infinity t => cases s <;> cases t <;> rfl
    | zero t => cases s <;> rfl
    | finite t m e hm => cases s <;> cases t <;> rfl
  | zero s =>
    cases b with
    | notANumber => cases hb
    | infinity t => cases t <;> rfl
    | zero t => rfl
    | finite t m e hm => cases t <;> rfl
  | finite s m e hm =>
    cases b with
    | notANumber => cases hb
    | infinity t => cases s <;> cases t <;> rfl
    | zero t => cases s <;> rfl
    | finite t m' e' hm' =>
      cases s <;> cases t
      · exact congrArg some (compare_negative hm hm' e e')
      · rfl
      · rfl
      · exact congrArg some (compare_positive hm hm' e e')

variable {x y : Float}

theorem lt_iff_compare : x < y ↔ x.toModel.unpack.compare y.toModel.unpack = some .lt := by
  rw [← beq_iff_eq]
  exact decide_eq_true_iff

theorem le_iff_compare :
    x ≤ y ↔ (x.toModel.unpack.compare y.toModel.unpack).any Ordering.isLE = true :=
  decide_eq_true_iff

theorem lt_iff_place (hx : x.isNaN = false) (hy : y.isNaN = false) :
    x < y ↔ place x < place y := by
  rw [lt_iff_compare, compare_eq hx hy, Option.some_inj, compare_lt_iff_lt]
  rfl

theorem le_iff_place (hx : x.isNaN = false) (hy : y.isNaN = false) :
    x ≤ y ↔ place x ≤ place y := by
  rw [le_iff_compare, compare_eq hx hy, Option.any_some, ← Ordering.ne_gt_iff_isLE]
  exact compare_le_iff_le

theorem not_lt_iff_le (hx : x.isNaN = false) (hy : y.isNaN = false) : ¬ x < y ↔ y ≤ x := by
  rw [lt_iff_place hx hy, le_iff_place hy hx, not_lt]

theorem compare_of_isNaN {a b : UnpackedFloat} (h : a.isNaN = true ∨ b.isNaN = true) :
    a.compare b = none := by
  rcases h with h | h
  · cases a with
    | notANumber => rfl
    | _ => cases h
  · cases b with
    | notANumber => cases a <;> rfl
    | _ => cases h

/-- What is comparable is a number. -/
theorem isNaN_of_le (h : x ≤ y) : x.isNaN = false ∧ y.isNaN = false := by
  rw [le_iff_compare] at h
  constructor
  · by_contra hx
    rw [compare_of_isNaN (.inl (Bool.not_eq_false _ ▸ hx))] at h
    cases h
  · by_contra hy
    rw [compare_of_isNaN (.inr (Bool.not_eq_false _ ▸ hy))] at h
    cases h

theorem le_trans {z : Float} (hxy : x ≤ y) (hyz : y ≤ z) : x ≤ z := by
  obtain ⟨hx, hy⟩ := isNaN_of_le hxy
  obtain ⟨-, hz⟩ := isNaN_of_le hyz
  rw [le_iff_place hx hy] at hxy
  rw [le_iff_place hy hz] at hyz
  rw [le_iff_place hx hz]
  exact hxy.trans hyz

theorem zero_div_cases (y : UnpackedFloat) :
    UnpackedFloat.div .binary64 (.zero .positive) y = .notANumber ∨
      ∃ s, UnpackedFloat.div .binary64 (.zero .positive) y = .zero s := by
  cases y with
  | notANumber => exact .inl rfl
  | zero s => exact .inl rfl
  | infinity s => exact .inr ⟨_, rfl⟩
  | finite s m e hm => exact .inr ⟨_, rfl⟩

theorem not_zero_lt_zero_div (n : ℕ) : ¬ Float.ofNat 0 < Float.ofNat 0 / Float.ofNat n := by
  have hdiv : Float.ofNat 0 / Float.ofNat n = .ofModel (.pack
      (UnpackedFloat.div .binary64 (.zero .positive) (Float.ofNat n).toModel.unpack)) := rfl
  have hzero : (Float.ofNat 0).toModel.unpack = .zero .positive := rfl
  rw [lt_iff_compare, hdiv, hzero]
  rcases zero_div_cases (Float.ofNat n).toModel.unpack with h | ⟨s, h⟩
  · rw [h]
    decide
  · rw [h]
    cases s <;> decide

end Microbench.Binary
