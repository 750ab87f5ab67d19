import Mathlib.Algebra.Order.Field.Basic
import Mathlib.Algebra.Order.Floor.Ring
import Mathlib.Data.List.Sort
import Mathlib.Data.Rat.Floor
import Mathlib.Order.Bounds.Basic
import Microbench.Proofs.Stats.Exact
import Microbench.Stats.Percentile

/-!
# Percentiles are percentiles

A percentile is read off the samples in ascending order, at a place that is seldom that of a
sample.  It lies between the samples on either side of it, and further on the greater the level:
within two samples because it goes from one to the other in a straight line, and beyond because
the next one is not below.

## Main definitions

* `Percentile.lower`, `Percentile.upper` — the order statistics on either side of a percentile.
* `Percentile.fraction` — how far it is on the way from one to the other.

## Main results

* `Percentile.sorted_eq_of_perm` — samples have one ascending order.
* `Percentile.rank_eq` — the place of a percentile.
* `Percentile.ofSorted_between`, `Percentile.ofSorted_mono` — between two samples, and beyond.
* `Percentile.of_ordered` — **percentiles are percentiles.**
-/

namespace Microbench.Percentile

/-! ### Samples in order -/

theorem place_perm {α : Type} [Scalar α] (x : α) (ys : List α) : (place x ys).Perm (x :: ys) := by
  fun_induction place x ys with
  | case1 => rfl
  | case2 y ys hless ih => exact (ih.cons y).trans (.swap x y ys)
  | case3 y ys hless => rfl

/-- Placing samples one after the other loses none. -/
theorem foldl_place_perm {α : Type} [Scalar α] (xs ys : List α) :
    (xs.foldl (fun ys x => place x ys) ys).Perm (xs ++ ys) := by
  induction xs generalizing ys with
  | nil => rfl
  | cons x xs ih =>
    have hplaced : (xs ++ place x ys).Perm (xs ++ x :: ys) := (place_perm x ys).append_left xs
    exact (ih (place x ys)).trans (hplaced.trans List.perm_middle)

theorem sorted_perm {α : Type} [Scalar α] (xs : List α) : (sorted xs).Perm xs := by
  rw [sorted]
  split
  · have hplaced := foldl_place_perm xs []
    rw [List.append_nil] at hplaced
    exact (List.reverse_perm _).trans hplaced
  · exact List.mergeSort_perm _ _

theorem length_sorted_pos {α : Type} [Scalar α] {xs : List α} (hne : xs ≠ []) :
    0 < (sorted xs).length := by
  rw [(sorted_perm xs).length_eq]
  exact List.length_pos_iff.2 hne

variable {K : Type} [Field K] [LinearOrder K] [FloorSemiring K]
  {xs ys : List K} {p q : K} {n : Nat}

/-- A sample is placed below those that are above it. -/
theorem pairwise_place (x : K) (h : ys.Pairwise (· ≥ ·)) : (place x ys).Pairwise (· ≥ ·) := by
  fun_induction place x ys with
  | case1 => exact List.pairwise_singleton _ x
  | case2 y ys hless ih =>
    obtain ⟨hy, hys⟩ := List.pairwise_cons.1 h
    refine List.pairwise_cons.2 ⟨fun z hz => ?_, ih hys⟩
    obtain rfl | hz := List.mem_cons.1 ((place_perm x ys).mem_iff.1 hz)
    · exact (Scalar.less_iff.1 hless).le
    · exact hy z hz
  | case3 y ys hless =>
    have hyx : y ≤ x := not_lt.1 (mt Scalar.less_iff.2 hless)
    refine List.pairwise_cons.2 ⟨fun z hz => ?_, h⟩
    obtain rfl | hz := List.mem_cons.1 hz
    · exact hyx
    · exact ((List.pairwise_cons.1 h).1 z hz).trans hyx

theorem pairwise_foldl_place (xs : List K) (h : ys.Pairwise (· ≥ ·)) :
    (xs.foldl (fun ys x => place x ys) ys).Pairwise (· ≥ ·) := by
  induction xs generalizing ys with
  | nil => exact h
  | cons x xs ih => exact ih (pairwise_place x h)

/-- Either way of sorting gives samples in ascending order. -/
theorem sortedLE_sorted (xs : List K) : (sorted xs).SortedLE := by
  rw [sorted]
  split
  · exact (pairwise_foldl_place xs .nil).sortedGE.reverse
  · have hle : (fun x y : K => !Scalar.less y x) = fun x y => decide (x ≤ y) := by
      funext x y
      rw [Bool.eq_iff_iff, Bool.not_eq_true', ← Bool.not_eq_true, Scalar.less_iff, not_lt,
        decide_eq_true_iff]
    rw [hle]
    exact List.sortedLE_mergeSort

/-- Samples have one ascending order. -/
theorem sorted_eq_of_perm (h : ys.Perm xs) : sorted ys = sorted xs := by
  have hperm : (sorted ys).Perm (sorted xs) :=
    (sorted_perm ys).trans (h.trans (sorted_perm xs).symm)
  exact hperm.eq_of_sortedLE (sortedLE_sorted ys) (sortedLE_sorted xs)

/-! ### The place of a percentile -/

theorem clamp_eq {α : Type} [Zero α] [One α] [LinearOrder α] [ZeroLEOneClass α] (x : α) :
    (let y := if x < 0 then 0 else x; if 1 < y then 1 else y) = max 0 (min x 1) := by
  obtain hneg | hpos := lt_or_ge x 0
  · simp only [if_pos hneg, if_neg (not_lt.2 (zero_le_one' α)),
      max_eq_left (min_le_of_left_le hneg.le)]
  · simp only [if_neg (not_lt.2 hpos), max_eq_right (le_min hpos zero_le_one)]
    split
    · next h => rw [min_eq_right h.le]
    · next h => rw [min_eq_left (not_lt.1 h)]

theorem upperIndex_lt {α : Type} [Scalar α] (level : α) (hn : 0 < n) : upperIndex level n < n :=
  lt_of_le_of_lt (Nat.min_le_right _ _) (Nat.sub_lt hn Nat.one_pos)

variable [IsStrictOrderedRing K]

theorem share_eq (p : K) : share p = max 0 (min p 100) / 100 := by
  have hhundred : (0 : K) ≤ 100 := by norm_num
  calc share p = max 0 (min (p / 100) 1) := by
        simp only [share, Scalar.less_iff, Scalar.ofCount_eq, Nat.cast_zero, Nat.cast_one,
          Nat.cast_ofNat]
        exact clamp_eq _
    _ = max (0 / 100) (min (p / 100) (100 / 100)) := by
        rw [zero_div, div_self (by norm_num)]
    _ = max 0 (min p 100) / 100 := by
        rw [min_div_div_right hhundred, max_div_div_right hhundred]

theorem rank_eq (p : K) (n : Nat) :
    rank p n = max 0 (min p 100) / 100 * ((n - 1 : Nat) : K) := by
  rw [rank, share_eq]
  rfl

theorem rank_mono (h : p ≤ q) (n : Nat) : rank p n ≤ rank q n := by
  rw [rank_eq, rank_eq]
  gcongr

theorem rank_nonneg (p : K) (n : Nat) : 0 ≤ rank p n := by
  rw [rank_eq]
  positivity

theorem rank_of_nonpos (h : p ≤ 0) (n : Nat) : rank p n = 0 := by
  rw [rank_eq, max_eq_left (min_le_of_left_le h), zero_div, zero_mul]

theorem rank_of_hundred_le (h : 100 ≤ p) (n : Nat) : rank p n = (n - 1 : Nat) := by
  rw [rank_eq, min_eq_right h, max_eq_right (by norm_num), div_self (by norm_num), one_mul]

theorem rank_le (p : K) (n : Nat) : rank p n ≤ (n - 1 : Nat) := by
  rw [← rank_of_hundred_le (le_max_right p 100)]
  exact rank_mono (le_max_left p 100) n

theorem lowerIndex_lt (p : K) (hn : 0 < n) : lowerIndex p n < n :=
  lt_of_le_of_lt (Nat.floor_le_of_le (rank_le p n)) (Nat.sub_lt hn Nat.one_pos)

/-- The order statistic at or below the place of a percentile. -/
def lower (p : K) (hn : 0 < n) : Fin n := ⟨lowerIndex p n, lowerIndex_lt p hn⟩

/-- The next order statistic, or the last one again. -/
def upper (p : K) (hn : 0 < n) : Fin n := ⟨upperIndex p n, upperIndex_lt p hn⟩

theorem lower_le_upper (p : K) (hn : 0 < n) : lower p hn ≤ upper p hn :=
  le_min (Nat.le_succ _) (Nat.le_sub_one_of_lt (lowerIndex_lt p hn))

theorem lower_mono (h : p ≤ q) (hn : 0 < n) : lower p hn ≤ lower q hn :=
  Nat.floor_le_floor (rank_mono h n)

/-- How far a percentile is on the way from one order statistic to the next. -/
def fraction (p : K) (n : Nat) : K := rank p n - lowerIndex p n

theorem fraction_nonneg (p : K) (n : Nat) : 0 ≤ fraction p n :=
  sub_nonneg.2 (Nat.floor_le (rank_nonneg p n))

theorem fraction_le_one (p : K) (n : Nat) : fraction p n ≤ 1 :=
  sub_le_iff_le_add'.2 (Nat.lt_floor_add_one (rank p n)).le

/-! ### Between order statistics -/

/-- A percentile of samples in order, however few they are. -/
theorem ofSorted_eq (hpos : 0 < ys.length) (p : K) :
    ofSorted ys.toArray p = ys.get (lower p hpos) +
      fraction p ys.length * (ys.get (upper p hpos) - ys.get (lower p hpos)) := by
  have hget (i : Fin ys.length) : ys.toArray.getD i Scalar.undefined = ys.get i := by
    rw [Array.getD_eq_getD_getElem?, List.getElem?_toArray, List.getElem?_eq_getElem i.isLt,
      Option.getD_some, List.get_eq_getElem]
  rw [← hget, ← hget, ofSorted, List.size_toArray]
  dsimp only
  rw [if_neg hpos.ne']
  split
  · next hone =>
    -- of one sample there is only one order statistic
    have honly (i : Fin ys.length) : (i : Nat) = 0 := by omega
    rw [honly, honly, sub_self, mul_zero, add_zero]
  · rfl

theorem ofSorted_between (hpos : 0 < ys.length) (hsorted : ys.SortedLE) (p : K) :
    ys.get (lower p hpos) ≤ ofSorted ys.toArray p ∧
      ofSorted ys.toArray p ≤ ys.get (upper p hpos) := by
  have hle : ys.get (lower p hpos) ≤ ys.get (upper p hpos) :=
    hsorted.monotone_get (lower_le_upper p hpos)
  rw [ofSorted_eq hpos]
  constructor
  · exact le_add_of_nonneg_right (mul_nonneg (fraction_nonneg p _) (sub_nonneg.2 hle))
  · rw [← le_sub_iff_add_le']
    exact mul_le_of_le_one_left (sub_nonneg.2 hle) (fraction_le_one p _)

/-- Between the same two samples a percentile goes up in a straight line; otherwise there is a
sample between two percentiles. -/
theorem ofSorted_mono (hpos : 0 < ys.length) (hsorted : ys.SortedLE) :
    Monotone (ofSorted ys.toArray) := by
  intro p q hpq
  obtain hsame | hnext := (lower_mono hpq hpos).eq_or_lt
  · have hindex : lowerIndex p ys.length = lowerIndex q ys.length := congrArg Fin.val hsame
    have hupper : upper p hpos = upper q hpos :=
      Fin.ext (congrArg (fun i => min (i + 1) (ys.length - 1)) hindex)
    have hfraction : fraction p ys.length ≤ fraction q ys.length := by
      rw [fraction, fraction, hindex]
      exact sub_le_sub_right (rank_mono hpq _) _
    have hle : ys.get (lower q hpos) ≤ ys.get (upper q hpos) :=
      hsorted.monotone_get (lower_le_upper q hpos)
    rw [ofSorted_eq hpos, ofSorted_eq hpos, hsame, hupper]
    exact add_le_add_right (mul_le_mul_of_nonneg_right hfraction (sub_nonneg.2 hle)) _
  · have hplace : upper p hpos ≤ lower q hpos :=
      Fin.le_def.2 ((Nat.min_le_left _ _).trans (Nat.succ_le_of_lt hnext))
    calc ofSorted ys.toArray p ≤ ys.get (upper p hpos) := (ofSorted_between hpos hsorted p).2
      _ ≤ ys.get (lower q hpos) := hsorted.monotone_get hplace
      _ ≤ ofSorted ys.toArray q := (ofSorted_between hpos hsorted q).1

/-- At a place that is a whole number a percentile is a sample. -/
theorem ofSorted_of_rank_eq (i : Fin ys.length) (h : rank p ys.length = (i : Nat)) :
    ofSorted ys.toArray p = ys.get i := by
  have hlower : lowerIndex p ys.length = i := by
    rw [lowerIndex, h]
    exact Nat.floor_natCast _
  have hfraction : fraction p ys.length = 0 := by rw [fraction, hlower, h, sub_self]
  rw [ofSorted_eq i.pos, hfraction, zero_mul, add_zero]
  exact congrArg ys.get (Fin.ext hlower)

/-! ### Samples in any order -/

theorem of_isLeast (hne : xs ≠ []) (h : p ≤ 0) : IsLeast {x | x ∈ xs} (of xs p) := by
  have hpos := length_sorted_pos hne
  have hfirst : of xs p = (sorted xs).get ⟨0, hpos⟩ :=
    ofSorted_of_rank_eq _ ((rank_of_nonpos h _).trans Nat.cast_zero.symm)
  rw [hfirst]
  refine ⟨(sorted_perm xs).mem_iff.1 (List.get_mem _ _), fun x hx => ?_⟩
  obtain ⟨i, rfl⟩ := List.get_of_mem ((sorted_perm xs).mem_iff.2 hx)
  exact (sortedLE_sorted xs).monotone_get (Nat.zero_le i)

theorem of_isGreatest (hne : xs ≠ []) (h : 100 ≤ p) : IsGreatest {x | x ∈ xs} (of xs p) := by
  have hpos := length_sorted_pos hne
  have hlast : of xs p = (sorted xs).get ⟨(sorted xs).length - 1, Nat.sub_lt hpos Nat.one_pos⟩ :=
    ofSorted_of_rank_eq _ (rank_of_hundred_le h _)
  rw [hlast]
  refine ⟨(sorted_perm xs).mem_iff.1 (List.get_mem _ _), fun x hx => ?_⟩
  obtain ⟨i, rfl⟩ := List.get_of_mem ((sorted_perm xs).mem_iff.2 hx)
  exact (sortedLE_sorted xs).monotone_get (Nat.le_sub_one_of_lt i.isLt)

/-- **Percentiles are percentiles.**  They do not depend on the order of the samples and do not fall
as the level rises, from the least sample at zero and below to the greatest at one hundred and
above.  With the level kept within these bounds a percentile lies between two samples that are next
to each other in ascending order, the lower of them at the level's share of the way to the last;
and whatever the level, there are samples at both of these places. -/
theorem of_ordered {xs : List K} (hne : xs ≠ []) :
    (∀ ys, ys.Perm xs → ∀ p, of ys p = of xs p) ∧
    (∀ p q : K, p ≤ q → of xs p ≤ of xs q) ∧
    (∀ p ≤ 0, IsLeast {x | x ∈ xs} (of xs p)) ∧
    (∀ p ≥ 100, IsGreatest {x | x ∈ xs} (of xs p)) ∧
    ∃ ys : List K, ys.Perm xs ∧ ys.SortedLE ∧ ∀ p : K,
      lowerIndex p xs.length = ⌊max 0 (min p 100) / 100 * ((xs.length - 1 : Nat) : K)⌋₊ ∧
      upperIndex p xs.length = min (lowerIndex p xs.length + 1) (xs.length - 1) ∧
      ∃ (_ : lowerIndex p xs.length < ys.length) (_ : upperIndex p xs.length < ys.length),
        ys[lowerIndex p xs.length] ≤ of xs p ∧ of xs p ≤ ys[upperIndex p xs.length] := by
  have hpos := length_sorted_pos hne
  refine ⟨fun ys hperm p => by rw [of, of, sorted_eq_of_perm hperm],
    fun p q hpq => ofSorted_mono hpos (sortedLE_sorted xs) hpq, fun p => of_isLeast hne,
    fun p => of_isGreatest hne, sorted xs, sorted_perm xs, sortedLE_sorted xs, fun p => ?_⟩
  rw [← (sorted_perm xs).length_eq]
  refine ⟨?_, rfl, lowerIndex_lt p hpos, upperIndex_lt p hpos,
    ofSorted_between hpos (sortedLE_sorted xs) p⟩
  rw [lowerIndex, rank_eq]
  rfl

/-- Of four samples the level fifty is halfway between the two in the middle. -/
theorem of_ordered_four :
    let xs : List ℚ := [7, -2, 11, 3]
    xs ≠ [] ∧ of xs 50 = 5 ∧ of [-2, 3, 7, 11] (50 : ℚ) = of xs 50 ∧ of xs 25 ≤ of xs 50 ∧
      IsLeast {x | x ∈ xs} (of xs (-1)) ∧ IsGreatest {x | x ∈ xs} (of xs 100) := by
  intro xs
  have hne : xs ≠ [] := by decide
  obtain ⟨horder, hmono, hleast, hgreatest, -⟩ := of_ordered hne
  exact ⟨hne, by decide +kernel, horder _ (by decide +kernel) 50, hmono 25 50 (by norm_num),
    hleast (-1) (by norm_num), hgreatest 100 le_rfl⟩

end Microbench.Percentile
