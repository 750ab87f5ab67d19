import Microbench.Stats.Scalar

/-!
# Percentiles

The value below which a given share of the samples lies.  Between two order
statistics it is interpolated linearly, and nothing is trimmed: the tail of
sampled times is what they are sampled for.

## Main definitions

* `Percentile.sorted` — samples in ascending order.
* `Percentile.ofSorted` — a percentile of samples already in order.
* `Percentile.of` — a percentile of samples in any order.
* `Percentile.levels`, `Percentile.table` — the levels reported for sampled times, and their values.
-/

namespace Microbench.Percentile

variable {α : Type} [Scalar α]

/-- Put a sample into samples in descending order, below those that are above it. -/
def place (x : α) : List α → List α
  | [] => [x]
  | y :: ys => if Scalar.less x y then y :: place x ys else x :: y :: ys

/-- Up to this many samples are sorted by placing one after the other. -/
def fewSamples : Nat := 20

/-- The samples in ascending order; equal ones keep their order. -/
def sorted (xs : List α) : List α :=
  if xs.length ≤ fewSamples then (xs.foldl (fun ys x => place x ys) []).reverse
  else xs.mergeSort fun x y => !Scalar.less y x

/-- A share of one hundred as a share of one, kept within its bounds. -/
def share (level : α) : α :=
  let p := level / Scalar.ofCount 100
  let q := if Scalar.less p (Scalar.ofCount 0) then Scalar.ofCount 0 else p
  if Scalar.less (Scalar.ofCount 1) q then Scalar.ofCount 1 else q

/-- The place of a percentile among `n` samples, as a number between `0` and `n - 1`. -/
def rank (level : α) (n : Nat) : α := share level * Scalar.ofCount (n - 1)

/-- The index of the order statistic at or below the place. -/
def lowerIndex (level : α) (n : Nat) : Nat := Scalar.wholePart (rank level n)

/-- The index of the next order statistic, if there is one. -/
def upperIndex (level : α) (n : Nat) : Nat := min (lowerIndex level n + 1) (n - 1)

/-- A percentile of samples in ascending order. -/
def ofSorted (xs : Array α) (level : α) : α :=
  let n := xs.size
  if n = 0 then Scalar.undefined
  else if n = 1 then xs.getD 0 Scalar.undefined
  else
    let low := xs.getD (lowerIndex level n) Scalar.undefined
    let high := xs.getD (upperIndex level n) Scalar.undefined
    low + (rank level n - Scalar.ofCount (lowerIndex level n)) * (high - low)

/-- A percentile of samples in any order. -/
def of (xs : List α) (level : α) : α := ofSorted (sorted xs).toArray level

/-- The levels reported for sampled times. -/
def levels : List Float := [0.0, 50.0, 90.0, 95.0, 99.0, 99.9, 99.99, 99.999, 99.9999, 100.0]

/-- The levels reported for sampled times with their values. -/
def table (xs : List Float) : List (Float × Float) :=
  let ordered := (sorted xs).toArray
  levels.map fun level => (level, ofSorted ordered level)

end Microbench.Percentile
