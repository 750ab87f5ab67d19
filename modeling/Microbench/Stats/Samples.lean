import Microbench.Stats.Scalar
import Microbench.Stats.StudentT
import Microbench.Stats.Percentile

/-!
# Statistics of samples

The moments of a list of samples and the error bar of their mean.

## Main definitions

* `Samples.mean`, `Samples.least`, `Samples.greatest` — over any arithmetic of samples.
* `Samples.variance`, `Samples.deviation` — with one degree of freedom less than samples.
* `Samples.meanError`, `Samples.meanInterval` — half the width of the two-sided confidence
  interval around the mean, and the interval.
-/

namespace Microbench.Samples

open Scalar (sum)

section

variable {α : Type} [Scalar α]

/-- The arithmetic mean. -/
def mean (xs : List α) : α :=
  if xs.isEmpty then Scalar.undefined else sum xs / Scalar.ofCount xs.length

/-- The smallest sample. -/
def least : List α → α
  | [] => Scalar.undefined
  | x :: xs => xs.foldl Scalar.smaller x

/-- The largest sample. -/
def greatest : List α → α
  | [] => Scalar.undefined
  | x :: xs => xs.foldl Scalar.greater x

/-- The unbiased variance; one sample varies by nothing. -/
def variance (xs : List α) : α :=
  match xs.length with
  | 0 => Scalar.undefined
  | 1 => Scalar.ofCount 0
  | n => sum (xs.map fun x => (x - mean xs) * (x - mean xs)) / Scalar.ofCount (n - 1)

end

/-- The standard deviation. -/
def deviation (xs : List Float) : Float := (variance xs).sqrt

/-- Half the width of the two-sided confidence interval around the mean; fewer than two
samples have none. -/
def meanError (xs : List Float) (confidence : Float) : Float :=
  let n := xs.length
  if n < 2 then Scalar.undefined
  else StudentT.twoSided confidence (n - 1) * deviation xs / (Float.ofNat n).sqrt

/-- The two-sided confidence interval around the mean. -/
def meanInterval (xs : List Float) (confidence : Float) : Float × Float :=
  let error := meanError xs confidence
  (mean xs - error, mean xs + error)

end Microbench.Samples
