import Microbench.Number.Fixed
import Microbench.Stats.Metric

/-!
# Metrics as text

The lines that show one metric to a reader: its score alone when there are few
samples, otherwise the score with its error bar, the range, the confidence
interval and, for sampled times, the percentiles.

## Main definitions

* `numberText` — a number with as many decimal places as its size deserves.
* `Metric.describe` — the lines.
-/

namespace Microbench

/-- Three places from a thousand on and for zero, four from one on, six below. -/
def decimalPlaces (x : Float) : Nat :=
  let size := Binary.magnitude x
  if size ≥ 1000.0 || size == 0.0 then 3 else if size ≥ 1.0 then 4 else 6

/-- A number with as many decimal places as its size deserves. -/
def numberText (x : Float) : String := fixed (decimalPlaces x) x

/-- A text filled up with spaces on the left. -/
def padLeft (width : Nat) (s : String) : String :=
  String.ofList (List.replicate (width - s.length) ' ') ++ s

/-- A text filled up with spaces on the right. -/
def padRight (width : Nat) (s : String) : String :=
  s ++ String.ofList (List.replicate (width - s.length) ' ')

/-- The lines that show a metric, each ended by a line break. -/
def Metric.describe (m : Metric) : String :=
  if m.samples.length ≤ 2 then
    "Run result \"" ++ m.label ++ "\": " ++ numberText m.score ++ " " ++ m.unit ++ "\n"
  else
    let (low, high) := m.scoreInterval
    let head := "Result \"" ++ m.label ++ "\":\n"
    let score := "  " ++ numberText m.score ++ " ±(99.9%) " ++ numberText m.scoreError ++ " " ++
      m.unit ++ " [" ++ m.policy.name ++ "]\n"
    let range := "  (min, avg, max) = (" ++ numberText (Samples.least m.samples) ++ ", " ++
      numberText (Samples.mean m.samples) ++ ", " ++ numberText (Samples.greatest m.samples) ++
      "), stdev = " ++ numberText (Samples.deviation m.samples) ++ "\n"
    let interval := "  CI (99.9%): [" ++ numberText low ++ ", " ++ numberText high ++
      "] (assumes normal distribution)\n"
    let percentiles :=
      if m.kind = .sampleTime then
        (Percentile.table m.samples).map fun (level, value) =>
          "    p(" ++ padLeft 8 (fixed 4 level) ++ ") = " ++ numberText value ++ " " ++ m.unit ++
            "\n"
      else []
    head ++ score ++ range ++ interval ++ String.join percentiles

end Microbench
