import Microbench.Stats.Samples
import Microbench.TimeUnit

/-!
# Metrics

A metric is a labelled list of samples of one quantity with the policy by which
they make one score.

## Main definitions

* `Policy`, `MetricKind`, `Role` — how samples combine, what they measure, and whether they
  are what the benchmark is about.
* `Metric` — the samples with label, unit and policy.
* `MetricKind.threadPolicy`, `MetricKind.iterationPolicy` — the policy a metric gets when the
  threads of an iteration, or the iterations of a trial, are pooled.
* `Metric.score` — the one number.
-/

namespace Microbench

/-- How samples combine to one score. -/
inductive Policy
  /-- The mean. -/
  | average
  /-- The sum. -/
  | sum
  /-- The largest. -/
  | max
  deriving DecidableEq, Repr, Inhabited

/-- The name of a policy. -/
def Policy.name : Policy → String
  | average => "Average"
  | sum => "Sum"
  | max => "Max"

/-- What a metric measures. -/
inductive MetricKind
  /-- The time of a cold batch. -/
  | singleShot
  /-- The average time of an operation. -/
  | averageTime
  /-- Operations per unit of time. -/
  | throughput
  /-- The times of sampled invocations. -/
  | sampleTime
  /-- A number that a task or a profiler derived. -/
  | scalar
  deriving DecidableEq, Repr, Inhabited

namespace MetricKind

/-- The kind of the primary metric in a mode. -/
def ofMode : Mode → MetricKind
  | .throughput => throughput
  | .sampleTime => sampleTime
  | .singleShot => singleShot
  | .averageTime | .all => averageTime

/-- The policy of a metric pooled over the threads of an iteration: the throughputs of
threads add up, a derived number keeps its own policy. -/
def threadPolicy (own : Policy) : MetricKind → Policy
  | throughput => .sum
  | scalar => own
  | _ => .average

/-- The policy of a metric pooled over the iterations of a trial. -/
def iterationPolicy (own : Policy) : MetricKind → Policy
  | scalar => own
  | _ => .average

end MetricKind

/-- Whether a metric is what the benchmark is about. -/
inductive Role
  /-- The one metric the mode asks for. -/
  | primary
  /-- One that was recorded beside it. -/
  | secondary
  deriving DecidableEq, Repr, Inhabited

/-- A labelled list of samples of one quantity. -/
structure Metric (α : Type := Float) where
  /-- What is measured. -/
  kind : MetricKind
  /-- Whether it is what the benchmark is about. -/
  role : Role
  /-- Its label. -/
  label : String
  /-- The unit of the samples. -/
  unit : String
  /-- How the samples make one score. -/
  policy : Policy
  /-- The samples in the order in which they were taken. -/
  samples : List α
  deriving Repr, Inhabited

namespace Metric

/-- The confidence of the error bars that are reported. -/
def reportedConfidence : Float := 0.999

section

variable {α : Type} [Scalar α]

/-- A derived number. -/
def scalar (label : String) (value : α) (unit : String) (policy : Policy) : Metric α :=
  ⟨.scalar, .secondary, label, unit, policy, [value]⟩

/-- The one number that the samples make. -/
def score (m : Metric α) : α :=
  match m.policy with
  | .average => Samples.mean m.samples
  | .sum => Scalar.sum m.samples
  | .max => Samples.greatest m.samples

end

/-- The error bar of the score; only an average has one. -/
def scoreError (m : Metric) : Float :=
  match m.policy with
  | .average => Samples.meanError m.samples reportedConfidence
  | _ => Scalar.undefined

/-- The interval around the score; without an error bar it is the score alone. -/
def scoreInterval (m : Metric) : Float × Float :=
  if m.policy = .average ∧ 2 ≤ m.samples.length then
    Samples.meanInterval m.samples reportedConfidence
  else (m.score, m.score)

end Metric

end Microbench
