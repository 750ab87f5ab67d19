import Microbench.Engine.Thinning
import Microbench.Task.Basic
import Microbench.Trial.Settings

/-!
# What a thread measures

The meter of a thread counts its invocations, adds up their time, and keeps what
they report; beside it the samples recorded by the invocations are kept by label.

## Main definitions

* `Meter`, `Meter.take`, `Meter.primary` — the meter, an outcome, and the metric it makes.
* `Recorded` — the recorded samples by label.
* `Work` — both together.
-/

namespace Microbench

/-- What a thread has measured. -/
structure Meter where
  /-- How many invocations. -/
  operations : Nat := 0
  /-- The time they took. -/
  elapsed : Duration := .zero
  /-- The values they reported. -/
  reported : Array Float := #[]
  /-- The times of sampled invocations. -/
  sampler : Option (Thinning Duration) := none
  deriving DecidableEq, Inhabited

namespace Meter

/-- The most samples that are kept for one thread. -/
def maxSamples : Nat := 64 * 1024

/-- A meter for a mode. -/
def ofMode (mode : Mode) : Meter :=
  { sampler := if mode = .sampleTime then some (.ofCapacity maxSamples) else none }

/-- Take an outcome; a reported value must be finite. -/
def take (m : Meter) : Outcome → Except TaskError Meter
  | .timed => .ok m
  | .reported value =>
    if Binary.isFinite value then .ok { m with reported := m.reported.push value }
    else .error (.nonFinite value)

/-- The samples of the mode, in a unit.  Reported values go before measured times. -/
def samples (mode : Mode) (unit : TimeUnit) (m : Meter) : List Float :=
  if !m.reported.isEmpty then m.reported.toList
  else if m.operations = 0 then []
  else
    match mode with
    | .throughput =>
      let elapsed : Duration := ⟨max m.elapsed.nanos 1⟩
      [Float.ofNat m.operations / unit.convert elapsed]
    | .sampleTime =>
      match m.sampler with
      | none => []
      | some t => t.samples.toList.map unit.convert
    | .singleShot => [unit.convert m.elapsed]
    | .averageTime | .all => [unit.convert m.elapsed / Float.ofNat m.operations]

/-- The primary metric, unless there is no sample. -/
def primary (s : Settings) (m : Meter) : Option Metric :=
  let samples := m.samples s.mode s.unit
  if samples.isEmpty then none
  else some
    { kind := .ofMode s.mode
      role := .primary
      label := s.task
      unit := s.unit.scoreUnit s.mode
      policy := .average
      samples }

end Meter

/-- The samples recorded under one label. -/
structure Series where
  /-- The unit of the first. -/
  unit : String
  /-- The policy of the first. -/
  policy : Policy
  /-- The samples. -/
  samples : Array Float
  deriving DecidableEq, Inhabited

/-- The recorded samples by label. -/
abbrev Recorded := Dict Series

namespace Recorded

/-- Keep a sample, unless it is not finite; the first of a label gives unit and policy. -/
def add (r : Recorded) (x : Recording) : Recorded :=
  if Binary.isFinite x.value then
    r.alter x.label fun series =>
      let series := series.getD ⟨x.unit, x.policy, #[]⟩
      { series with samples := series.samples.push x.value }
  else r

/-- The recorded samples as metrics. -/
def metrics (r : Recorded) : List Metric :=
  r.toList.map fun (label, s) => ⟨.scalar, .secondary, label, s.unit, s.policy, s.samples.toList⟩

end Recorded

/-- What a thread has measured and recorded. -/
structure Work where
  /-- What was measured. -/
  meter : Meter
  /-- What was recorded. -/
  recorded : Recorded := .empty
  deriving DecidableEq, Inhabited

namespace Work

/-- Take the reply to an invocation. -/
def take (w : Work) (reply : Reply) : Except TaskError Work := do
  let meter ← w.meter.take reply.outcome
  return { meter, recorded := reply.recordings.foldl Recorded.add w.recorded }

/-- The metrics of the thread: the primary one if there is one, then the others. -/
def metrics (s : Settings) (w : Work) : List Metric :=
  (w.meter.primary s).toList ++ w.recorded.metrics

end Work

end Microbench
