import Microbench.Dict
import Microbench.Stats.Metric

/-!
# Pooling metrics

The metrics of the threads of an iteration are pooled into the result of the
iteration, and those of the iterations of a trial into the result of the trial.
Pooling puts samples one after the other; only a sum or a maximum of one
iteration enters the trial as a single sample.

## Main definitions

* `Pooling` — the two levels.
* `Pooling.pool` — the metrics of one label to one metric.
* `IterationResult`, `Totals` — the result of an iteration and of a trial.
-/

namespace Microbench

/-- The level at which metrics are pooled. -/
inductive Pooling
  /-- The threads of an iteration. -/
  | threads
  /-- The iterations of a trial. -/
  | iterations
  deriving DecidableEq, Repr, Inhabited

namespace Pooling

variable {α : Type} [Scalar α]

/-- The policy of the pooled metric. -/
def policy (level : Pooling) (m : Metric α) : Policy :=
  match level with
  | threads => m.kind.threadPolicy m.policy
  | iterations => m.kind.iterationPolicy m.policy

/-- What a metric brings to the pool: the samples themselves, or the score of an iteration
whose samples must not be taken apart. -/
def share (level : Pooling) (m : Metric α) : List α :=
  match level, m.policy with
  | iterations, .sum => [m.score]
  | iterations, .max => [m.score]
  | _, _ => m.samples

/-- The metrics of one label as one metric; the first gives kind, label and unit. -/
def pool (level : Pooling) : List (Metric α) → Option (Metric α)
  | [] => none
  | first :: rest => some
    { first with
      policy := level.policy first
      samples := (first :: rest).flatMap level.share }

/-- The primary metrics in their order. -/
def primaries (ms : List (Metric α)) : List (Metric α) := ms.filter (·.role = .primary)

/-- The secondary metrics of each label in their order. -/
def secondaries (ms : List (Metric α)) : Dict (List (Metric α)) :=
  (ms.filter (·.role = .secondary)).foldl
    (fun groups m => groups.alter m.label fun group => group.getD [] ++ [m]) .empty

/-- Pool metrics of any labels: the primary one, and one for each secondary label. -/
def poolAll (level : Pooling) (ms : List (Metric α)) : Option (Metric α) × Dict (Metric α) :=
  (level.pool (primaries ms),
   Dict.ofList ((secondaries ms).toList.filterMap fun group =>
     (level.pool group.2).map fun m => (group.1, m)))

end Pooling

/-- The result of one iteration. -/
structure IterationResult (α : Type := Float) where
  /-- What the mode asks for, if any thread measured it. -/
  primary : Option (Metric α) := none
  /-- What was recorded beside it, by label. -/
  secondary : Dict (Metric α) := .empty
  /-- How many threads took part. -/
  threads : Nat := 0
  /-- How many operations were measured. -/
  operations : Nat := 0
  deriving Inhabited

namespace IterationResult

variable {α : Type} [Scalar α]

/-- Pool the metrics of the threads of an iteration. -/
def ofThreads (threads : List (List (Metric α))) : IterationResult α :=
  let (primary, secondary) := Pooling.threads.poolAll threads.flatten
  { primary, secondary, threads := threads.length }

/-- Attach a metric under its label, in place of one that is there. -/
def addSecondary (r : IterationResult α) (m : Metric α) : IterationResult α :=
  { r with secondary := r.secondary.insert m.label m }

/-- The metrics: the primary one, then the others by label. -/
def metrics (r : IterationResult α) : List (Metric α) := r.primary.toList ++ r.secondary.values

end IterationResult

/-- The pooled result of a trial. -/
structure Totals (α : Type := Float) where
  /-- What the mode asks for, if any iteration measured it. -/
  primary : Option (Metric α) := none
  /-- What was recorded beside it, by label. -/
  secondary : Dict (Metric α) := .empty
  deriving Inhabited

/-- Pool the iterations of a trial. -/
def Totals.ofIterations {α : Type} [Scalar α] (iterations : List (IterationResult α)) : Totals α :=
  let (primary, secondary) :=
    Pooling.iterations.poolAll (iterations.flatMap IterationResult.metrics)
  { primary, secondary }

end Microbench
