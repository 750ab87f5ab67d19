import Microbench.Duration.Loose
import Microbench.Spec

/-!
# Settings of a run

The settings that a configuration file or the command line gives for all trials.
Every one may be left open, and one layer of settings lies over another.

## Main definitions

* `Runner` — the settings.
* `Runner.merged` — one layer over another.
* `Runner.apply` — write the settings into a specification.
* `ConfigError` — why settings cannot be used.
-/

namespace Microbench

/-- Why a configuration cannot be used. -/
inductive ConfigError
  /-- There is no such file. -/
  | missing (path : String)
  /-- The file is no configuration. -/
  | malformed
  /-- A text is no duration. -/
  | duration (e : BadDuration)
  /-- The unit of the score is unknown. -/
  | timeUnit (e : UnknownUnit)
  /-- The sampling profiler has no event to sample. -/
  | noEvents
  deriving DecidableEq, Repr

/-- The wording of an error. -/
def ConfigError.message : ConfigError → String
  | missing path => "failed to read " ++ path ++ ": No such file or directory (os error 2)"
  | malformed => "invalid configuration"
  | duration e => e.message
  | timeUnit e => "invalid value for time_unit: " ++ e.message
  | noEvents => "invalid value for profilers.perf.events: at least one event is required"

/-- Settings for all trials of a run. -/
structure Runner where
  /-- Measured forks. -/
  forks : Option UInt32 := none
  /-- Forks whose results are discarded. -/
  warmupForks : Option UInt32 := none
  /-- Warmup iterations. -/
  warmupIterations : Option UInt32 := none
  /-- The time of a warmup iteration. -/
  warmupTime : Option String := none
  /-- The invocations of a warmup iteration. -/
  warmupBatch : Option UInt64 := none
  /-- Measured iterations. -/
  iterations : Option UInt32 := none
  /-- The time of a measured iteration. -/
  time : Option String := none
  /-- The invocations of a measured iteration. -/
  batch : Option UInt64 := none
  /-- Threads of the implicit group. -/
  threads : Option UInt32 := none
  /-- The longest wait for one answer of a worker. -/
  timeout : Option String := none
  /-- Whether a failure ends the whole run. -/
  failOnError : Option Bool := none
  /-- Whether threads stay busy until all have finished measuring. -/
  syncIterations : Option Bool := none
  /-- Whether the active threads ramp up over the iterations. -/
  scale : Option Bool := none
  /-- The unit of the score. -/
  unit : Option String := none
  /-- How many trials run at the same time. -/
  jobs : Option Nat := none
  deriving DecidableEq, Repr, Inhabited

namespace Runner

/-- These settings with others over them: where both give a setting, the other one counts. -/
def merged (base top : Runner) : Runner where
  forks := top.forks.or base.forks
  warmupForks := top.warmupForks.or base.warmupForks
  warmupIterations := top.warmupIterations.or base.warmupIterations
  warmupTime := top.warmupTime.or base.warmupTime
  warmupBatch := top.warmupBatch.or base.warmupBatch
  iterations := top.iterations.or base.iterations
  time := top.time.or base.time
  batch := top.batch.or base.batch
  threads := top.threads.or base.threads
  timeout := top.timeout.or base.timeout
  failOnError := top.failOnError.or base.failOnError
  syncIterations := top.syncIterations.or base.syncIterations
  scale := top.scale.or base.scale
  unit := top.unit.or base.unit
  jobs := top.jobs.or base.jobs

/-- The duration of a setting, if it is given. -/
def duration? : Option String → Except ConfigError (Option Duration)
  | none => .ok none
  | some s =>
    match Duration.parse s with
    | .ok d => .ok (some d)
    | .error e => .error (.duration e)

/-- The unit of a setting, if it is given. -/
def unit? : Option String → Except ConfigError (Option TimeUnit)
  | none => .ok none
  | some s =>
    match TimeUnit.parse s with
    | .ok u => .ok (some u)
    | .error e => .error (.timeUnit e)

/-- The settings up to the warmup time. -/
def applyForks (r : Runner) (s : Spec) : Spec :=
  { s with
    forks := r.forks.or s.forks
    warmupForks := r.warmupForks.or s.warmupForks
    warmup := { s.warmup with iterations := r.warmupIterations.or s.warmup.iterations } }

/-- The warmup time, and the settings up to the measurement time. -/
def applyWarmup (r : Runner) (time : Option Duration) (s : Spec) : Spec :=
  { s with
    warmup := { s.warmup with
      time := time.or s.warmup.time
      batch := r.warmupBatch.or s.warmup.batch }
    measurement := { s.measurement with iterations := r.iterations.or s.measurement.iterations } }

/-- The measurement time, and the settings up to the timeout. -/
def applyMeasurement (r : Runner) (time : Option Duration) (s : Spec) : Spec :=
  { s with
    measurement := { s.measurement with
      time := time.or s.measurement.time
      batch := r.batch.or s.measurement.batch }
    threads := r.threads.or s.threads }

/-- The timeout, and the settings up to the unit. -/
def applyTimeout (r : Runner) (timeout : Option Duration) (s : Spec) : Spec :=
  { s with
    timeout := timeout.or s.timeout
    failOnError := r.failOnError.or s.failOnError
    syncIterations := r.syncIterations.or s.syncIterations
    scale := r.scale.or s.scale }

/-- The unit. -/
def applyUnit (unit : Option TimeUnit) (s : Spec) : Spec := { s with unit := unit.or s.unit }

/-- Write the settings into a specification, in their order.  At the first one that cannot be
used this stops, and what was written before stays. -/
def apply (r : Runner) (s : Spec) : Option ConfigError × Spec :=
  let s := r.applyForks s
  match duration? r.warmupTime with
  | .error e => (some e, s)
  | .ok time =>
    let s := r.applyWarmup time s
    match duration? r.time with
    | .error e => (some e, s)
    | .ok time =>
      let s := r.applyMeasurement time s
      match duration? r.timeout with
      | .error e => (some e, s)
      | .ok timeout =>
        let s := r.applyTimeout timeout s
        match unit? r.unit with
        | .error e => (some e, s)
        | .ok unit => (none, applyUnit unit s)

/-- The specification with the settings written into it, if all of them can be used. -/
def applied (r : Runner) (s : Spec) : Except ConfigError Spec :=
  match r.apply s with
  | (none, s) => .ok s
  | (some e, _) => .error e

end Runner

end Microbench
