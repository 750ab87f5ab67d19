import Microbench.Config.File

/-!
# Settings of the sampling profiler

## Main definitions

* `Sampling` — the settings.
* `Sampling.ofConfig` — the settings as they are written in a configuration.
-/

namespace Microbench

/-- Settings of the sampling profiler. -/
structure Sampling where
  /-- The events to sample. -/
  events : List String
  /-- How much of the recording is left out at its start. -/
  skip : Duration
  /-- How many symbols are reported for each event. -/
  top : Nat
  /-- The program that samples. -/
  binary : String
  deriving DecidableEq, Repr, Inhabited

namespace Sampling

/-- The name of the profiler. -/
def name : String := "perf"

/-- What the profiler does, in one line. -/
def description : String := "Hottest symbols of the worker from system-wide perf sampling"

/-- The settings as they are written in a configuration. -/
def ofConfig (c : SamplingConfig) : Except ConfigError Sampling :=
  if c.events.isEmpty then .error .noEvents
  else
    match Duration.parse c.skip with
    | .error e => .error (.duration e)
    | .ok skip => .ok ⟨c.events, skip, c.top, c.binary⟩

end Sampling

end Microbench
