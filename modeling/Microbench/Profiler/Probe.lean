import Microbench.Profiler.Error
import Microbench.Stats.Pooling
import Microbench.Task.Basic
import Microbench.Trial.Settings

/-!
# Probes

A probe is a profiler inside the worker: it is asked before and after every
iteration, and what it finds is attached to the result of the iteration.

## Main definitions

* `Probe` — the two hooks; what the first one notes is handed to the second.
* `Probe.usage` — the probe that tells what the process has used up.
* `Probe.builtIn` — the probes that can be asked for by name.
-/

namespace Microbench

/-- A profiler inside the worker. -/
structure Probe (m : Type → Type) where
  /-- Its name. -/
  name : String
  /-- The hook before an iteration; it may note what the process has used up. -/
  before : Settings → PhaseSettings → ExceptT ProfilerError m (Option Usage)
  /-- The hook after an iteration, with the note and the result. -/
  after : Settings → PhaseSettings → Option Usage → IterationResult →
    ExceptT ProfilerError m (List Metric)

namespace Probe

/-- The name of the usage probe. -/
def usageName : String := "rusage"

/-- What the usage probe does, in one line. -/
def usageDescription : String := "CPU time, context switches and page faults from getrusage(2)"

/-- The metrics of what was used up between two readings. -/
def usageMetrics (start stop : Usage) : List Metric :=
  [.scalar "·cpu.user" (stop.userMillis - start.userMillis) "ms" .average,
   .scalar "·cpu.system" (stop.systemMillis - start.systemMillis) "ms" .average,
   .scalar "·ctxsw.voluntary" (.ofInt (stop.voluntarySwitches - start.voluntarySwitches)) "#"
     .average,
   .scalar "·ctxsw.involuntary" (.ofInt (stop.involuntarySwitches - start.involuntarySwitches)) "#"
     .average,
   .scalar "·faults.minor" (.ofInt (stop.minorFaults - start.minorFaults)) "#" .average,
   .scalar "·faults.major" (.ofInt (stop.majorFaults - start.majorFaults)) "#" .average]

variable {m : Type → Type} [Monad m]

/-- The probe that tells what the process has used up. -/
def usage (host : Host m) : Probe m where
  name := usageName
  before _ _ := ExceptT.lift (some <$> host.usage)
  after _ _ note _ :=
    match note with
    | none => throw (.failed "no usage captured before iteration")
    | some start => ExceptT.lift ((usageMetrics start ·) <$> host.usage)

/-- The names of the probes that can be asked for, with their descriptions. -/
def builtIn : List (String × String) := [(usageName, usageDescription)]

/-- The probe with this name. -/
def byName? (host : Host m) (name : String) : Option (Probe m) :=
  if name = usageName then some (usage host) else none

end Probe

/-- A name that no probe has. -/
structure UnknownProbe where
  /-- The name. -/
  name : String
  deriving DecidableEq, Repr

/-- The wording of the error. -/
def UnknownProbe.message (e : UnknownProbe) : String := "unknown internal profiler: " ++ e.name

end Microbench
