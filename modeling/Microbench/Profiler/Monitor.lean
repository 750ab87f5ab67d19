import Microbench.Breakdown
import Microbench.Profiler.Error
import Microbench.Profiler.Hotspots
import Microbench.Profiler.Sampling
import Microbench.Session.Launcher
import Microbench.Text.Lines
import Microbench.Trial.Outcome

/-!
# Monitors

A monitor is a profiler outside the worker.  It can change the command that
launches the worker, it is called before the launch, and after the end of a worker
that has done all its work.

## Main definitions

* `Monitor` — a monitor.
* `Recorder` — a tool that records samples.
* `Monitor.sampling` — the monitor that reports hot symbols.
-/

namespace Microbench

/-- A profiler outside the worker. -/
structure Monitor (m : Type → Type) where
  /-- Its name. -/
  name : String
  /-- The command that it puts before the worker's; nothing guards this hook. -/
  launchPrefix : Spec → ExceptT Breakdown m (List String)
  /-- The arguments that it adds to the worker's; nothing guards this hook. -/
  launchArgs : Spec → ExceptT Breakdown m (List String)
  /-- The hook before the launch. -/
  before : Spec → ExceptT ProfilerError m Unit
  /-- The hook after the end, with what the fork has measured and what the worker has written. -/
  after : ForkResult → Output → ExceptT ProfilerError m (List Metric)

/-- A tool that records samples of the whole machine. -/
structure Recorder (m : Type → Type) where
  /-- Start recording; if that fails, the reason. -/
  start : Sampling → m (Except String Unit)
  /-- Stop, and give out the recording as text if it can be converted. -/
  script : Sampling → m (Option ByteArray)

namespace Monitor

variable {m : Type → Type} [Monad m]

/-- What a recording tells about a process; nothing if there is no recording. -/
def samplingMetrics (s : Sampling) (pid : UInt32) : Option ByteArray → List Metric
  | some script => (Hotspots.collect (Text.lines script) pid.toNat s.skip s.events).metrics s.top
  | none => []

/-- The monitor that reports the hot symbols of the worker. -/
def sampling (recorder : Recorder m) (s : Sampling) : Monitor m where
  name := Sampling.name
  launchPrefix _ := pure []
  launchArgs _ := pure []
  before _ := do
    match ← ExceptT.lift (recorder.start s) with
    | .ok () => return ()
    | .error reason => throw (.unavailable (s.binary ++ ": " ++ reason))
  after fork _ := samplingMetrics s fork.pid <$> ExceptT.lift (recorder.script s)

end Monitor

end Microbench
