import Microbench.Profiler.Monitor
import Microbench.Rehearsal.ScriptedProbe

/-!
# Scripted monitors

A scripted monitor fails or finds metrics as its script says, or it tells what it
was given.  A scripted recorder gives out a recording that was made beforehand.

## Main definitions

* `MonitorHook` — what the second hook does.
* `scriptedMonitor` — the monitor.
* `scriptedRecorder` — the recorder.
-/

namespace Microbench.Rehearsal

/-- What is said of a panic outside the worker whose payload is no text. -/
def foreignPanic : String := "non-string panic payload"

/-- The error of a hook outside the worker. -/
def HookFault.outerError : HookFault → ProfilerError
  | unavailable text => .unavailable text
  | raise (.error text) => .failed text
  | raise (.io text) => .io text
  | raise (.panic text) => .panicked text
  | raise .panicOther => .panicked foreignPanic

/-- What the hook after a fork does. -/
inductive MonitorHook
  /-- It fails. -/
  | fail (fault : HookFault)
  /-- It finds these metrics. -/
  | find (metrics : List Metric)
  /-- It tells what it was given. -/
  | capture

/-- The metrics that tell what a monitor was given: the sizes of the outputs, the fork, and that
the process is the fork's own. -/
def captureMetrics (fork : ForkResult) (output : Output) : List Metric :=
  [.scalar "out" (Float.ofNat output.stdout.size) "B" .sum,
   .scalar "err" (Float.ofNat output.stderr.size) "B" .average,
   .scalar "fork" (Float.ofNat fork.index.toNat) "#" .max,
   .scalar "pid" 1.0 "#" .max]

/-- A monitor that follows a script. -/
def scriptedMonitor {m : Type → Type} [Monad m] (name : String)
    (launchPrefix launchArgs : List String) (before : Option HookFault) (after : MonitorHook) :
    Monitor m where
  name := name
  launchPrefix _ := pure launchPrefix
  launchArgs _ := pure launchArgs
  before _ :=
    match before with
    | some fault => throw fault.outerError
    | none => pure ()
  after fork output :=
    match after with
    | .fail fault => throw fault.outerError
    | .find metrics => pure metrics
    | .capture => pure (captureMetrics fork output)

/-- A recorder that gives out a recording made beforehand, or that cannot be started. -/
def scriptedRecorder {m : Type → Type} [Monad m] (startFault : Option String)
    (recording : Option ByteArray) : Recorder m where
  start _ := return match startFault with
    | some reason => .error reason
    | none => .ok ()
  script _ := return recording

end Microbench.Rehearsal
