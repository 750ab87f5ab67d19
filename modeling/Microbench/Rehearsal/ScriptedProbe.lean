import Microbench.Profiler.Probe
import Microbench.Rehearsal.Script

/-!
# Scripted probes

A scripted probe fails or finds metrics as its script says, or it echoes what it
was asked.

## Main definitions

* `HookFault`, `HookFault.error` — how a hook fails, and the error that it raises.
* `ProbeHook` — what the second hook does.
* `scriptedProbe` — the probe.
-/

namespace Microbench.Rehearsal

/-- How a hook of a profiler fails. -/
inductive HookFault
  /-- The profiler cannot be used here. -/
  | unavailable (text : String)
  /-- It fails like a task. -/
  | raise (r : Raise)
  deriving DecidableEq, Repr, Inhabited

/-- The error of a hook inside the worker. -/
def HookFault.error : HookFault → ProfilerError
  | unavailable text => .unavailable text
  | raise (.error text) => .failed text
  | raise (.io text) => .io text
  | raise (.panic text) => .panicked (TaskError.panicked text).text
  | raise .panicOther => .panicked (TaskError.panicked unknownPanic).text

/-- What the hook after an iteration does. -/
inductive ProbeHook
  /-- It fails. -/
  | fail (fault : HookFault)
  /-- It finds these metrics. -/
  | find (metrics : List Metric)
  /-- It tells the task, the phase, the number of secondary metrics and the primary score. -/
  | echo

/-- The metric that echoes what a probe was asked. -/
def echo (s : Settings) (p : PhaseSettings) (r : IterationResult) : Metric :=
  let label := s.task ++ " " ++ p.phase.text ++ " " ++ Whole.text r.secondary.size
  let score := match r.primary with
    | some primary => primary.score
    | none => -1.0
  .scalar label score "#" .max

/-- A probe that follows a script. -/
def scriptedProbe (name : String) (before : Option HookFault) (after : ProbeHook) :
    Probe Scene where
  name := name
  before _ _ :=
    match before with
    | some fault => throw fault.error
    | none => pure none
  after s p _ r :=
    match after with
    | .fail fault => throw fault.error
    | .find metrics => pure metrics
    | .echo => pure [echo s p r]

end Microbench.Rehearsal
