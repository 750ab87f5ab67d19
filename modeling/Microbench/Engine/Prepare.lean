import Microbench.Engine.Lifecycle
import Microbench.Task.Registry

/-!
# Preparing a trial

From a specification and the names of probes to a trial that can be run.  What
stands in the way is a failure of the configuration, with the name of the
specification as its task, unless the task breaks off while an instance of it is
made.

## Main definitions

* `configurationFailure` — such a failure.
* `Conductor.prepare` — a trial of a registered task.
* `Conductor.ofRegistry` — a trial of the task that a specification names.
-/

namespace Microbench

/-- A failure of the configuration. -/
def configurationFailure (s : Spec) (message : String) : Failure :=
  ⟨s.name, .configuration, none, message⟩

/-- What is said of a task that is not registered. -/
def unknownTaskMessage (name : String) : String := "unknown benchmark task: " ++ name

namespace Conductor

variable {m : Type → Type} [Monad m]

/-- The probes with these names; the first name that no probe has is an error. -/
def probesNamed (host : Host m) (names : List String) : Except UnknownProbe (List (Probe m)) :=
  names.mapM fun name =>
    match Probe.byName? host name with
    | some p => .ok p
    | none => .error ⟨name⟩

/-- A trial of a registered task: first the settings, then the probes, then the instance. -/
def prepare (host : Host m) (entry : TaskEntry m) (s : Spec) (probes : List String) :
    ExceptT (Abort Failure) m (Conductor m) := do
  match Settings.resolve s entry.declaration with
  | .error e => throw (.error (configurationFailure s e.message))
  | .ok settings =>
    match probesNamed host probes with
    | .error e => throw (.error (configurationFailure s e.message))
    | .ok probes =>
      match ← ExceptT.lift (entry.create settings.bindings).run with
      | .error (.error e) => throw (.error (configurationFailure s e.text))
      | .error (.breakdown b) => throw (.breakdown b)
      | .ok task => return { task, settings, host, probes }

/-- A trial of the task that a specification names. -/
def ofRegistry (host : Host m) (registry : Registry m) (s : Spec) (probes : List String) :
    ExceptT (Abort Failure) m (Conductor m) :=
  match registry.get? s.name with
  | none => throw (.error (configurationFailure s (unknownTaskMessage s.name)))
  | some entry => prepare host entry s probes

end Conductor

end Microbench
