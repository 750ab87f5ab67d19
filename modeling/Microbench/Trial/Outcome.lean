import Microbench.Breakdown
import Microbench.Session.Failure
import Microbench.Spec
import Microbench.Stats.Pooling

/-!
# Outcomes of trials

What a trial has found out, or why it has found out nothing.

## Main definitions

* `ForkResult` — what one fork has measured.
* `TrialResult` — what a whole trial has, all forks pooled.
* `TrialError` — why a trial has no result.
* `Halt` — what ends a trial before its time.
-/

namespace Microbench

/-- What one fork has measured. -/
structure ForkResult where
  /-- Its index. -/
  index : UInt32
  /-- The process that has run it. -/
  pid : UInt32
  /-- Its measured iterations, in order. -/
  iterations : List IterationResult := []
  /-- The warnings of its probes. -/
  warnings : List String := []
  deriving Inhabited

/-- Take in one more report: the warnings of every iteration, the results of those that count. -/
def ForkResult.addReport (f : ForkResult) (r : Report) : ForkResult :=
  { f with
    warnings := f.warnings ++ r.warnings
    iterations := f.iterations ++ (if r.phase = .measurement then [r.result] else []) }

/-- Why a trial has no result. -/
inductive TrialError
  /-- It cannot be run as specified. -/
  | configuration (label message : String)
  /-- The task has failed. -/
  | worker (failure : Failure)
  /-- The worker or the channel to it has failed. -/
  | process (label : String) (fork : UInt32) (failure : ProcessFailure)
  deriving DecidableEq, Repr

namespace TrialError

/-- The wording of an error. -/
def message : TrialError → String
  | configuration label text => label ++ ": configuration error: " ++ text
  | worker failure => failure.describe
  | process label fork failure =>
    label ++ ", fork " ++ Whole.text fork.toNat ++ ": " ++ failure.message

/-- A failure that a worker has reported: one of the configuration is not the task's. -/
def reported (label : String) (f : Failure) : TrialError :=
  if f.site = .configuration then configuration label f.message else worker f

end TrialError

/-- What ends a trial before its time: it has no result, or something has broken off that nobody
guards against. -/
abbrev Halt := Abort TrialError

/-- What a trial has found out. -/
structure TrialResult where
  /-- What was run. -/
  spec : Spec
  /-- The measured forks, in order. -/
  forks : List ForkResult := []
  /-- The measured iterations of all forks, pooled. -/
  totals : Totals := {}
  /-- What the monitors have found, by label. -/
  monitored : Dict Metric := .empty
  /-- What went wrong beside it. -/
  warnings : List String := []
  /-- Why there is no result, if the trial has failed. -/
  failure : Option String := none
  deriving Inhabited

namespace TrialResult

/-- Metrics of one label pooled over the iterations. -/
def poolByLabel (ms : List Metric) : Dict Metric :=
  (ms.map (·.label)).eraseDups.foldl (fun d label =>
    match Pooling.iterations.pool (ms.filter (·.label = label)) with
    | some m => d.insert label m
    | none => d) .empty

/-- The result of a trial from its forks and from what the monitors have found. -/
def pooled (s : Spec) (forks : List ForkResult) (found : List Metric) (warnings : List String) :
    TrialResult where
  spec := s
  forks := forks
  totals := .ofIterations (forks.flatMap (·.iterations))
  monitored := poolByLabel found
  warnings := warnings ++ forks.flatMap (·.warnings)

/-- A trial that has failed. -/
def failed (s : Spec) (e : TrialError) : TrialResult := { spec := s, failure := some e.message }

/-- Whether the trial has failed. -/
def isFailed (t : TrialResult) : Bool := t.failure.isSome

/-- The secondary metrics: first those of the task, then those of the monitors. -/
def secondaries (t : TrialResult) : List Metric := t.totals.secondary.values ++ t.monitored.values

end TrialResult

end Microbench
