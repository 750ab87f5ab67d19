import Microbench.Number.Whole
import Microbench.Spec
import Microbench.Task.Seat
import Microbench.Trial.Phase

/-!
# Settings of a trial

A specification leaves most settings open.  Resolved against the declaration of
its task it gives everything that is needed to run a trial, or the reason why no
trial can be run.

## Main definitions

* `Settings` — everything needed to run a trial.
* `Settings.resolve` — fill the gaps of a specification with the defaults.
* `Settings.activeThreads` — how many threads of each group take part in an iteration.
-/

namespace Microbench

/-- How long an iteration lasts. -/
inductive IterationLength
  /-- Until this time has passed. -/
  | time (target : Duration)
  /-- This many invocations of every thread. -/
  | invocations (n : UInt64)
  deriving DecidableEq, Repr, Inhabited

/-- The iterations of one phase. -/
structure PhaseSettings where
  /-- Which phase. -/
  phase : Phase
  /-- How many iterations. -/
  count : UInt32
  /-- How long each of them lasts. -/
  length : IterationLength
  deriving DecidableEq, Repr, Inhabited

/-- What must not be zero. -/
inductive Quantity
  /-- The number of threads of a group. -/
  | threads
  /-- The number of invocations of an iteration. -/
  | batch
  /-- The time of an iteration. -/
  | time
  /-- The number of measured iterations. -/
  | iterations
  /-- The longest wait for an answer. -/
  | timeout
  deriving DecidableEq, Repr

/-- A quantity in running text. -/
def Quantity.text : Quantity → String
  | threads => "thread count"
  | batch => "batch size"
  | time => "iteration time"
  | iterations => "measurement iterations"
  | timeout => "timeout"

/-- Why a specification cannot be run. -/
inductive SettingsError
  /-- The mode stands for several. -/
  | unexpandedMode (mode : Mode)
  /-- A quantity is zero. -/
  | notPositive (quantity : Quantity)
  /-- The number of group sizes is not the number of groups. -/
  | groupCount (expected got : Nat)
  deriving DecidableEq, Repr

/-- The wording of an error. -/
def SettingsError.message : SettingsError → String
  | unexpandedMode mode => "mode " ++ mode.label ++ " must be expanded before running"
  | notPositive quantity => quantity.text ++ " must be positive"
  | groupCount expected got =>
    "task declares " ++ Whole.text expected ++ " thread groups, got " ++ Whole.text got

/-- Everything needed to run a trial. -/
structure Settings where
  /-- The task. -/
  task : String
  /-- What is measured; never all modes at once. -/
  mode : Mode
  /-- The unit of the score. -/
  unit : TimeUnit
  /-- The iterations whose results are discarded. -/
  warmup : PhaseSettings
  /-- The iterations that count. -/
  measurement : PhaseSettings
  /-- The thread groups, in the order of the declaration. -/
  groups : List Group
  /-- The parameter values. -/
  bindings : Dict String
  /-- Whether threads stay busy until all have finished measuring. -/
  syncIterations : Bool
  /-- Whether the active threads ramp up over the iterations. -/
  scale : Bool
  /-- Whether a failure ends the whole run. -/
  failOnError : Bool
  /-- Measured forks. -/
  forks : UInt32
  /-- Forks whose results are discarded. -/
  warmupForks : UInt32
  /-- The longest wait for one answer of a worker. -/
  timeout : Duration
  deriving DecidableEq, Inhabited

namespace Settings

/-- Iterations of a phase when none are asked for. -/
def defaultIterations : UInt32 := 5

/-- The time of an iteration when none is asked for. -/
def defaultTime : Duration := .ofSeconds 1

/-- Measured forks when none are asked for. -/
def defaultForks : UInt32 := 1

/-- Discarded forks when none are asked for. -/
def defaultWarmupForks : UInt32 := 0

/-- Threads of the implicit group when none are asked for. -/
def defaultThreads : UInt32 := 1

/-- The longest wait for an answer when none is asked for. -/
def defaultTimeout : Duration := .ofSeconds 600

/-- The name of the implicit group. -/
def implicitGroup : String := "main"

/-- The groups of a task that declares none. -/
def implicitGroups (s : Spec) : Except SettingsError (List Group) :=
  match s.groupSizes with
  | [] => .ok [⟨implicitGroup, s.threads.getD defaultThreads⟩]
  | [threads] => .ok [⟨implicitGroup, threads⟩]
  | sizes => .error (.groupCount 1 sizes.length)

/-- The declared groups with the sizes that are asked for. -/
def declaredGroups (groups : List Group) (sizes : List UInt32) :
    Except SettingsError (List Group) :=
  if sizes.isEmpty then .ok groups
  else if sizes.length = groups.length then
    .ok (List.zipWith (fun g threads => { g with threads }) groups sizes)
  else .error (.groupCount groups.length sizes.length)

/-- The thread groups, each of which must have a thread. -/
def resolveGroups (s : Spec) (d : Declaration) : Except SettingsError (List Group) := do
  let groups ← if d.groups.isEmpty then implicitGroups s else declaredGroups d.groups s.groupSizes
  if groups.any (·.threads = 0) then .error (.notPositive .threads) else .ok groups

/-- The length of the iterations of a phase: a number of invocations goes before a time, and
a single shot is one invocation unless it is told otherwise. -/
def resolveLength (p : PhaseSpec) (singleShot : Bool) : Except SettingsError IterationLength :=
  match p.batch with
  | some n => if n = 0 then .error (.notPositive .batch) else .ok (.invocations n)
  | none =>
    if singleShot then .ok (.invocations 1)
    else
      let time := p.time.getD defaultTime
      if time.nanos = 0 then .error (.notPositive .time) else .ok (.time time)

/-- The iterations of a phase. -/
def resolvePhase (phase : Phase) (p : PhaseSpec) (singleShot : Bool) :
    Except SettingsError PhaseSettings := do
  let length ← resolveLength p singleShot
  return ⟨phase, p.iterations.getD defaultIterations, length⟩

/-- Everything needed to run a trial, or why there can be none. -/
def resolve (s : Spec) (d : Declaration) : Except SettingsError Settings := do
  if s.mode = .all then .error (.unexpandedMode s.mode)
  let groups ← resolveGroups s d
  let singleShot : Bool := s.mode = .singleShot
  let warmup ← resolvePhase .warmup s.warmup singleShot
  let measurement ← resolvePhase .measurement s.measurement singleShot
  if measurement.count = 0 then .error (.notPositive .iterations)
  let timeout := s.timeout.getD defaultTimeout
  if timeout.nanos = 0 then .error (.notPositive .timeout)
  return {
    task := s.name
    mode := s.mode
    unit := s.unit.getD s.mode.defaultUnit
    warmup, measurement, groups
    bindings := s.bindings
    syncIterations := s.syncIterations.getD true
    scale := s.scale.getD false
    failOnError := s.failOnError.getD true
    forks := s.forks.getD defaultForks
    warmupForks := s.warmupForks.getD defaultWarmupForks
    timeout }

/-- The iterations of a phase. -/
def phase (s : Settings) : Phase → PhaseSettings
  | .warmup => s.warmup
  | .measurement => s.measurement

/-- The iterations of both phases, in 32 bits. -/
def iterations (s : Settings) : UInt32 := s.warmup.count + s.measurement.count

/-- One more, unless that is out of range. -/
def successor (n : UInt32) : UInt32 := if n.toNat = Whole.max32 then n else n + 1

/-- How many threads of each group take part in the iteration with this index of a phase:
all, or with scaling one more in every iteration until there are no more. -/
def activeThreads (s : Settings) (index : UInt32) : List UInt32 :=
  s.groups.map fun g => if s.scale then min g.threads (successor index) else g.threads

/-- How many threads take part in each iteration of a phase. -/
def threadSequence (s : Settings) (phase : Phase) : List UInt32 :=
  (List.range (s.phase phase).count.toNat).map fun index =>
    (s.activeThreads (UInt32.ofNat index)).foldl (· + ·) 0

/-- Whether a thread takes part when so many threads of each group do. -/
def isActive (active : List UInt32) (seat : Seat) : Bool :=
  seat.indexInGroup < (active.getD seat.groupIndex 0).toNat

end Settings

end Microbench
