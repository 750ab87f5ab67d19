import Microbench.Engine.Round
import Microbench.Profiler.Probe
import Microbench.Wire.Message

/-!
# The life of a trial

A trial is set up once, runs its warmup iterations and then those that count, and
is torn down once.  Any failure, and any call that is out of place, ends it for
good.

`ready → settingUp → warmup n → measurement n → tearingDown → done`, and from everywhere to
`failed`.

## Main definitions

* `Lifecycle` — where in its life a trial is.
* `Conductor` — what runs a trial: the bench, the probes and the patience.
* `Conductor.setUp`, `Conductor.iterate`, `Conductor.tearDown` — the three calls.
* `Conductor.runAll` — a whole trial.
-/

namespace Microbench

/-- Where in its life a trial is; the numbers count the finished iterations of a phase. -/
inductive Lifecycle
  /-- Nothing has run. -/
  | ready
  /-- Trial setup runs. -/
  | settingUp
  /-- Warmup. -/
  | warmup (done : UInt32)
  /-- Measurement. -/
  | measurement (done : UInt32)
  /-- Trial teardown runs. -/
  | tearingDown
  /-- The trial has ended well. -/
  | done
  /-- The trial has failed. -/
  | failed
  deriving DecidableEq, Repr, Inhabited

/-- The name of a position, as failures quote it. -/
def Lifecycle.name : Lifecycle → String
  | ready => "Init"
  | settingUp => "TrialSetup"
  | warmup n => "Warmup(" ++ Whole.text n.toNat ++ ")"
  | measurement n => "Measurement(" ++ Whole.text n.toNat ++ ")"
  | tearingDown => "TrialTeardown"
  | done => "Done"
  | failed => "Failed"

/-- What runs a trial. -/
structure Conductor (m : Type → Type) extends Bench m where
  /-- The probes, in the order in which they are asked. -/
  probes : List (Probe m) := []
  /-- How many steps a lane may take before it is given up. -/
  patience : Nat := 0x4000000000000000

namespace Conductor

variable {m : Type → Type} [Monad m]

/-- The answer to a call: what it gives, and the position afterwards. -/
abbrev Answer (α : Type) := Except Failure α × Lifecycle

/-- A failed call leaves the trial failed, a good one leads on. -/
def conclude {α : Type} (next : Lifecycle) (x : ExceptT Failure m α) : m (Answer α) := do
  match ← x.run with
  | .ok a => return (.ok a, next)
  | .error f => return (.error f, .failed)

/-- The failure of a call that is out of place. -/
def misuse (c : Conductor m) (action : String) (position : Lifecycle) : Failure :=
  c.failure .configuration none
    (.message ("cannot " ++ action ++ " in state " ++ position.name))

/-- The targets of a scope for the controlling thread; thread state is only its own at the
level of the trial. -/
def targets (c : Conductor m) (level : Level) : Scope → List Target
  | .benchmark => [.benchmark]
  | .group => (GroupSeat.layout c.settings.groups).map .group
  | .thread => if level = .trial then (Seat.layout c.settings.groups).map .thread else []

/-- The thread that a failure about a target belongs to. -/
def threadOf : Target → Option Nat
  | .thread seat => some seat.index
  | _ => none

/-- Run the fixtures of a level at a stage in the controlling thread. -/
def fixtures (c : Conductor m) (level : Level) (stage : Stage) : ExceptT Failure m Unit :=
  stage.scopes.forM fun scope => do
    if c.task.fixtures.has level scope then
      (c.targets level scope).forM fun target => do
        let _ ← c.call (stage.site level) (threadOf target) (.fixture stage level target)

/-- Build all state: what is shared, then the groups, then the threads. -/
def build (c : Conductor m) : ExceptT Failure m Unit :=
  Scope.all.forM fun scope =>
    (c.targets .trial scope).forM fun target => do
      let _ ← c.call (.setup .trial) (threadOf target) (.build target)

/-- Set the trial up. -/
def setUp (c : Conductor m) (position : Lifecycle) : m (Answer Unit) :=
  match position with
  | .ready => conclude (.warmup 0) do
    c.build
    c.fixtures .trial .setup
  | position => pure (.error (c.misuse "set up trial" position), .failed)

/-- Where the warmup has been used up, measurement begins. -/
def afterWarmup (c : Conductor m) : Lifecycle → Lifecycle
  | .warmup n => if c.settings.warmup.count ≤ n then .measurement 0 else .warmup n
  | position => position

/-- The next iteration at a position, if there is one. -/
def nextIteration? (c : Conductor m) (position : Lifecycle) : Option (Phase × UInt32) :=
  match position with
  | .warmup n => some (.warmup, n)
  | .measurement n => if n < c.settings.measurement.count then some (.measurement, n) else none
  | _ => none

/-- The position after an iteration. -/
def after (phase : Phase) (index : UInt32) : Lifecycle :=
  match phase with
  | .warmup => .warmup (index + 1)
  | .measurement => .measurement (index + 1)

/-- The seats that take part in an iteration. -/
def activeSeats (c : Conductor m) (index : UInt32) : List Seat :=
  (Seat.layout c.settings.groups).filter (Settings.isActive (c.settings.activeThreads index))

/-- Run an iteration of a phase: its fixtures around a round of the active threads. -/
def runIteration (c : Conductor m) (length : IterationLength) (index : UInt32) :
    ExceptT Failure m IterationResult := do
  c.fixtures .iteration .setup
  let harvests ← Round.run c.toBench length c.patience (c.activeSeats index)
  c.fixtures .iteration .teardown
  let result := IterationResult.ofThreads (harvests.map (·.metrics))
  return { result with operations := Whole.total (harvests.map (·.operations)) }

/-- A probe with what it noted before an iteration. -/
abbrev Noted (m : Type → Type) := Probe m × Option Usage

/-- Ask the probes before an iteration: their notes and the warnings. -/
def askBefore (c : Conductor m) (p : PhaseSettings) :
    List (Probe m) → m (List (Noted m) × List String)
  | [] => pure ([], [])
  | probe :: rest => do
    let answer ← (probe.before c.settings p).run
    let (notes, warnings) ← askBefore c p rest
    match answer with
    | .ok note => return ((probe, note) :: notes, warnings)
    | .error e =>
      return ((probe, none) :: notes,
        (probe.name ++ ": before iteration: " ++ e.message) :: warnings)

/-- Ask the probes after an iteration: the result with what they found, and the warnings. -/
def askAfter (c : Conductor m) (p : PhaseSettings) (result : IterationResult) :
    List (Noted m) → m (IterationResult × List String)
  | [] => pure (result, [])
  | (probe, note) :: rest => do
    match ← (probe.after c.settings p note result).run with
    | .ok found => askAfter c p (found.foldl IterationResult.addSecondary result) rest
    | .error e =>
      let (result, warnings) ← askAfter c p result rest
      return (result, (probe.name ++ ": after iteration: " ++ e.message) :: warnings)

/-- Run the iteration with this index of a phase, with the probes around it. -/
def report (c : Conductor m) (phase : Phase) (index : UInt32) : ExceptT Failure m Report := do
  let p := c.settings.phase phase
  let (notes, before) ← ExceptT.lift (c.askBefore p c.probes)
  let result ← c.runIteration p.length index
  let (result, after) ← ExceptT.lift (c.askAfter p result notes)
  return ⟨phase, index, result, before ++ after⟩

/-- Run the next iteration. -/
def iterate (c : Conductor m) (position : Lifecycle) : m (Answer Report) :=
  let position := c.afterWarmup position
  match c.nextIteration? position with
  | some (phase, index) => conclude (after phase index) (c.report phase index)
  | none => pure (.error (c.misuse "run an iteration" position), .failed)

/-- How many iterations have been run at a position from which the trial may be torn down. -/
def iterationsRun? (c : Conductor m) : Lifecycle → Option UInt32
  | .warmup n => some n
  | .measurement n => some (c.settings.warmup.count + n)
  | _ => none

/-- Tear the trial down; the answer is the number of iterations that were run. -/
def tearDown (c : Conductor m) (position : Lifecycle) : m (Answer UInt32) :=
  match c.iterationsRun? position with
  | some n => conclude .done do
    c.fixtures .trial .teardown
    return n
  | none => pure (.error (c.misuse "tear down trial" position), .failed)

/-- Run so many iterations, the reports coming last first. -/
def iterateTimes (c : Conductor m) : Nat → List Report → Lifecycle →
    m (Answer (List Report))
  | 0, reports, position => pure (.ok reports.reverse, position)
  | n + 1, reports, position => do
    match ← c.iterate position with
    | (.ok report, position) => iterateTimes c n (report :: reports) position
    | (.error f, position) => return (.error f, position)

/-- Run a whole trial. -/
def runAll (c : Conductor m) (position : Lifecycle) : m (Answer (List Report)) := do
  match ← c.setUp position with
  | (.error f, position) => return (.error f, position)
  | (.ok (), position) =>
    match ← c.iterateTimes c.settings.iterations.toNat [] position with
    | (.error f, position) => return (.error f, position)
    | (.ok reports, position) =>
      match ← c.tearDown position with
      | (.error f, position) => return (.error f, position)
      | (.ok _, position) => return (.ok reports, position)

end Conductor

end Microbench
