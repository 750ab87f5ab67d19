import Microbench.Engine.Meter

/-!
# Batches of invocations

A thread invokes the task a given number of times.  If nothing has to happen
around a single invocation the clock is read before and after the whole batch;
otherwise every invocation is run between its fixtures and timed on its own.

## Main definitions

* `Bench` — the task with what is the same for all invocations of a trial.
* `Bench.plainBatch`, `Bench.bracketedBatch` — the two ways of running a batch.
* `Bench.batch` — the way that the trial needs.
-/

namespace Microbench

/-- A task with its settings and the machine it runs on. -/
structure Bench (m : Type → Type) where
  /-- The task. -/
  task : Task m
  /-- The settings of the trial. -/
  settings : Settings
  /-- The machine. -/
  host : Host m

namespace Bench

variable {m : Type → Type} [Monad m]

/-- A failure of the task. -/
def failure (b : Bench m) (site : Site) (thread : Option Nat) (e : TaskError) : Failure :=
  ⟨b.settings.task, site, thread, e.text⟩

/-- Call the task; an error becomes a failure at a site. -/
def call (b : Bench m) (site : Site) (thread : Option Nat) (c : Call) : ExceptT Failure m Reply :=
  ExceptT.mk do
    match ← (b.task.call c).run with
    | .ok reply => return .ok reply
    | .error e => return .error (b.failure site thread e)

/-- The place of the group of a thread. -/
def groupOf (b : Bench m) (seat : Seat) : GroupSeat :=
  (GroupSeat.layout b.settings.groups).getD seat.groupIndex
    ⟨seat.groupIndex, seat.groupName, seat.groupThreads⟩

/-- The target of a scope as a thread sees it. -/
def target (b : Bench m) (seat : Seat) : Scope → Target
  | .benchmark => .benchmark
  | .group => .group (b.groupOf seat)
  | .thread => .thread seat

/-- Run the invocation fixtures of a stage in a thread. -/
def invocationFixtures (b : Bench m) (seat : Seat) (stage : Stage) : ExceptT Failure m Unit :=
  stage.scopes.forM fun scope => do
    if b.task.fixtures.has .invocation scope then
      let _ ← b.call (stage.site .invocation) (some seat.index)
        (.fixture stage .invocation (b.target seat scope))

/-- The time on the clock. -/
def now (b : Bench m) : ExceptT Failure m Duration := ExceptT.lift b.host.now

/-- Take a reply in a thread; an objection to it is a failure of the invocation. -/
def accept (b : Bench m) (seat : Seat) (w : Work) (reply : Reply) : ExceptT Failure m Work :=
  match w.take reply with
  | .ok w => pure w
  | .error e => throw (b.failure .invocation (some seat.index) e)

/-- Invoke the task `n` times in a row. -/
def invokeTimes (b : Bench m) (seat : Seat) : Nat → Work → ExceptT Failure m Work
  | 0, w => pure w
  | n + 1, w => do
    let reply ← b.call .invocation (some seat.index) (.invoke seat)
    let w ← b.accept seat w reply
    invokeTimes b seat n w

/-- A batch that is timed as a whole. -/
def plainBatch (b : Bench m) (seat : Seat) (n : Nat) (w : Work) : ExceptT Failure m Work := do
  let start ← b.now
  let w ← b.invokeTimes seat n w
  let stop ← b.now
  return { w with meter := { w.meter with
    operations := w.meter.operations + n
    elapsed := w.meter.elapsed.add (stop.minus start) } }

/-- Whether the next invocation is to be timed: all are, unless they are sampled. -/
def wantsTime (w : Work) : Bool × Work :=
  match w.meter.sampler with
  | none => (true, w)
  | some t =>
    let (wanted, t) := t.advance
    (wanted, { w with meter := { w.meter with sampler := some t } })

/-- Count an invocation, with its time if it was timed. -/
def count (w : Work) (elapsed : Option Duration) : Work :=
  let meter := { w.meter with operations := w.meter.operations + 1 }
  match elapsed with
  | none => { w with meter }
  | some d => { w with meter := { meter with
      elapsed := meter.elapsed.add d
      sampler := meter.sampler.map fun t => t.push d } }

/-- One invocation between its fixtures: its reply, and its time if that is wanted. -/
def invocation (b : Bench m) (seat : Seat) (wanted : Bool) :
    ExceptT Failure m (Reply × Option Duration) := do
  b.invocationFixtures seat .setup
  let start ← if wanted then some <$> b.now else pure none
  let reply ← b.call .invocation (some seat.index) (.invoke seat)
  let stop ← if wanted then some <$> b.now else pure none
  b.invocationFixtures seat .teardown
  return (reply, start.bind fun t => stop.map fun t' => t'.minus t)

/-- A batch whose invocations are run between their fixtures and timed one by one. -/
def bracketedBatch (b : Bench m) (seat : Seat) : Nat → Work → ExceptT Failure m Work
  | 0, w => pure w
  | n + 1, w => do
    let (wanted, w) := wantsTime w
    let (reply, elapsed) ← b.invocation seat wanted
    let w ← b.accept seat (count w elapsed) reply
    bracketedBatch b seat n w

/-- Whether invocations have to be run one by one. -/
def isBracketed (b : Bench m) : Bool :=
  b.settings.mode = .sampleTime || b.task.fixtures.anyAt .invocation

/-- A batch of `n` invocations. -/
def batch (b : Bench m) (seat : Seat) (n : Nat) (w : Work) : ExceptT Failure m Work :=
  if b.isBracketed then b.bracketedBatch seat n w else b.plainBatch seat n w

end Bench

end Microbench
