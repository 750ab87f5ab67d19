import Microbench.Engine.Batch
import Microbench.Engine.Pace

/-!
# One iteration of all threads

The threads of an iteration meet at a barrier after their iteration setup, then
measure, and, if so set, keep on invoking until the last of them has measured.
They share a flag that is raised by whatever fails and a count of those that have
left their measured part.

A round is a machine of lanes, one for each active thread.  A lane moves by
steps, each of which looks at or changes what is shared at most once, so that the
runs of a round are exactly the ways in which steps of the lanes can follow each
other.

### Shape of a lane

`entering → (alarming) → arriving → waiting → checking → starting → measuring ⇄ batching →
leaving → idling → looking ⇄ spinning → closing → ended`, with `refused` for a lane whose setup
failed, `broken` for one whose measurement failed, and `failing` for one that fails later.

## Main definitions

* `Lane.Place` — where a lane stands.
* `Lane.advance` — one step of one lane.
* `Round`, `Round.step` — the lanes together, and a step of one of them.
* `Round.run` — a run in which every lane in turn goes as far as it can before the others.
-/

namespace Microbench

/-- What a lane brings home. -/
structure Harvest where
  /-- Its metrics. -/
  metrics : List Metric
  /-- How many operations it measured. -/
  operations : Nat
  deriving Inhabited

/-- What the lanes of a round share. -/
structure Common where
  /-- How many lanes there are. -/
  total : Nat
  /-- Whether something has failed. -/
  failed : Bool := false
  /-- How many lanes have come to the barrier. -/
  arrived : Nat := 0
  /-- How many lanes have left their measured part. -/
  finished : Nat := 0
  deriving DecidableEq, Repr, Inhabited

namespace Lane

/-- Where a lane stands. -/
inductive Place
  /-- Before its iteration setup. -/
  | entering
  /-- Its setup has failed, the flag is not up yet. -/
  | alarming (e : TaskError)
  /-- Before the barrier, with the error of its setup. -/
  | arriving (refusal : Option TaskError)
  /-- At the barrier. -/
  | waiting (refusal : Option TaskError)
  /-- Past the barrier after a failed setup. -/
  | refused (e : TaskError)
  /-- Past the barrier, about to look at the flag. -/
  | checking
  /-- About to measure. -/
  | starting
  /-- In a timed iteration, about to look at the clock and at the flag. -/
  | measuring (start : Duration) (pace : Pace) (work : Work)
  /-- In a timed iteration, about to run a batch. -/
  | batching (start : Duration) (pace : Pace) (size : Nat) (work : Work)
  /-- Measuring has failed, the flag is not up yet. -/
  | broken (f : Failure)
  /-- About to count itself as finished. -/
  | leaving (outcome : Except Failure Work)
  /-- About to look whether all have finished. -/
  | idling (work : Work)
  /-- About to look at the flag while others measure. -/
  | looking (work : Work)
  /-- About to invoke once more without measuring. -/
  | spinning (work : Work)
  /-- Before its iteration teardown. -/
  | closing (work : Work)
  /-- Something after measuring has failed, the flag is not up yet. -/
  | failing (f : Failure)
  /-- At its end. -/
  | ended (outcome : Except Failure Harvest)
  deriving Inhabited

/-- Whether a lane is at its end. -/
def Place.isOver : Place → Bool
  | ended _ => true
  | _ => false

/-- Whether a lane stands at the barrier. -/
def Place.isWaiting : Place → Bool
  | waiting _ => true
  | _ => false

/-- Whether a lane has left its measured part and has nothing to do but to wait or to close. -/
def Place.isDone : Place → Bool
  | idling _ => true
  | closing _ => true
  | ended _ => true
  | _ => false

end Lane

namespace Bench

variable {m : Type → Type} [Monad m]

/-- Run the iteration fixture of a thread, if it is declared. -/
def threadFixture (b : Bench m) (seat : Seat) (stage : Stage) : ExceptT TaskError m Unit := do
  if b.task.fixtures.has .iteration .thread then
    let _ ← b.task.call (.fixture stage .iteration (.thread seat))

/-- What a lane brings home from its work. -/
def harvest (b : Bench m) (w : Work) : Harvest :=
  ⟨w.metrics b.settings, w.meter.operations⟩

end Bench

namespace Lane

variable {m : Type → Type} [Monad m]

/-- Go on after a step that may fail. -/
def settle {ε α : Type} (x : ExceptT ε m α) (ok : α → Place) (error : ε → Place) :
    m Place := do
  match ← x.run with
  | .ok a => return ok a
  | .error e => return error e

/-- One step of a lane: what is shared and where the lane stands afterwards.  At the barrier a
lane stays until all have come; at its end it stays for good. -/
def advance (b : Bench m) (length : IterationLength) (seat : Seat) (c : Common) :
    Place → m (Common × Place)
  | .entering =>
    (c, ·) <$> settle (b.threadFixture seat .setup) (fun _ => .arriving none) .alarming
  | .alarming e => pure ({ c with failed := true }, .arriving (some e))
  | .arriving refusal => pure ({ c with arrived := c.arrived + 1 }, .waiting refusal)
  | .waiting refusal =>
    if c.arrived < c.total then pure (c, .waiting refusal)
    else
      match refusal with
      | some e => pure (c, .refused e)
      | none => pure (c, .checking)
  | .refused e =>
    pure ({ c with finished := c.finished + 1, failed := true },
      .ended (.error (b.failure (.setup .iteration) (some seat.index) e)))
  | .checking =>
    if c.failed then pure (c, .leaving (.ok ⟨.ofMode b.settings.mode, .empty⟩))
    else pure (c, .starting)
  | .starting =>
    let work : Work := ⟨.ofMode b.settings.mode, .empty⟩
    match length with
    | .invocations n => (c, ·) <$> settle (b.batch seat n.toNat work) (.leaving ∘ .ok) .broken
    | .time target => do
      let start ← b.host.now
      return (c, .measuring start { target } work)
  | .measuring start pace work => do
    let now ← b.host.now
    match pace.next Float work.meter.operations (now.minus start) with
    | (none, _) => return (c, .leaving (.ok work))
    | (some size, pace) =>
      if c.failed then return (c, .leaving (.ok work))
      else return (c, .batching start pace size work)
  | .batching start pace size work =>
    (c, ·) <$> settle (b.batch seat size work) (.measuring start pace) .broken
  | .broken f => pure ({ c with failed := true }, .leaving (.error f))
  | .leaving outcome =>
    pure ({ c with finished := c.finished + 1 },
      match outcome with
      | .error f => .ended (.error f)
      | .ok work => if b.settings.syncIterations then .idling work else .closing work)
  | .idling work => pure (c, if c.finished < c.total then .looking work else .closing work)
  | .looking work => pure (c, if c.failed then .closing work else .spinning work)
  | .spinning work =>
    (c, ·) <$> settle (b.batch seat 1 ⟨.ofMode .averageTime, .empty⟩)
      (fun _ => .idling work) .failing
  | .closing work =>
    (c, ·) <$> settle (b.threadFixture seat .teardown) (fun _ => .ended (.ok (b.harvest work)))
      (fun e => .failing (b.failure (.teardown .iteration) (some seat.index) e))
  | .failing f => pure ({ c with failed := true }, .ended (.error f))
  | .ended outcome => pure (c, .ended outcome)

end Lane

/-- A thread of a round. -/
structure Lane where
  /-- The seat of the thread. -/
  seat : Seat
  /-- Where it stands. -/
  place : Lane.Place
  deriving Inhabited

/-- The threads of an iteration. -/
structure Round where
  /-- What they share. -/
  common : Common
  /-- The threads in the order of their seats. -/
  lanes : List Lane
  deriving Inhabited

namespace Round

variable {m : Type → Type} [Monad m]

/-- The threads of these seats before their first step. -/
def ofSeats (seats : List Seat) : Round :=
  ⟨{ total := seats.length }, seats.map fun seat => ⟨seat, .entering⟩⟩

/-- A step of the lane with this index; no such lane, no change. -/
def step (b : Bench m) (length : IterationLength) (r : Round) (index : Nat) : m Round :=
  match r.lanes[index]? with
  | none => pure r
  | some lane => do
    let (common, place) ← Lane.advance b length lane.seat r.common lane.place
    return ⟨common, r.lanes.set index { lane with place }⟩

/-- Steps of lanes in the order of a schedule. -/
def follow (b : Bench m) (length : IterationLength) (r : Round) (schedule : List Nat) : m Round :=
  schedule.foldlM (step b length) r

/-- Step one lane until it stands where it should, or patience is used up. -/
def settleLane (b : Bench m) (length : IterationLength) (stop : Lane.Place → Bool) (index : Nat) :
    Nat → Round → m Round
  | 0, r => pure r
  | patience + 1, r =>
    match r.lanes[index]? with
    | none => pure r
    | some lane =>
      if stop lane.place then pure r
      else do
        let r ← r.step b length index
        settleLane b length stop index patience r

/-- Step every lane in turn until it stands where it should. -/
def settleAll (b : Bench m) (length : IterationLength) (patience : Nat)
    (stop : Lane.Place → Bool) (r : Round) : m Round :=
  (List.range r.lanes.length).foldlM (fun r index => settleLane b length stop index patience r) r

/-- What a lane brings home; one that is not at its end has lost patience. -/
def outcome (b : Bench m) (lane : Lane) : Except Failure Harvest :=
  match lane.place with
  | .ended outcome => outcome
  | _ => .error (b.failure .invocation none (.panicked unknownPanic))

/-- Run a round: all lanes in turn to the barrier, then through their measured part, then to
their end.  The first failure in the order of lanes is the failure of the round. -/
def run (b : Bench m) (length : IterationLength) (patience : Nat) (seats : List Seat) :
    ExceptT Failure m (List Harvest) := do
  let r ← ExceptT.lift (settleAll b length patience Lane.Place.isWaiting (ofSeats seats))
  let r ← ExceptT.lift (settleAll b length patience Lane.Place.isDone r)
  let r ← ExceptT.lift (settleAll b length patience Lane.Place.isOver r)
  match r.lanes.mapM (outcome b) with
  | .ok harvests => pure harvests
  | .error f => throw f

end Round

end Microbench
