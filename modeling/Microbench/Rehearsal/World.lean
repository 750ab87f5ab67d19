import Microbench.Dict
import Microbench.Task.Basic

/-!
# The world of a rehearsal

A rehearsal runs the whole machinery with tasks that follow a script.  Its world
is a clock that advances with every call and whenever it is looked at, the counters
of the task on stage, and a log of what was called.

## Main definitions

* `World` — the clock, the counters and the log.
* `Scene` — computations in that world.
* `World.host` — the machine as tasks see it.
-/

namespace Microbench.Rehearsal

/-- Counters by index. -/
abbrev Counters := Array Nat

/-- The counter of an index, and the counters after counting once more. -/
def Counters.bump (c : Counters) (index : Nat) : Nat × Counters :=
  if index < c.size then (c.getD index 0, c.modify index (· + 1))
  else (0, c ++ Array.replicate (index - c.size) 0 |>.push 1)

/-- A log entry: the lane it belongs to, and what happened. -/
structure Event where
  /-- The lane. -/
  lane : String
  /-- What happened. -/
  text : String
  deriving DecidableEq, Repr, Inhabited

/-- The log by lanes. -/
def Event.lanes (events : List Event) : Dict (List String) :=
  events.foldl (fun d e => d.alter e.lane fun texts => texts.getD [] ++ [e.text]) .empty

/-- The calls of one fixture: its stage, level and scope, and the index of its target. -/
structure FixtureKey where
  /-- The stage. -/
  stage : Stage
  /-- The level. -/
  level : Level
  /-- The scope. -/
  scope : Scope
  /-- The index of the target. -/
  index : Nat
  deriving DecidableEq, Repr

/-- The world of a rehearsal. -/
structure World where
  /-- The time on the clock, in nanoseconds. -/
  clock : Nat := 0
  /-- How often the shared state was used. -/
  shared : Nat := 0
  /-- How often the state of each group was used. -/
  groups : Counters := #[]
  /-- How often the state of each thread was used. -/
  threads : Counters := #[]
  /-- How often each fixture was called. -/
  fixtures : List (FixtureKey × Nat) := []
  /-- What happened, in order. -/
  events : Array Event := #[]
  deriving Inhabited

/-- Computations in the world of a rehearsal. -/
abbrev Scene := StateM World

namespace World

/-- How far the clock advances with a call. -/
def tickNanos : Nat := 10000

/-- How far the clock advances when it is looked at: to look takes time, too. -/
def lookNanos : Nat := 20

/-- Let the time of a call pass. -/
def tick : Scene Unit := modify fun w => { w with clock := w.clock + tickNanos }

/-- A task comes on stage: its counters are fresh. -/
def enter : Scene Unit :=
  modify fun w => { w with shared := 0, groups := #[], threads := #[], fixtures := [] }

/-- Write an entry into the log. -/
def note (lane text : String) : Scene Unit :=
  modify fun w => { w with events := w.events.push ⟨lane, text⟩ }

/-- Count a call of a fixture; the answer is the number of calls before. -/
def countFixture (key : FixtureKey) : Scene Nat := do
  let w ← get
  match w.fixtures.find? fun e => e.1 = key with
  | none =>
    set { w with fixtures := (key, 1) :: w.fixtures }
    return 0
  | some (_, n) =>
    set { w with fixtures := w.fixtures.map fun (e : FixtureKey × Nat) =>
      if e.1 = key then (key, n + 1) else e }
    return n

/-- The machine as tasks see it: the clock of the world, and nothing used up. -/
def host : Host Scene where
  now := modifyGet fun w => (⟨w.clock⟩, { w with clock := w.clock + lookNanos })
  usage := pure ⟨0.0, 0.0, 0, 0, 0, 0⟩

end World

end Microbench.Rehearsal
