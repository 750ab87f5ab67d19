import Microbench.Task.Error
import Microbench.Task.Fixture
import Microbench.Task.Seat
import Microbench.Stats.Metric

/-!
# Tasks

A task is benchmarked code seen from outside: it answers calls, and whatever it
keeps between them is its own affair.  The monad says what a call may do beside
giving its answer.

## Main definitions

* `Target` — the state that a call is about.
* `Call` — what a task may be asked to do.
* `Reply`, `Outcome`, `Recording` — what an invocation gives back.
* `Task` — the declared fixtures and the answers.
-/

namespace Microbench

/-- The state that a call is about. -/
inductive Target
  /-- The state shared by all threads. -/
  | benchmark
  /-- The state of a group. -/
  | group (seat : GroupSeat)
  /-- The state of a thread. -/
  | thread (seat : Seat)
  deriving DecidableEq, Repr, Inhabited

/-- The scope of a target. -/
def Target.scope : Target → Scope
  | benchmark => .benchmark
  | group _ => .group
  | thread _ => .thread

/-- What a task may be asked to do. -/
inductive Call
  /-- Build a piece of state. -/
  | build (target : Target)
  /-- Run a fixture. -/
  | fixture (stage : Stage) (level : Level) (target : Target)
  /-- Run the benchmarked code once in a thread. -/
  | invoke (seat : Seat)
  deriving DecidableEq, Repr, Inhabited

/-- What an invocation produced. -/
inductive Outcome
  /-- The clock tells how long it took. -/
  | timed
  /-- The task measured itself. -/
  | reported (value : Float)
  deriving DecidableEq, Inhabited

/-- A sample that an invocation records beside its outcome. -/
structure Recording where
  /-- The label. -/
  label : String
  /-- The sample. -/
  value : Float
  /-- The unit. -/
  unit : String := "#"
  /-- How samples of this label combine. -/
  policy : Policy := .average
  deriving DecidableEq, Inhabited

/-- What a call gives back; only invocations have something to say. -/
structure Reply where
  /-- The outcome of an invocation. -/
  outcome : Outcome := .timed
  /-- What was recorded, in order. -/
  recordings : List Recording := []
  deriving DecidableEq, Inhabited

/-- A task: its fixtures and its answers. -/
structure Task (m : Type → Type) where
  /-- The fixtures that it declares. -/
  fixtures : Fixtures
  /-- Its answer to a call. -/
  call : Call → ExceptT TaskError m Reply

/-- What the process uses up. -/
structure Usage where
  /-- Time in user code, in milliseconds. -/
  userMillis : Float
  /-- Time in the operating system, in milliseconds. -/
  systemMillis : Float
  /-- Voluntary context switches. -/
  voluntarySwitches : Int
  /-- Involuntary context switches. -/
  involuntarySwitches : Int
  /-- Page faults without input or output. -/
  minorFaults : Int
  /-- Page faults with input or output. -/
  majorFaults : Int
  deriving Inhabited

/-- What a trial asks of the machine it runs on. -/
structure Host (m : Type → Type) where
  /-- The time on a clock that never goes back. -/
  now : m Duration
  /-- What the process has used up so far. -/
  usage : m Usage

end Microbench
