import Microbench.Dict
import Microbench.TimeUnit

/-!
# Benchmark specifications

A specification says how one benchmark is to be run: which task in which mode,
with which parameter values, and every setting that may be given for it.  What
is not given is left to the defaults of the run.

## Main definitions

* `Spec` — a specification, grouped into `PhaseSpec`s and a `LaunchSpec`.
* `Spec.identity` — mode, name and bindings: what tells one benchmark from another.
* `Spec.Identity.compare` — the order of benchmarks.
* `Spec.label` — the benchmark as text.
-/

namespace Microbench

/-- The settings of one phase of a trial. -/
structure PhaseSpec where
  /-- How many iterations. -/
  iterations : Option UInt32 := none
  /-- How long each iteration lasts. -/
  time : Option Duration := none
  /-- How many invocations an iteration makes; if given, time does not matter. -/
  batch : Option UInt64 := none
  deriving DecidableEq, Inhabited

/-- The arguments of the command that launches a worker. -/
structure LaunchSpec where
  /-- Arguments in place of the defaults. -/
  args : Option (List String) := none
  /-- A command to be put before the worker's. -/
  before : Option (List String) := none
  /-- Arguments after all others. -/
  after : Option (List String) := none
  deriving DecidableEq, Inhabited

/-- How one benchmark is to be run. -/
structure Spec where
  /-- The task. -/
  name : String
  /-- What is measured. -/
  mode : Mode
  /-- Threads of each declared group; none for a single implicit group. -/
  groupSizes : List UInt32 := []
  /-- Threads of the implicit group. -/
  threads : Option UInt32 := none
  /-- The iterations whose results are discarded. -/
  warmup : PhaseSpec := {}
  /-- The iterations that count. -/
  measurement : PhaseSpec := {}
  /-- Measured forks; zero runs in the controlling process. -/
  forks : Option UInt32 := none
  /-- Forks whose results are discarded. -/
  warmupForks : Option UInt32 := none
  /-- How a worker is launched. -/
  launch : LaunchSpec := {}
  /-- Declared parameters with the values to try. -/
  params : Option (Dict (List String)) := none
  /-- The unit of the score. -/
  unit : Option TimeUnit := none
  /-- The parameter values of this run. -/
  bindings : Dict String := .empty
  /-- Whether threads stay busy until all have finished measuring. -/
  syncIterations : Option Bool := none
  /-- Whether a failure ends the whole run. -/
  failOnError : Option Bool := none
  /-- The longest wait for one answer of a worker. -/
  timeout : Option Duration := none
  /-- Whether the active threads ramp up over the iterations. -/
  scale : Option Bool := none
  deriving DecidableEq, Inhabited

namespace Spec

/-- What tells one benchmark from another. -/
structure Identity where
  /-- What is measured. -/
  mode : Mode
  /-- The task. -/
  name : String
  /-- The parameter values. -/
  bindings : Dict String
  deriving DecidableEq

/-- What tells this benchmark from others: settings of time and place do not. -/
def identity (s : Spec) : Identity := ⟨s.mode, s.name, s.bindings⟩

/-- The order of entries: the first that differs decides, by key, then by value. -/
def compareEntries : List (String × String) → List (String × String) → Ordering
  | [], [] => .eq
  | [], _ :: _ => .lt
  | _ :: _, [] => .gt
  | a :: as, b :: bs =>
    ((compare a.1 b.1).then (compare a.2 b.2)).then (compareEntries as bs)

/-- The order of benchmarks: by mode, then by name, then by bindings. -/
def Identity.compare (a b : Identity) : Ordering :=
  ((Ord.compare a.mode.rank b.mode.rank).then (Ord.compare a.name b.name)).then
    (compareEntries a.bindings.toList b.bindings.toList)

/-- Whether a benchmark does not come after another. -/
def notAfter (a b : Spec) : Bool := a.identity.compare b.identity != .gt

/-- The same settings in another mode. -/
def withMode (s : Spec) (mode : Mode) : Spec := { s with mode }

/-- The same settings with one more parameter value. -/
def withBinding (s : Spec) (key value : String) : Spec :=
  { s with bindings := s.bindings.insert key value }

/-- The benchmark as text: name and mode, and the bindings if there are any. -/
def label (s : Spec) : String :=
  let head := s.name ++ ":" ++ s.mode.label
  if s.bindings.isEmpty then head
  else head ++ " (" ++
    ", ".intercalate (s.bindings.toList.map fun e => e.1 ++ "=" ++ e.2) ++ ")"

end Spec

end Microbench
