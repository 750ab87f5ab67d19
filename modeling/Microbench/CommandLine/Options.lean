import Microbench.Config.Runner
import Microbench.Number.Whole
import Microbench.Plan.Options

/-!
# Options of the command line

The options that the program knows, what they take, and what they mean.  An
option that takes a value is either set once or adds to those before it, and an
option without a value is set once.

## Main definitions

* `Setting` — the options that take a value.
* `Switch` — the options that take none.
* `Options` — what is chosen.
* `Options.set`, `Options.turn` — one more option.
-/

namespace Microbench.CommandLine

/-- The options that take a value. -/
inductive Setting
  /-- Measured forks. -/
  | forks
  /-- Discarded forks. -/
  | warmupForks
  /-- Warmup iterations. -/
  | warmupIterations
  /-- The time of a warmup iteration. -/
  | warmup
  /-- Measured iterations. -/
  | iterations
  /-- The time of a measured iteration. -/
  | measurement
  /-- The invocations of any iteration. -/
  | batchSize
  /-- Threads of the implicit group. -/
  | threads
  /-- Threads of each declared group. -/
  | threadGroups
  /-- The mode. -/
  | mode
  /-- The unit of the score. -/
  | timeUnit
  /-- Values of a parameter. -/
  | param
  /-- A profiler. -/
  | profiler
  /-- Whether a failure ends the whole run. -/
  | failOnError
  /-- The longest wait for one answer of a worker. -/
  | timeout
  /-- How many trials run at the same time. -/
  | jobs
  deriving DecidableEq, Repr

/-- The options that take no value. -/
inductive Switch
  /-- Ramp up the threads. -/
  | scale
  /-- Log more. -/
  | verbose
  /-- Be a worker. -/
  | worker
  /-- Nothing: it is there to be ignored. -/
  | bench
  /-- Tell how the program is used. -/
  | help
  /-- Tell the version of the program. -/
  | version
  deriving DecidableEq, Repr

/-- An option. -/
inductive Flag
  /-- One that takes a value. -/
  | setting (s : Setting)
  /-- One that takes none. -/
  | switch (s : Switch)
  deriving DecidableEq, Repr

/-- The long names of options. -/
def longNames : List (String × Flag) :=
  [("forks", .setting .forks), ("warmup-forks", .setting .warmupForks),
   ("warmup-iterations", .setting .warmupIterations), ("warmup", .setting .warmup),
   ("iterations", .setting .iterations), ("measurement", .setting .measurement),
   ("batch-size", .setting .batchSize), ("threads", .setting .threads),
   ("thread-groups", .setting .threadGroups), ("scale", .switch .scale),
   ("mode", .setting .mode), ("time-unit", .setting .timeUnit), ("param", .setting .param),
   ("prof", .setting .profiler), ("fail-on-error", .setting .failOnError),
   ("timeout", .setting .timeout), ("jobs", .setting .jobs), ("verbose", .switch .verbose),
   ("trialbench-worker", .switch .worker), ("bench", .switch .bench),
   ("help", .switch .help), ("version", .switch .version)]

/-- The short names of options. -/
def shortNames : List (Char × Flag) :=
  [('f', .setting .forks), ('w', .setting .warmupIterations), ('i', .setting .iterations),
   ('t', .setting .threads), ('p', .setting .param), ('j', .setting .jobs),
   ('v', .switch .verbose), ('h', .switch .help), ('V', .switch .version)]

/-- What is to be done instead of running the trials. -/
inductive Subcommand
  /-- List the trials and the profilers. -/
  | list
  /-- Print a configuration to start from. -/
  | init
  deriving DecidableEq, Repr

/-- The names of subcommands. -/
def subcommandNames : List (String × Subcommand) := [("list", .list), ("init", .init)]

/-- What is chosen on the command line. -/
structure Options where
  /-- What to do instead of running the trials. -/
  subcommand : Option Subcommand := none
  /-- The filter. -/
  filter : Option String := none
  /-- The options that are set once and are set. -/
  seen : List Flag := []
  /-- Measured forks. -/
  forks : Option UInt32 := none
  /-- Discarded forks. -/
  warmupForks : Option UInt32 := none
  /-- Warmup iterations. -/
  warmupIterations : Option UInt32 := none
  /-- The time of a warmup iteration. -/
  warmup : Option String := none
  /-- Measured iterations. -/
  iterations : Option UInt32 := none
  /-- The time of a measured iteration. -/
  measurement : Option String := none
  /-- The invocations of any iteration. -/
  batchSize : Option UInt64 := none
  /-- Threads of the implicit group. -/
  threads : Option UInt32 := none
  /-- Threads of each declared group. -/
  threadGroups : List UInt32 := []
  /-- The mode. -/
  mode : Option Mode := none
  /-- The unit of the score. -/
  timeUnit : Option String := none
  /-- Values of parameters. -/
  params : List (String × List String) := []
  /-- Profilers. -/
  profilers : List String := []
  /-- Whether a failure ends the whole run. -/
  failOnError : Option Bool := none
  /-- The longest wait for one answer of a worker. -/
  timeout : Option String := none
  /-- How many trials run at the same time. -/
  jobs : Option Nat := none
  deriving Inhabited

namespace Options

/-- A natural number of 32 bits; a sign may stand in front of it. -/
def word32? (s : String) : Option UInt32 :=
  match Whole.readInt Whole.maxSigned64 s.toList with
  | .ok n => if 0 ≤ n ∧ n ≤ Whole.max32 then some (UInt32.ofNat n.toNat) else none
  | .error _ => none

/-- A natural number of 64 bits. -/
def nat64? (s : String) : Option Nat := (Whole.read64 s).toOption

/-- A truth value. -/
def truth? : String → Option Bool
  | "true" => some true
  | "false" => some false
  | _ => none

/-- Numbers with commas between them. -/
def words32? (s : String) : Option (List UInt32) :=
  (Text.pieces ',' s.toList).mapM fun piece => word32? (String.ofList piece)

/-- Whether an option adds to those before it. -/
def adds : Flag → Bool
  | .setting .threadGroups => true
  | .setting .param => true
  | .setting .profiler => true
  | _ => false

/-- Note that an option is set; `none` if it is set once and is set already. -/
def mark (o : Options) (f : Flag) : Option Options :=
  if adds f then some o
  else if o.seen.contains f then none
  else some { o with seen := f :: o.seen }

/-- Set an option to the value that a text stands for. -/
def assign (o : Options) (value : String) : Setting → Option Options
  | .forks => (word32? value).map fun n => { o with forks := some n }
  | .warmupForks => (word32? value).map fun n => { o with warmupForks := some n }
  | .warmupIterations => (word32? value).map fun n => { o with warmupIterations := some n }
  | .warmup => some { o with warmup := some value }
  | .iterations => (word32? value).map fun n => { o with iterations := some n }
  | .measurement => some { o with measurement := some value }
  | .batchSize => (nat64? value).map fun n => { o with batchSize := some (UInt64.ofNat n) }
  | .threads => (word32? value).map fun n => { o with threads := some n }
  | .threadGroups => (words32? value).map fun ns => { o with threadGroups := o.threadGroups ++ ns }
  | .mode => (Mode.parse value).toOption.map fun m => { o with mode := some m }
  | .timeUnit => some { o with timeUnit := some value }
  | .param =>
    (PlanOptions.parseParam value).toOption.map fun p => { o with params := o.params ++ [p] }
  | .profiler => some { o with profilers := o.profilers ++ [value] }
  | .failOnError => (truth? value).map fun b => { o with failOnError := some b }
  | .timeout => some { o with timeout := some value }
  | .jobs => (nat64? value).map fun n => { o with jobs := some n }

/-- One more option with a value. -/
def set (o : Options) (s : Setting) (value : String) : Option Options :=
  (o.mark (.setting s)).bind fun o => o.assign value s

/-- One more option without a value. -/
def turn (o : Options) (s : Switch) : Option Options := o.mark (.switch s)

/-- Whether an option without a value is set. -/
def has (o : Options) (s : Switch) : Bool := o.seen.contains (.switch s)

/-- The settings for all trials. -/
def runner (o : Options) : Runner where
  forks := o.forks
  warmupForks := o.warmupForks
  warmupIterations := o.warmupIterations
  warmupTime := o.warmup
  warmupBatch := o.batchSize
  iterations := o.iterations
  time := o.measurement
  batch := o.batchSize
  threads := o.threads
  timeout := o.timeout
  failOnError := o.failOnError
  scale := if o.has .scale then some true else none
  unit := o.timeUnit
  jobs := o.jobs

end Options

end Microbench.CommandLine
