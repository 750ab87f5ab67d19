import Microbench.Config.Runner
import Microbench.Config.TomlReader
import Microbench.Number.Whole

/-!
# Configuration files

A configuration file gives settings for all trials and says which profilers are
attached to them.  Names that it does not know are ignored.

## Main definitions

* `Config` — the settings of a file.
* `Config.parse` — read them.
* `Config.candidates` — the places where a file is looked for.
* `Config.template` — a file to start from.
-/

namespace Microbench

/-- Settings of the sampling profiler as they are written. -/
structure SamplingConfig where
  /-- The events to sample. -/
  events : List String := ["cycles"]
  /-- How much of the trial is ignored. -/
  skip : String := "0s"
  /-- How many symbols are reported for each event. -/
  top : Nat := 20
  /-- The program that samples. -/
  binary : String := "perf"
  deriving DecidableEq, Repr, Inhabited

/-- Which profilers are attached, and their settings. -/
structure ProfilersConfig where
  /-- Their names, in the order of attachment. -/
  enabled : List String := []
  /-- Settings of the sampling profiler. -/
  sampling : SamplingConfig := {}
  deriving DecidableEq, Repr, Inhabited

/-- The settings of a file. -/
structure Config where
  /-- Settings for all trials. -/
  runner : Runner := {}
  /-- The profilers. -/
  profilers : ProfilersConfig := {}
  deriving DecidableEq, Repr, Inhabited

namespace Config

/-! ### From values to settings -/

/-- The values of the named fields of a table; an array gives them in their order. -/
def fields? (names : List String) : Toml → Option (List (Option Toml))
  | .table _ entries => some (names.map fun k => Toml.lookUp k entries)
  | .array items => some ((List.range names.length).map fun i => items[i]?)
  | .tables items => some ((List.range names.length).map fun i => items[i]?)
  | _ => none

/-- A field with a value to take when it is missing. -/
def orElse {α : Type} (default : α) (read : Toml → Option α) : Option Toml → Option α
  | none => some default
  | some v => read v

/-- A field that may be missing. -/
def optional {α : Type} (read : Toml → Option α) : Option Toml → Option (Option α)
  | none => some none
  | some v => (read v).map some

/-- A natural number of at most `limit`. -/
def nat? (limit : Nat) : Toml → Option Nat
  | .integer n => if 0 ≤ n ∧ n ≤ limit then some n.toNat else none
  | _ => none

/-- A number of 32 bits. -/
def word32? (v : Toml) : Option UInt32 := (nat? Whole.max32 v).map UInt32.ofNat

/-- A number of 64 bits. -/
def word64? (v : Toml) : Option UInt64 := (nat? Whole.max64 v).map UInt64.ofNat

/-- A text. -/
def text? : Toml → Option String
  | .string s => some s
  | _ => none

/-- A truth value. -/
def bool? : Toml → Option Bool
  | .bool b => some b
  | _ => none

/-- Texts in order. -/
def texts? : Toml → Option (List String)
  | .array items => items.mapM text?
  | .tables items => items.mapM text?
  | _ => none

/-- Settings for all trials. -/
def runner? (v : Toml) : Option Runner := do
  let [forks, warmupForks, warmupIterations, warmupTime, warmupBatch, iterations, time, batch,
    threads, timeout, failOnError, syncIterations, scale, unit, jobs] ← fields?
      ["forks", "warmup_forks", "warmup_iterations", "warmup_time", "warmup_batch_size",
       "measurement_iterations", "measurement_time", "measurement_batch_size", "threads",
       "timeout", "fail_on_error", "sync_iterations", "scale", "time_unit", "jobs"] v | none
  return {
    forks := ← optional word32? forks
    warmupForks := ← optional word32? warmupForks
    warmupIterations := ← optional word32? warmupIterations
    warmupTime := ← optional text? warmupTime
    warmupBatch := ← optional word64? warmupBatch
    iterations := ← optional word32? iterations
    time := ← optional text? time
    batch := ← optional word64? batch
    threads := ← optional word32? threads
    timeout := ← optional text? timeout
    failOnError := ← optional bool? failOnError
    syncIterations := ← optional bool? syncIterations
    scale := ← optional bool? scale
    unit := ← optional text? unit
    jobs := ← optional (nat? Whole.max64) jobs }

/-- Settings of the sampling profiler. -/
def sampling? (v : Toml) : Option SamplingConfig := do
  let [events, skip, top, binary] ← fields? ["events", "skip", "top", "binary"] v | none
  let fallback : SamplingConfig := {}
  return {
    events := ← orElse fallback.events texts? events
    skip := ← orElse fallback.skip text? skip
    top := ← orElse fallback.top (nat? Whole.max64) top
    binary := ← orElse fallback.binary text? binary }

/-- The profilers. -/
def profilers? (v : Toml) : Option ProfilersConfig := do
  let [enabled, sampling] ← fields? ["enabled", "perf"] v | none
  return {
    enabled := ← orElse [] texts? enabled
    sampling := ← orElse {} sampling? sampling }

/-- Read a configuration. -/
def parse (s : String) : Except ConfigError Config :=
  let read : Option Config := do
    let root ← Toml.parse s
    return {
      runner := ← orElse {} runner? (Toml.lookUp "runner" root)
      profilers := ← orElse {} profilers? (Toml.lookUp "profilers" root) }
  match read with
  | some c => .ok c
  | none => .error .malformed

/-! ### Where files are looked for -/

/-- The name of a configuration file. -/
def fileName : String := "trialbench.toml"

/-- Whether a part of a path stays where it is. -/
def isFiller (part : String) : Bool := part = "" || part = "."

/-- The directories above one.  Paths are given by their parts, the innermost first. -/
def above : List String → List (List String)
  | [] => []
  | part :: outer =>
    if isFiller part then above outer else outer.dropWhile isFiller :: above outer

/-- The places where a file is looked for from a directory on, the nearest first. -/
def candidates (parts : List String) : List (List String) :=
  (parts.reverse :: above parts.reverse).map fun dir => (fileName :: dir).reverse

/-- The file that counts in a directory, if any place holds one. -/
def find (isFile : List String → Bool) (parts : List String) : Option (List String) :=
  (candidates parts).find? isFile

/-- A file to start from, with every setting and its default. -/
def template : String := String.intercalate "\n" [
  "# Trialbench Configuration",
  "",
  "[runner]",
  "# Measured forks per trial (0 runs in the controller process)",
  "forks = 1",
  "# Forks run first and discarded",
  "warmup_forks = 0",
  "# Warmup iterations and their length",
  "warmup_iterations = 5",
  "warmup_time = \"1s\"",
  "# Measurement iterations and their length",
  "measurement_iterations = 5",
  "measurement_time = \"1s\"",
  "# Fixed invocation counts instead of time (uncomment to enable)",
  "# warmup_batch_size = 1000",
  "# measurement_batch_size = 1000",
  "# Threads of the implicit group",
  "threads = 1",
  "# Maximum silence from a worker before it is killed",
  "timeout = \"10m\"",
  "# Stop the run on the first failed trial",
  "fail_on_error = true",
  "# Keep finished threads busy until all threads are done",
  "sync_iterations = true",
  "# Start every group with one thread and add one per iteration",
  "scale = false",
  "# Output time unit (uncomment to override the mode's default)",
  "# time_unit = \"ns\"",
  "# Trials run concurrently",
  "jobs = 1",
  "",
  "[profilers]",
  "# Attached to every trial in this order, e.g. [\"rusage\", \"perf\"]",
  "enabled = []",
  "",
  "[profilers.perf]",
  "events = [\"cycles\"]",
  "# Ignore samples recorded during the first part of the trial",
  "skip = \"0s\"",
  "# Hottest symbols reported per event",
  "top = 20",
  "binary = \"perf\"",
  ""]

end Config

end Microbench
