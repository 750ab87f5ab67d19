import Microbench.CommandLine.Options

/-!
# Help

What the program says of itself: how it is used, which options it has, and which
version it is.  Every option is shown under the names that the reader of the
command line knows it by.

## Main definitions

* `Topic` — what help is asked for.
* `Topic.text` — the help.
* `versionText` — the version.
-/

namespace Microbench.CommandLine

/-- What help is asked for. -/
inductive Topic
  /-- The program. -/
  | program
  /-- A subcommand. -/
  | subcommand (s : Subcommand)
  /-- The subcommand that gives help. -/
  | help
  deriving DecidableEq, Repr

/-- The name of the program. -/
def programName : String := "trialbench"

/-- The name of the subcommand that gives help. -/
def helpName : String := "help"

/-- The topic that a word names. -/
def Topic.named? (word : String) : Option Topic :=
  if word = helpName then some .help else (subcommandNames.lookup word).map .subcommand

/-- What a subcommand does. -/
def Subcommand.description : Subcommand → String
  | list => "List planned trials and available profilers"
  | init => "Print a commented default trialbench.toml"

/-- What the subcommand that gives help does. -/
def helpDescription : String := "Print this message or the help of the given subcommand(s)"

/-- The options that are shown, what their values are called, and what they do. -/
def shownOptions : List (Flag × Option String × String) :=
  [(.setting .forks, some "FORKS", "Measured forks per trial; 0 runs in-process"),
   (.setting .warmupForks, some "WARMUP_FORKS",
     "Forks run before the measured ones, results discarded"),
   (.setting .warmupIterations, some "WARMUP_ITERATIONS", "Warmup iterations per fork"),
   (.setting .warmup, some "WARMUP", "Warmup iteration length, e.g. 500ms"),
   (.setting .iterations, some "ITERATIONS", "Measurement iterations per fork"),
   (.setting .measurement, some "MEASUREMENT", "Measurement iteration length, e.g. 1s"),
   (.setting .batchSize, some "BATCH_SIZE",
     "Invocations per iteration; replaces the iteration time"),
   (.setting .threads, some "THREADS", "Worker threads when a task declares no groups"),
   (.setting .threadGroups, some "THREAD_GROUPS",
     "Thread count per declared group, comma separated"),
   (.switch .scale, none, "Ramp each thread group up from one thread, one more per iteration"),
   (.setting .mode, some "MODE", "Benchmark mode: thrpt, avgt, sample, ss or all"),
   (.setting .timeUnit, some "TIME_UNIT", "Unit scores are reported in: ns, us, ms, s, m"),
   (.setting .param, some "PARAMS", "Parameter override \x60name=v1,v2\x60; repeatable"),
   (.setting .profiler, some "PROFILERS", "Attach a profiler by name; repeatable"),
   (.setting .failOnError, some "FAIL_ON_ERROR",
     "Stop the run at the first failed trial [possible values: true, false]"),
   (.setting .timeout, some "TIMEOUT", "Liveness timeout for worker responses, e.g. 10m"),
   (.setting .jobs, some "JOBS", "Trials run concurrently"),
   (.switch .verbose, none, "Verbose output"),
   (.switch .help, none, "Print help"),
   (.switch .version, none, "Print version")]

/-- The name of an option in a table of names. -/
def nameIn {α : Type} (names : List (α × Flag)) (f : Flag) : Option α :=
  (names.find? (·.2 = f)).map (·.1)

/-- How an option is written. -/
def optionForm (f : Flag) (value : Option String) : String :=
  (match nameIn shortNames f with
    | some c => "-" ++ String.singleton c ++ ", "
    | none => "    ") ++
  (match nameIn longNames f with
    | some name => "--" ++ name
    | none => "") ++
  match value with
  | some v => " <" ++ v ++ ">"
  | none => ""

/-- An option in the help: how it is written, and below it what it does. -/
def optionLines : Flag × Option String × String → String
  | (f, value, description) =>
    "  " ++ optionForm f value ++ "\n          " ++ description ++ "\n"

/-- A line of the help with a word and what it means. -/
def wordLine (word description : String) : String := "  " ++ word ++ "  " ++ description ++ "\n"

/-- The help. -/
def Topic.text : Topic → String
  | program =>
    "Trialbench - fork-isolated microbenchmark harness\n\n" ++
      "Usage: " ++ programName ++ " [OPTIONS] [FILTER] [COMMAND]\n\n" ++
      "Commands:\n" ++
      String.join (subcommandNames.map fun (name, s) => wordLine name s.description) ++
      wordLine helpName helpDescription ++
      "\nArguments:\n" ++
      wordLine "[FILTER]" "Filter tasks by regex pattern [default: .*]" ++
      "\nOptions:\n" ++ String.join (shownOptions.map optionLines)
  | subcommand s =>
    s.description ++ "\n\nUsage: " ++ programName ++ " " ++
      ((subcommandNames.find? (·.2 = s)).map (·.1)).getD "" ++
      "\n\nOptions:\n" ++ wordLine "-h, --help" "Print help"
  | help =>
    helpDescription ++ "\n\nUsage: " ++ programName ++ " " ++ helpName ++ " [COMMAND]...\n\n" ++
      "Arguments:\n" ++ wordLine "[COMMAND]..." "Print help for the subcommand(s)"

/-- The version of the program. -/
def versionText : String := programName ++ " 0.1.0\n"

end Microbench.CommandLine
