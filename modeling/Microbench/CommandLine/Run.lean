import Microbench.CommandLine.Parse
import Microbench.Config.File
import Microbench.Plan
import Microbench.Plan.PatternReader
import Microbench.Profiler.Selection
import Microbench.Session.Worker
import Microbench.Summary
import Microbench.Trial.Campaign

/-!
# Running the program

From the arguments to what is printed.  The program is a worker if it is told to
be one; otherwise it plans the trials and lists or runs them.

## Main definitions

* `Surroundings` — where the program runs.
* `Result` — what it prints, and how it ends.
* `run` — the program.
-/

namespace Microbench.CommandLine

/-- Where the program runs. -/
structure Surroundings (m : Type → Type) where
  /-- The registered tasks. -/
  registry : Registry m
  /-- The machine. -/
  host : Host m
  /-- How workers are started and talked to. -/
  launcher : Launcher m
  /-- The tool that records samples. -/
  recorder : Recorder m
  /-- The program as a command. -/
  program : String
  /-- The text of the configuration file that counts. -/
  config : Option String := none
  /-- The standard input. -/
  stdin : ByteArray := .empty
  /-- The setting that names the channel of a worker. -/
  channel : Option String := none
  /-- The setting that names the probes of a worker. -/
  probes : Option String := none

/-- How the program ends before its time. -/
inductive Error
  /-- The arguments make no sense. -/
  | usage
  /-- The configuration file makes none. -/
  | config
  /-- Something else, in words. -/
  | run (message : String)
  /-- Something has broken off that nobody guards against. -/
  | broken (message : String)
  deriving DecidableEq, Repr

/-- The code that the program ends with. -/
def Error.code : Error → Nat
  | usage => 2
  | config => 1
  | run _ => 1
  | broken _ => Breakdown.exitCode

/-- What the program prints, and how it ends. -/
structure Result where
  /-- What it prints. -/
  stdout : String := ""
  /-- What ends it before its time. -/
  error : Option Error := none
  deriving DecidableEq, Repr, Inhabited

/-- The code that the program ends with. -/
def Result.code (r : Result) : Nat :=
  match r.error with
  | none => 0
  | some e => e.code

/-- An end before its time. -/
def stop (message : String) : Result := { error := some (.run message) }

/-! ### As a worker -/

/-- The numbers of the two ends of the channel. -/
def channelEnds? (setting : String) : Option (Int × Int) := do
  let cs := setting.toList
  let first := cs.takeWhile (· != ',')
  match cs.drop first.length with
  | [] => none
  | _ :: second =>
    let number (cs : List Char) : Option Int :=
      (Whole.readInt 0x7fffffff (Text.trim cs)).toOption
    return (← number first, ← number second)

/-- The names of probes with commas between them. -/
def probeNames (setting : String) : List String :=
  ((Text.pieces ',' setting.toList).map Text.trim).filterMap fun name =>
    if name.isEmpty then none else some (String.ofList name)

/-- What a worker works with here. -/
def Surroundings.workshop {m : Type → Type} (s : Surroundings m) : Workshop m :=
  { registry := s.registry, host := s.host, probes := (s.probes.map probeNames).getD [] }

/-- The channel of a worker: nothing if it is the standard input and output. -/
def openChannel (setting : Option String) : Except WorkerError (Option (Int × Int)) :=
  match setting with
  | none => .ok none
  | some text =>
    match channelEnds? text with
    | none => .error (.channel text)
    | some (0, 1) => .ok none
    | some ends => .ok (some ends)

variable {m : Type → Type} [Monad m]

/-- What ends the program as a worker before its time. -/
def workError? : Except WorkerError Unit → Option Error
  | .ok () => none
  | .error (.breakdown b) => some (.broken b.text)
  | .error _ => some (.run "worker failed")

/-- The program as a worker.  Only the standard input and output are open for it. -/
def work (s : Surroundings m) : m Result :=
  match openChannel s.channel with
  | .error _ => return stop "worker channel unavailable"
  | .ok (some _) => return stop "worker failed"
  | .ok none => do
    let (lines, result) ← Session.serve s.workshop { bytes := s.stdin }
    let stdout := String.join (lines.map (· ++ "\n"))
    return { stdout, error := workError? result }

/-! ### As the one that runs the trials -/

/-- The names of the profilers: those of the configuration, and then those of the command line
that are not among them. -/
def profilerNames (enabled chosen : List String) : List String :=
  chosen.foldl (fun names name => if names.contains name then names else names ++ [name]) enabled

/-- The choices for the plan. -/
def planOptions (o : Options) (runner : Runner) : PlanOptions where
  mode := o.mode
  groupSizes := o.threadGroups
  params := Dict.ofList o.params
  runner := runner

/-- The list of trials and profilers. -/
def listing (specs : List Spec) : String :=
  "Trialbench Plan:\n" ++ String.join (specs.map fun s => "├── " ++ s.label ++ "\n") ++
    Whole.text specs.length ++ " trials planned.\n" ++ "Profilers:\n" ++
    String.join (Selection.available.map fun (name, kind, description) =>
      "├── " ++ name ++ " (" ++ kind.name ++ "): " ++ description ++ "\n")

/-- What is printed of a campaign. -/
def conclude (outcome : Except Halt (List TrialResult)) : Result :=
  match outcome with
  | .error (.error e) => stop e.message
  | .error (.breakdown b) => { error := some (.broken b.text) }
  | .ok trials =>
    let failed := (trials.filter TrialResult.isFailed).length
    let count := Whole.text failed ++ " of " ++ Whole.text trials.length
    { stdout := Summary.text trials
      error := if failed = 0 then none else some (.run (count ++ " trials failed")) }

/-- The option that makes the program a worker. -/
def workerOption : String := "--trialbench-worker"

/-- The campaign of a run. -/
def Surroundings.campaign (s : Surroundings m) (selection : Selection) : Campaign m where
  registry := s.registry
  host := s.host
  probes := selection.probes
  monitors := selection.monitors.map (Monitor.sampling s.recorder)
  launcher := s.launcher
  workerCommand := [s.program, workerOption]

/-- Everything that is settled before a trial runs. -/
structure Prepared where
  /-- The profilers. -/
  selection : Selection
  /-- The trials. -/
  specs : List Spec
  /-- How many trials run at the same time. -/
  jobs : Nat

/-- Settle everything before a trial runs. -/
def prepare (s : Surroundings m) (o : Options) : Except Error Prepared := do
  let config ← match s.config with
    | none => pure {}
    | some text =>
      match Config.parse text with
      | .ok c => pure c
      | .error _ => throw .config
  let runner := config.runner.merged o.runner
  let names := profilerNames config.profilers.enabled o.profilers
  let selection ← match Selection.resolve names config.profilers with
    | .ok selection => pure selection
    | .error e => throw (.run e.message)
  let filterText := o.filter.getD ".*"
  let filter ← match Pattern.parse filterText with
    | some p => pure p
    | none => throw (.run ("invalid filter pattern " ++ Text.quote filterText))
  match Plan.build (s.registry.values.map (·.declaration)) (some filter) (planOptions o runner) with
  | .ok specs => return ⟨selection, specs, max 1 (runner.jobs.getD 1)⟩
  | .error e => throw (.run e.message)

/-- The program with options that make sense. -/
def runWith (s : Surroundings m) (o : Options) : m Result :=
  if o.has .worker then work s
  else if o.subcommand = some .init then return { stdout := Config.template }
  else
    match prepare s o with
    | .error e => return { error := some e }
    | .ok p =>
      if o.subcommand = some .list then return { stdout := listing p.specs }
      else if p.specs.isEmpty then return { stdout := "No benchmarks found.\n" }
      else do return conclude (← (s.campaign p.selection).run p.specs p.jobs).outcome

/-- The program. -/
def run (s : Surroundings m) (args : List String) : m Result :=
  match parse args with
  | .error .usage => return { error := some .usage }
  | .error (.help topic) => return { stdout := topic.text }
  | .error .version => return { stdout := versionText }
  | .ok o => runWith s o

end Microbench.CommandLine
