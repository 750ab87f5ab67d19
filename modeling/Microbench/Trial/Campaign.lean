import Microbench.Engine.Prepare
import Microbench.Profiler.Monitor
import Microbench.Session.Supervisor

/-!
# Campaigns

A campaign runs trials.  A trial runs its forks one after the other, each in a
worker of its own, first those whose results are discarded and then those that
are measured, and pools what these have found.  Without forks a trial runs right
here.

## Main definitions

* `Campaign` — what trials are run with.
* `Campaign.trial` — one trial.
* `Campaign.run` — all trials.
-/

namespace Microbench

/-- What trials are run with. -/
structure Campaign (m : Type → Type) where
  /-- The registered tasks. -/
  registry : Registry m
  /-- The machine. -/
  host : Host m
  /-- The names of the probes that every trial attaches. -/
  probes : List String := []
  /-- The monitors of every measured fork, in the order of attachment. -/
  monitors : List (Monitor m) := []
  /-- How workers are started and talked to. -/
  launcher : Launcher m
  /-- The program that is a worker, with its first arguments. -/
  workerCommand : List String
  /-- The process that runs the campaign. -/
  pid : UInt32 := 0

namespace Campaign

variable {m : Type → Type} [Monad m]

/-- Computations that may end a trial before its time. -/
abbrev Run (m : Type → Type) (α : Type) := ExceptT Halt m α

/-- Leave a trial without a result. -/
def fail {α : Type} (e : TrialError) : Run m α := throw (.error e)

/-- A trial that cannot be run as specified. -/
def misconfigured {α : Type} (s : Spec) (message : String) : Run m α :=
  fail (.configuration s.label message)

/-- The task of a trial, and the settings resolved against it. -/
def validate (c : Campaign m) (s : Spec) : Run m (TaskEntry m × Settings) :=
  match c.registry.get? s.name with
  | none => misconfigured s (unknownTaskMessage s.name)
  | some entry =>
    match Settings.resolve s entry.declaration with
    | .error e => misconfigured s e.message
    | .ok settings => return (entry, settings)

/-! ### Monitors -/

/-- What is said of a hook that has failed. -/
def hookWarning (name hook : String) (e : ProfilerError) : String :=
  name ++ ": " ++ hook ++ " failed: " ++ e.message

/-- Call the hooks before the launch: the monitors whose hooks have gone well, and warnings
about the others. -/
def startMonitors (s : Spec) : List (Monitor m) → m (List (Monitor m) × List String)
  | [] => return ([], [])
  | monitor :: rest => do
    let outcome ← (monitor.before s).run
    let (started, warnings) ← startMonitors s rest
    match outcome with
    | .ok () => return (monitor :: started, warnings)
    | .error e => return (started, hookWarning monitor.name "before_trial" e :: warnings)

/-- Call the hooks after the end: what the monitors have found, and warnings. -/
def askMonitors (fork : ForkResult) (output : Output) :
    List (Monitor m) → m (List Metric × List String)
  | [] => return ([], [])
  | monitor :: rest => do
    let outcome ← (monitor.after fork output).run
    let (found, warnings) ← askMonitors fork output rest
    match outcome with
    | .ok metrics => return (metrics ++ found, warnings)
    | .error e => return (found, hookWarning monitor.name "after_trial" e :: warnings)

/-- What monitors contribute through a hook that nothing guards. -/
def contributions (hook : Monitor m → ExceptT Breakdown m (List String)) :
    List (Monitor m) → Run m (List String)
  | [] => return []
  | monitor :: rest => do
    match ← ExceptT.lift (hook monitor).run with
    | .ok words => return words ++ (← contributions hook rest)
    | .error b => throw (.breakdown b)

/-- The command of a worker: what the specification and the monitors put before it, the program,
the arguments of the specification and of the monitors, and what comes last. -/
def command (c : Campaign m) (s : Spec) (monitors : List (Monitor m)) : Run m (List String) := do
  let before ← contributions (·.launchPrefix s) monitors
  let args ← contributions (·.launchArgs s) monitors
  return s.launch.before.getD [] ++ before ++ c.workerCommand ++ s.launch.args.getD [] ++ args ++
    s.launch.after.getD []

/-! ### Forks -/

/-- What one fork has found out. -/
structure Findings where
  /-- What was measured. -/
  fork : ForkResult
  /-- What the monitors have found. -/
  found : List Metric := []
  /-- Warnings about the monitors. -/
  warnings : List String := []

/-- One fork in a worker of its own, with monitors around it. -/
def fork (c : Campaign m) (s : Spec) (settings : Settings) (index : UInt32)
    (monitors : List (Monitor m)) : Run m Findings := do
  let (started, before) ← ExceptT.lift (startMonitors s monitors)
  let command ← c.command s started
  match ← ExceptT.lift (Supervisor.run c.launcher command c.probes s settings index).run with
  | .error (.process f) => fail (.process s.label index f)
  | .error (.reported f) => fail (.reported s.label f)
  | .ok (fork, output) =>
    let (found, after) ← ExceptT.lift (askMonitors fork output started)
    return { fork, found, warnings := before ++ after }

/-- So many forks from an index on. -/
def forks (c : Campaign m) (s : Spec) (settings : Settings) (monitors : List (Monitor m)) :
    Nat → Nat → Run m (List Findings)
  | 0, _ => return []
  | more + 1, index => do
    let first ← c.fork s settings (UInt32.ofNat index) monitors
    return first :: (← forks c s settings monitors more (index + 1))

/-- A trial without forks, run right here and without monitors. -/
def inProcess (c : Campaign m) (entry : TaskEntry m) (s : Spec) : Run m ForkResult := do
  match ← ExceptT.lift (Conductor.prepare c.host entry s c.probes).run with
  | .error (.error f) => misconfigured s f.message
  | .error (.breakdown b) => throw (.breakdown b)
  | .ok conductor =>
    match ← ExceptT.lift (conductor.runAll .ready) with
    | (.error f, _) => fail (.reported s.label f)
    | (.ok reports, _) =>
      return reports.foldl ForkResult.addReport { index := 0, pid := c.pid }

/-! ### Trials -/

/-- One trial. -/
def trial (c : Campaign m) (s : Spec) : Run m TrialResult := do
  let (entry, settings) ← c.validate s
  if settings.forks = 0 then
    return .pooled s [← c.inProcess entry s] [] []
  else
    let _ ← c.forks s settings [] settings.warmupForks.toNat 0
    let findings ← c.forks s settings c.monitors settings.forks.toNat 0
    return .pooled s (findings.map (·.fork)) (findings.flatMap (·.found))
      (findings.flatMap (·.warnings))

/-- Whether a trial without a result ends the campaign. -/
def isFatal (s : Spec) : Bool := s.failOnError.getD true

/-- A trial without a result is a failed one, unless it ends the campaign. -/
def settle (s : Spec) : Except Halt TrialResult → Except Halt TrialResult
  | .ok t => .ok t
  | .error (.error e) => if isFatal s then .error (.error e) else .ok (.failed s e)
  | .error (.breakdown b) => .error (.breakdown b)

/-- How a campaign has ended. -/
structure Conclusion where
  /-- The results of all trials, or what has ended the campaign. -/
  outcome : Except Halt (List TrialResult)
  /-- The results that were announced, in order. -/
  announced : List TrialResult

/-- Run trials one after the other, up to the first that ends the campaign. -/
def runInTurn (c : Campaign m) : List Spec → m Conclusion
  | [] => return ⟨.ok [], []⟩
  | s :: rest => do
    match settle s (← (c.trial s).run) with
    | .error e => return ⟨.error e, []⟩
    | .ok t =>
      let later ← runInTurn c rest
      return ⟨later.outcome.map (t :: ·), t :: later.announced⟩

/-- A trial with what has become of it. -/
abbrev Ran := Spec × Except Halt TrialResult

/-- The first breakdown of trials. -/
def breakdown? (outcomes : List Ran) : Option Breakdown :=
  outcomes.findSome? fun o =>
    match o.2 with
    | .error (.breakdown b) => some b
    | _ => none

/-- Settle trials that have all been run.  The failed ones are announced only now. -/
def settleAll : List Ran → Conclusion
  | [] => ⟨.ok [], []⟩
  | (s, outcome) :: rest =>
    match settle s outcome with
    | .error e => ⟨.error e, []⟩
    | .ok t =>
      let later := settleAll rest
      ⟨later.outcome.map (t :: ·),
        (match outcome with
          | .ok _ => []
          | .error _ => [t]) ++ later.announced⟩

/-- Conclude from trials that have all been run: those that went well were announced at once, and
a breakdown counts before any other end. -/
def concludeAll (outcomes : List Ran) : Conclusion :=
  let announced := outcomes.filterMap fun o => o.2.toOption
  match breakdown? outcomes with
  | some b => ⟨.error (.breakdown b), announced⟩
  | none =>
    let settled := settleAll outcomes
    ⟨settled.outcome, announced ++ settled.announced⟩

/-- Run trials at the same time: all of them run, whatever becomes of the others. -/
def runTogether (c : Campaign m) (specs : List Spec) : m Conclusion :=
  concludeAll <$> specs.mapM fun s => return (s, ← (c.trial s).run)

/-- Run all trials, so many at the same time. -/
def run (c : Campaign m) (specs : List Spec) (jobs : Nat) : m Conclusion :=
  if jobs ≤ 1 ∨ specs.length ≤ 1 then c.runInTurn specs else c.runTogether specs

end Campaign

end Microbench
