import Microbench.Engine.Prepare
import Microbench.Spec.Line
import Microbench.Stats.Describe
import Microbench.Wire.Frame

/-!
# The worker's side of a session

A worker hears lines and writes lines.  The first line specifies the trial; the
worker greets, and sets the trial up.  Then it is told to run one iteration after
the other, each of which it reports, until it is told to end.  The first failure
is reported and ends the session.  Of a task that breaks off while an instance of it
is made nothing is reported: the worker ends with it.

## Main definitions

* `Session` — where a session is.
* `Session.hear` — what a line leads to.
* `Session.serve` — a whole session over a stream.
-/

namespace Microbench

/-- What ends a worker before its time. -/
inductive WorkerError
  /-- A line cannot be read or written. -/
  | line (e : Line.Error)
  /-- The first line is no specification. -/
  | spec (e : Spec.DecodeError)
  /-- A line is no command. -/
  | command (e : UnknownCommand)
  /-- The setting that names the channel makes no sense. -/
  | channel (setting : String)
  /-- The task has broken off where nobody guards against it. -/
  | breakdown (b : Breakdown)
  deriving DecidableEq, Repr

/-- The wording of an error. -/
def WorkerError.message : WorkerError → String
  | line e => e.message
  | spec e => "malformed benchmark record: " ++ e.message
  | command e => "protocol violation: " ++ e.message
  | channel setting => "invalid IPC descriptor setting " ++ Text.quote setting
  | breakdown b => b.text

/-- The code that a worker ends with. -/
def WorkerError.exitCode : WorkerError → Nat
  | breakdown _ => Breakdown.exitCode
  | _ => 1

/-- The name of a phase at the start of a sentence. -/
def Phase.title : Phase → String
  | .warmup => "Warmup"
  | .measurement => "Measurement"

/-- The line that tells a reader how a report looks. -/
def progressLine (task : String) (r : Report) : String :=
  "# " ++ task ++ " " ++ r.phase.title ++ " iteration " ++ Whole.text (r.index.toNat + 1) ++ ": " ++
    match r.result.primary with
    | some m => numberText m.score ++ " " ++ m.unit
    | none => "no samples"

/-- What a worker works with. -/
structure Workshop (m : Type → Type) where
  /-- The registered tasks. -/
  registry : Registry m
  /-- The machine. -/
  host : Host m
  /-- The names of the probes to attach. -/
  probes : List String := []
  /-- The process. -/
  pid : UInt32 := 0

/-- Where a session is. -/
inductive Session (m : Type → Type)
  /-- The specification is still to come. -/
  | waiting
  /-- A trial runs. -/
  | serving (conductor : Conductor m) (position : Lifecycle)
  /-- It is over, well or not. -/
  | ended (result : Except WorkerError Unit)

namespace Session

variable {m : Type → Type}

/-- What a worker writes, and where the session is afterwards. -/
abbrev Reaction (m : Type → Type) := List String × Session m

/-- Write lines up to the first that cannot be written, which ends the session. -/
def write (next : Session m) : List String → Reaction m
  | [] => ([], next)
  | line :: rest =>
    match Line.check line with
    | .error e => ([], .ended (.error (.line e)))
    | .ok _ =>
      let (written, session) := write next rest
      (line :: written, session)

/-- Report a failure and end. -/
def fail (f : Failure) : Reaction m := write (.ended (.ok ())) [(Message.failure f).line]

/-- Reactions one after the other: the second only counts if the first goes on. -/
def andThen [Monad m] (first : Reaction m) (second : m (Reaction m)) : m (Reaction m) := do
  match first with
  | (written, .ended result) => return (written, .ended result)
  | (written, _) =>
    let (more, session) ← second
    return (written ++ more, session)

variable [Monad m]

/-- The first line: the worker greets and sets the trial up. -/
def greet (w : Workshop m) (line : String) : m (Reaction m) :=
  match Spec.decode line with
  | .error e => return ([], .ended (.error (.spec e)))
  | .ok s =>
    andThen (write .waiting [(Message.hello protocolVersion w.pid s.name).line]) do
      match ← (Conductor.ofRegistry w.host w.registry s w.probes).run with
      | .error (.error f) => return fail f
      | .error (.breakdown b) => return ([], .ended (.error (.breakdown b)))
      | .ok c =>
        match ← c.setUp .ready with
        | (.error f, _) => return fail f
        | (.ok (), position) => return ([], .serving c position)

/-- A command to a running trial. -/
def command (c : Conductor m) (position : Lifecycle) (line : String) : m (Reaction m) :=
  match Command.parse line with
  | .error e => return ([], .ended (.error (.command e)))
  | .ok .iterate => do
    match ← c.iterate position with
    | (.error f, _) => return fail f
    | (.ok r, position) =>
      return write (.serving c position)
        [progressLine c.settings.task r, (Message.iteration r).line]
  | .ok .terminate => do
    match ← c.tearDown position with
    | (.error f, _) => return fail f
    | (.ok n, _) => return write (.ended (.ok ())) [(Message.complete n).line]

/-- What a line, or its absence, leads to. -/
def hear (w : Workshop m) (session : Session m) (input : Except Line.Error String) :
    m (Reaction m) :=
  match session, input with
  | .ended result, _ => return ([], .ended result)
  | _, .error e => return ([], .ended (.error (.line e)))
  | .waiting, .ok line => greet w line
  | .serving c position, .ok line => command c position line

/-- A session over a stream, for so many lines at most: what is written, and how it ends. -/
def serveLines (w : Workshop m) : Nat → Session m → ByteSource →
    m (List String × Except WorkerError Unit)
  | _, .ended result, _ => return ([], result)
  | 0, _, _ => return ([], .error (.line .ended))
  | n + 1, session, source => do
    let (input, source) := source.readLine
    let (written, session) ← hear w session input
    let (more, result) ← serveLines w n session source
    return (written ++ more, result)

/-- A whole session over a stream.  A stream has no more lines than bytes. -/
def serve (w : Workshop m) (source : ByteSource) : m (List String × Except WorkerError Unit) :=
  serveLines w (source.bytes.size + 2) .waiting source

end Session

end Microbench
