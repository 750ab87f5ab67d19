import Microbench.Session.Launcher
import Microbench.Spec.Line
import Microbench.Trial.Outcome
import Microbench.Trial.Settings

/-!
# The supervisor's side of a session

A supervisor starts a worker, sends it the specification and waits for its
greeting.  Then it asks for one iteration after the other, each time waiting for
the report, asks the worker to end, and waits until it has.  Whatever else the
worker says or does ends the session.

## Main definitions

* `SessionError` — what ends a session before its time.
* `Supervisor.position` — whose turn it is.
* `Supervisor.run` — a whole session.
-/

namespace Microbench

/-- What ends a session before its time. -/
inductive SessionError
  /-- The worker or the channel to it. -/
  | process (f : ProcessFailure)
  /-- A failure that the worker reports. -/
  | reported (f : Failure)
  deriving DecidableEq, Repr

namespace Supervisor

/-! ### What the worker has to say -/

/-- The phase of an iteration, and its index within the phase. -/
def position (s : Settings) (n : Nat) : Phase × UInt32 :=
  if n < s.warmup.count.toNat then (.warmup, UInt32.ofNat n)
  else (.measurement, UInt32.ofNat (n - s.warmup.count.toNat))

/-- A message that is not what it should be. -/
def unexpected {α : Type} (expected : Expected) (got : String) : Except SessionError α :=
  .error (.process (.desync expected got))

/-- A greeting in the right version, with the worker's process. -/
def greeting : Message → Except SessionError UInt32
  | .hello version pid _ =>
    if version = protocolVersion then .ok pid else .error (.process (.version version))
  | m => unexpected .greeting m.describe

/-- The report of the iteration whose turn it is. -/
def report (s : Settings) (n : Nat) : Message → Except SessionError Report
  | .iteration r =>
    if (r.phase, r.index) = position s n then .ok r
    else unexpected .nextReport (positionText r.phase r.index)
  | .failure f => .error (.reported f)
  | m => unexpected .report m.describe

/-- The end of the session after all iterations. -/
def completion (s : Settings) : Message → Except SessionError Unit
  | .failure f => .error (.reported f)
  | .complete n =>
    if n = s.iterations then .ok () else unexpected .completion (Message.complete n).describe
  | m => unexpected .completion m.describe

/-! ### The session -/

variable {m : Type → Type} [Monad m] (l : Launcher m)

/-- Computations that may end the session. -/
abbrev Run (m : Type → Type) (α : Type) := ExceptT SessionError m α

/-- End the session. -/
def fail {α : Type} (f : ProcessFailure) : Run m α := throw (.process f)

/-- Start a worker. -/
def start (command probes : List String) : Run m l.Worker :=
  match command with
  | [] => fail .emptyCommand
  | program :: args => do
    match ← l.start ⟨program, args, probes⟩ with
    | .ok w => return w
    | .error reason => fail (.launch program reason)

/-- Send a line. -/
def send (w : l.Worker) (line : String) : Run m l.Worker :=
  match Line.check line with
  | .error e => fail (.channel (.line e))
  | .ok _ => do
    match ← l.send w line with
    | .ok w => return w
    | .error status => fail (.ofEnd status)

/-- Wait for a message. -/
def receive (limit : Duration) (w : l.Worker) : Run m (Message × l.Worker) := do
  match ← l.receive limit w with
  | (.message message, w) => return (message, w)
  | (.noise e, _) => fail (.channel e)
  | (.closed status, _) => fail (.ofEnd status)
  | (.silence, _) => fail (.timeout limit)

/-- Send a line and judge the answer. -/
def ask {α : Type} (s : Settings) (w : l.Worker) (line : String)
    (judge : Message → Except SessionError α) : Run m (α × l.Worker) := do
  let w ← send l w line
  let (message, w) ← receive l s.timeout w
  match judge message with
  | .ok a => return (a, w)
  | .error e => throw e

/-- Ask for so many iterations, from the one with index `n` on. -/
def iterations (s : Settings) : Nat → Nat → ForkResult → l.Worker → Run m (ForkResult × l.Worker)
  | 0, _, fork, w => return (fork, w)
  | more + 1, n, fork, w => do
    let (r, w) ← ask l s w Command.iterate.line (report s n)
    iterations s more (n + 1) (fork.addReport r) w

/-- Wait until the worker has ended, and ended well. -/
def finish (limit : Duration) (w : l.Worker) : Run m Output := do
  match ← l.finish limit w with
  | none => fail (.timeout limit)
  | some (status, output) => if status.isSuccess then return output else fail (.exited status)

/-- A whole session: what the fork has measured, and what the worker has written. -/
def run (command probes : List String) (spec : Spec) (s : Settings) (index : UInt32) :
    Run m (ForkResult × Output) := do
  let w ← start l command probes
  let (pid, w) ← ask l s w spec.encode greeting
  let (fork, w) ← iterations l s s.iterations.toNat 0 { index, pid } w
  let ((), w) ← ask l s w Command.terminate.line (completion s)
  let output ← finish l s.timeout w
  return (fork, output)

end Supervisor

end Microbench
