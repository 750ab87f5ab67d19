import Microbench.CommandLine.Parse
import Microbench.Rehearsal.Launching
import Microbench.Rehearsal.Peer
import Microbench.Rehearsal.Script
import Microbench.Session.InMemory

/-!
# The stage of a rehearsal

The tasks that belong to the program, and the two launchers of a rehearsal: one for
the program itself as a worker in memory, one for a worker with a script.

## Main definitions

* `linked` — the tasks that belong to the program.
* `ownWorkers` — the program as a worker.
* `scriptedWorkers` — a worker with a script.
-/

namespace Microbench.Rehearsal

/-- A task that follows no script. -/
def plainEntry (id : String) (mode : Mode) : TaskEntry Scene :=
  ({ declaration := ⟨id, mode, [], []⟩ } : Script).entry

/-- A task in a mode of its own; it follows the script of its name if there is one. -/
def entryIn (scripts : Registry Scene) (id : String) (mode : Mode) : TaskEntry Scene :=
  match scripts.get? id with
  | some e => { e with declaration := { e.declaration with mode } }
  | none => plainEntry id mode

/-- The tasks that belong to the program. -/
def linked (scripts : Registry Scene) : Registry Scene :=
  Registry.ofList [entryIn scripts "alpha" .throughput, entryIn scripts "queue" .all]

/-- The program itself as a command. -/
def ownProgram : String := "trialbench"

/-- The program of a scripted worker as a command. -/
def peerProgram : String := "peer"

/-- What becomes of the program when it is launched as a worker: arguments that make no sense end
it. -/
def ownVerdict (l : Launch) : Except String (Option ExitStatus) :=
  match launchingOf ownProgram l with
  | .missing => .error missingReason
  | .ends status => .ok (some status)
  | .runs args =>
    match CommandLine.parse args with
    | .ok _ => .ok none
    | .error .usage => .ok (some (.code 2))
    | .error _ => .ok (some (.code 0))

/-- The launcher for the program itself. -/
def ownWorkers (registry : Registry Scene) : Launcher Scene :=
  .inMemory (fun probes => { registry, host := World.host, probes, pid := 1 }) ownVerdict

/-- What becomes of a scripted worker when it is launched. -/
def peerVerdict (l : Launch) : Except String (List String ⊕ ExitStatus) :=
  match launchingOf peerProgram l with
  | .missing => .error missingReason
  | .ends status => .ok (.inr status)
  | .runs args => .ok (.inl args)

/-- The launcher for a worker with a script. -/
def scriptedWorkers (script : List PeerStep) : Launcher Scene := Peer.launcher script peerVerdict

end Microbench.Rehearsal
