import Microbench.Session.Launcher

/-!
# Scripted workers

A worker that follows a script: it reads and writes lines, waits, and ends as the
script says.  Its time is that of its waits; reading and writing take none.  It
gets on only while the supervisor waits, and no further than needed.  Only the
lines that it logs keep the supervisor busy, and then it gets on as far as it can
without a wait: it may have ended before it is told the next thing.

## Main definitions

* `PeerStep` — a step of the script.
* `Peer` — a worker, and how far it has come.
* `Peer.launcher` — the launcher of such workers.
-/

namespace Microbench.Rehearsal

/-- A step of a script. -/
inductive PeerStep
  /-- Read a line. -/
  | read
  /-- Write to the channel. -/
  | write (bytes : ByteArray)
  /-- Report what it was launched with, as a failure. -/
  | tellLaunch
  /-- Write to the standard output. -/
  | stdout (bytes : ByteArray)
  /-- Write to the standard error output. -/
  | stderr (bytes : ByteArray)
  /-- Wait. -/
  | wait (time : Duration)
  /-- Close the channel to the supervisor. -/
  | close
  /-- End. -/
  | exit (status : ExitStatus)

/-- A worker, and how far it has come. -/
structure Peer where
  /-- What it was launched with: arguments and probes. -/
  launch : List String × List String
  /-- The steps to come. -/
  steps : List PeerStep
  /-- How many lines it can read. -/
  inbox : Nat := 0
  /-- What it has written to the channel and nobody has heard. -/
  channel : ByteSource := { bytes := .empty }
  /-- Whether it can still write to the channel. -/
  isOpen : Bool := true
  /-- What it has written beside the channel. -/
  output : Output := {}
  /-- How it has ended. -/
  status : Option ExitStatus := none
  /-- How long it has waited since the supervisor began to wait. -/
  waited : Duration := .zero

namespace Peer

/-- What the worker says about its launch. -/
def launchMessage (launch : List String × List String) : Message :=
  .failure ⟨"args", .invocation, none,
    " ".intercalate launch.1 ++ " | " ++ ",".intercalate launch.2⟩

/-- Write to the channel, if it is open. -/
def write (p : Peer) (bytes : ByteArray) : Peer :=
  if p.isOpen then { p with channel := { p.channel with bytes := p.channel.bytes ++ bytes } } else p

/-- End. -/
def stop (p : Peer) (status : ExitStatus) : Peer :=
  { p with steps := [], isOpen := false, status := some status }

/-- Whether a whole line waits to be heard. -/
def hasLine (p : Peer) : Bool :=
  (ByteSource.findEnd p.channel.bytes p.channel.bytes.size p.channel.place).isSome

/-- Whether anything waits to be heard. -/
def hasData (p : Peer) : Bool := p.channel.place < p.channel.bytes.size

/-- Take steps until `enough`, until the worker waits for a line, or until a wait would last beyond
the limit.  The answer also says whether the worker is stuck. -/
def advance (enough : Peer → Bool) (limit : Peer → Option Duration) :
    List PeerStep → Peer → Peer × Bool
  | [], p =>
    (if enough p || p.status.isSome then { p with steps := [] } else p.stop (.code 0), false)
  | step :: rest, p =>
    if enough p then ({ p with steps := step :: rest }, false)
    else
      match step with
      | .read =>
        if p.inbox = 0 then ({ p with steps := step :: rest }, true)
        else advance enough limit rest { p with inbox := p.inbox - 1 }
      | .write bytes => advance enough limit rest (p.write bytes)
      | .tellLaunch =>
        advance enough limit rest (p.write ((launchMessage p.launch).line ++ "\n").toUTF8)
      | .stdout bytes =>
        let output := { p.output with stdout := p.output.stdout ++ bytes }
        advance enough limit rest { p with output }
      | .stderr bytes =>
        let output := { p.output with stderr := p.output.stderr ++ bytes }
        advance enough limit rest { p with output }
      | .wait time =>
        let waited := p.waited.add time
        if (limit p).any fun l => l.nanos ≤ waited.nanos then
          ({ p with steps := step :: rest }, true)
        else advance enough limit rest { p with waited }
      | .close => advance enough limit rest { p with isOpen := false }
      | .exit status => (p.stop status, false)

/-- How long a supervisor waits for the end of a worker that has closed the channel. -/
def grace : Duration := .ofMillis 500

/-- Take steps to the end, unless the worker gets stuck or a wait lasts beyond the limit. -/
def advanceToEnd (limit : Duration) (p : Peer) : Peer × Bool :=
  advance (fun p => p.status.isSome) (fun _ => some limit) p.steps { p with waited := .zero }

/-- The status of a worker whose channel is closed, if it ends soon. -/
def lastStatus (p : Peer) : Option ExitStatus :=
  let (p, stuck) := p.advanceToEnd grace
  if stuck then none else p.status

/-- Wait for a line or for the end of the channel.  Once the start of a line is there the supervisor
waits for the rest of it however long that takes. -/
def awaitLine (limit : Duration) (p : Peer) : Peer × Bool :=
  advance (fun p => p.hasLine || !p.isOpen) (fun p => if p.hasData then none else some limit)
    p.steps { p with waited := .zero }

/-- Take the steps that need no time, while the supervisor is busy. -/
def getOn (p : Peer) : Peer :=
  (advance (fun p => p.status.isSome) (fun _ => some .zero) p.steps p).1

/-- Wait for the next message, past so many lines at most that are none. -/
def awaitMessage (limit : Duration) : Nat → Peer → Heard × Peer
  | 0, p => (.silence, p)
  | fuel + 1, p =>
    let (p, stuck) := p.awaitLine limit
    if stuck then (.silence, p)
    else
      match Frame.read p.channel with
      | (.ok (.message message), channel) => (.message message, { p with channel })
      | (.ok (.log _), channel) => awaitMessage limit fuel { p with channel }.getOn
      | (.error (.line .ended), _) => (.closed p.lastStatus, p)
      | (.error e, channel) => (.noise e, { p with channel })

/-- How many bytes a worker can write at most, and more. -/
def ink (p : Peer) : Nat :=
  let needed := p.steps.map fun
    | .write bytes => bytes.size
    | .tellLaunch => 1
    | _ => 0
  p.channel.bytes.size + Whole.total needed + 1

/-- Wait for the end. -/
def awaitEnd (limit : Duration) (p : Peer) : Option (ExitStatus × Output) :=
  let (p, stuck) := p.advanceToEnd limit
  if stuck then none else p.status.map (·, p.output)

/-- Be told a line, if the worker has not ended. -/
def tell (p : Peer) : Except (Option ExitStatus) Peer :=
  match p.status with
  | some status => .error (some status)
  | none => .ok { p with inbox := p.inbox + 1 }

/-- The launcher of workers with a script.  `verdict` says whether a command starts a worker, and
with which arguments, cannot be started, or ends at once. -/
def launcher {m : Type → Type} [Monad m] (script : List PeerStep)
    (verdict : Launch → Except String (List String ⊕ ExitStatus)) : Launcher m where
  Worker := Peer
  start launch := return (verdict launch).map fun
    | .inl args => { launch := (args, launch.probes), steps := script }
    | .inr status => { launch := ([], []), steps := [.exit status] }
  send p _ := return p.tell
  receive limit p := return p.awaitMessage limit p.ink
  finish limit p := return p.awaitEnd limit

end Peer

end Microbench.Rehearsal
