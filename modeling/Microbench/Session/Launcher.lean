import Microbench.Session.Failure

/-!
# Launchers

What a supervisor needs of the worker processes: to start one, to send it a line,
to wait for what it says next, and to wait for its end.  A launcher says how that
is done; what it holds of a running worker is its own.

## Main definitions

* `Launch` — the command and the surroundings of a worker.
* `Launcher` — how workers are started and talked to.
-/

namespace Microbench

/-- The command and the surroundings of a worker. -/
structure Launch where
  /-- The program, and its arguments. -/
  program : String
  /-- The arguments. -/
  args : List String
  /-- The names of the probes that the worker attaches. -/
  probes : List String
  deriving DecidableEq, Repr

/-- What a process has written beside its messages. -/
structure Output where
  /-- On the standard output. -/
  stdout : ByteArray := .empty
  /-- On the standard error output. -/
  stderr : ByteArray := .empty
  deriving Inhabited

/-- What a supervisor hears when it waits for a worker. -/
inductive Heard
  /-- A message; what the worker logs in between is left out. -/
  | message (m : Message)
  /-- Something that is no frame. -/
  | noise (e : FrameError)
  /-- The end of the channel, with the status of the worker if it has ended soon after. -/
  | closed (status : Option ExitStatus)
  /-- Nothing for as long as the supervisor waits. -/
  | silence
  deriving Inhabited

/-- How workers are started and talked to. -/
structure Launcher (m : Type → Type) where
  /-- What is held of a running worker. -/
  Worker : Type
  /-- Start a worker; if that fails, the reason. -/
  start : Launch → m (Except String Worker)
  /-- Send a line; if nobody listens, the status of the worker if it has ended. -/
  send : Worker → String → m (Except (Option ExitStatus) Worker)
  /-- Wait for what comes next, so long at most. -/
  receive : Duration → Worker → m (Heard × Worker)
  /-- Wait for the end, so long at most. -/
  finish : Duration → Worker → m (Option (ExitStatus × Output))

end Microbench
