import Microbench.Session.Launcher
import Microbench.Session.Worker

/-!
# Workers in memory

A worker that is no process of its own: what it is sent it answers at once, and
what it writes waits to be heard.

## Main definitions

* `InMemory` — such a worker.
* `Launcher.inMemory` — the launcher of such workers.
-/

namespace Microbench

/-- A worker in memory. -/
structure InMemory (m : Type → Type) where
  /-- Its session. -/
  session : Session m
  /-- What it has written and nobody has heard. -/
  unheard : List String := []
  /-- Its status if it has ended without a session. -/
  rejected : Option ExitStatus := none

namespace InMemory

variable {m : Type → Type}

/-- The status of a worker that has ended: all is well unless its session ended with an error. -/
def status? (w : InMemory m) : Option ExitStatus :=
  match w.rejected, w.session with
  | some status, _ => some status
  | none, .ended (.ok ()) => some (.code 0)
  | none, .ended (.error e) => some (.code e.exitCode)
  | none, _ => none

/-- The next message among lines, and the lines after it. -/
def nextMessage : List String → Option (Except FrameError Message × List String)
  | [] => none
  | line :: rest =>
    match Frame.ofLine line with
    | some (.message message) => some (.ok message, rest)
    | some (.log _) => nextMessage rest
    | none => some (.error .unreadable, rest)

/-- What is heard of a worker. -/
def heard (w : InMemory m) : Heard × InMemory m :=
  match nextMessage w.unheard with
  | some (.ok message, rest) => (.message message, { w with unheard := rest })
  | some (.error e, rest) => (.noise e, { w with unheard := rest })
  | none =>
    match w.status? with
    | some status => (.closed (some status), { w with unheard := [] })
    | none => (.silence, { w with unheard := [] })

end InMemory

/-- The launcher of workers in memory.  `verdict` says whether a command starts a worker, cannot be
started, or ends at once. -/
def Launcher.inMemory {m : Type → Type} [Monad m] (workshop : List String → Workshop m)
    (verdict : Launch → Except String (Option ExitStatus)) : Launcher m where
  Worker := Workshop m × InMemory m
  start launch := return (verdict launch).map fun rejected =>
    (workshop launch.probes, { session := .waiting, rejected })
  send := fun (shop, w) line => do
    if w.rejected.isSome then return .ok (shop, w)
    let (written, session) ← Session.hear shop w.session (.ok line)
    return .ok (shop, { w with session, unheard := w.unheard ++ written })
  receive _ := fun (shop, w) =>
    let (heard, w) := w.heard
    return (heard, (shop, w))
  finish _ := fun (_, w) => return w.status?.map fun status => (status, {})

end Microbench
