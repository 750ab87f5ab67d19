/-!
# Breaking off

Code that the program does not know may break off wherever it is called.  Most of
these calls are guarded, and what breaks off in them becomes an error like any
other.  What breaks off in a call that nobody guards takes everything with it, up
to the process that has made the call.

## Main definitions

* `Breakdown` — what nobody guards against.
* `Abort` — what ends a computation before its time: an error, or a breakdown.
-/

namespace Microbench

/-- A computation that has broken off where nothing guards it. -/
structure Breakdown where
  /-- What it said. -/
  text : String
  deriving DecidableEq, Repr, Inhabited

/-- The code that a process ends with in which something has broken off. -/
def Breakdown.exitCode : Nat := 101

/-- What ends a computation before its time. -/
inductive Abort (ε : Type)
  /-- It gives an error. -/
  | error (e : ε)
  /-- Something has broken off that nobody guards against. -/
  | breakdown (b : Breakdown)
  deriving DecidableEq, Repr

end Microbench
