import Microbench.Duration
import Microbench.Stats.Scalar

/-!
# Pace of a timed iteration

A timed iteration looks at the clock once a batch.  Batches double, so that the
looks stay rare, but never go beyond the number of invocations that is estimated
to be left.

## Main definitions

* `Pace` — the target time and the size of the last batch.
* `Pace.next` — the next batch, or none once the target is reached.
-/

namespace Microbench

/-- The progress of a timed iteration. -/
structure Pace where
  /-- How long the iteration is to last. -/
  target : Duration
  /-- The size of the last batch, at first one. -/
  batch : Nat := 1
  deriving DecidableEq, Repr, Inhabited

namespace Pace

/-- The largest batch. -/
def maxBatch : Nat := 0x100000

/-- The estimate when invocations seem to take no time. -/
def unbounded : Nat := Whole.max64

/-- How many invocations are estimated to be left. -/
def estimate (α : Type) [Scalar α] (target : Duration) (operations : Nat) (elapsed : Duration) :
    Nat :=
  let perOperation : α := Scalar.ofCount elapsed.nanos / Scalar.ofCount operations
  let remaining : α := Scalar.ofCount (target.minus elapsed).nanos
  if Scalar.less (Scalar.ofCount 0) perOperation then Scalar.ceilWhole (remaining / perOperation)
  else unbounded

/-- The size of the next batch after so many operations in so much time, and the pace from
then on. -/
def next (α : Type) [Scalar α] (p : Pace) (operations : Nat) (elapsed : Duration) :
    Option Nat × Pace :=
  if p.target.nanos ≤ elapsed.nanos then (none, p)
  else if operations = 0 then (some p.batch, p)
  else
    let batch := max 1 (min maxBatch (min (p.batch * 2) (estimate α p.target operations elapsed)))
    (some batch, { p with batch })

end Pace

end Microbench
