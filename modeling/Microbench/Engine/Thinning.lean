/-!
# Thinning of samples

Sampled invocations are kept evenly spaced and bounded in number: every
`stride`-th invocation is timed, and when there are too many samples every other
one is dropped and the stride doubles.

## Main definitions

* `Thinning` — the samples kept so far.
* `Thinning.advance` — whether the next invocation is to be timed.
* `Thinning.push` — keep a sample.
-/

namespace Microbench

/-- Evenly spaced samples, bounded in number. -/
structure Thinning (α : Type) where
  /-- The samples kept. -/
  samples : Array α := #[]
  /-- Every how many invocations one is timed. -/
  stride : Nat := 1
  /-- How many invocations there were. -/
  seen : Nat := 0
  /-- The number of samples that is too large. -/
  capacity : Nat
  deriving DecidableEq

namespace Thinning

variable {α : Type}

/-- No samples, with room for at least one. -/
def ofCapacity (capacity : Nat) : Thinning α := { capacity := max capacity 2 }

/-- The items at odd places, counted from zero. -/
def everyOther : List α → List α
  | [] => []
  | [_] => []
  | _ :: b :: rest => b :: everyOther rest

/-- Count an invocation, and say whether it is to be timed. -/
def advance (t : Thinning α) : Bool × Thinning α :=
  ((t.seen + 1) % t.stride == 0, { t with seen := t.seen + 1 })

/-- Keep a sample. -/
def push (t : Thinning α) (sample : α) : Thinning α :=
  let samples := t.samples.push sample
  if t.capacity ≤ samples.size then
    { t with samples := (everyOther samples.toList).toArray, stride := t.stride * 2 }
  else { t with samples }

/-- Count an invocation, and keep its sample if it is to be timed. -/
def offer (t : Thinning α) (sample : α) : Bool × Thinning α :=
  let (wanted, t) := t.advance
  (wanted, if wanted then t.push sample else t)

end Thinning

end Microbench
