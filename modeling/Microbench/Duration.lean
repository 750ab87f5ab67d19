import Microbench.Number.Whole

/-!
# Durations

A span of time in whole nanoseconds.

## Main definitions

* `Duration` — the span, with constructors from the usual units.
* `Duration.describe` — its text with the largest unit that leaves a whole part.
-/

namespace Microbench

/-- A span of time. -/
structure Duration where
  /-- Its length in nanoseconds. -/
  nanos : Nat
  deriving DecidableEq, Repr, Inhabited

namespace Duration

/-- The span without length. -/
def zero : Duration := ⟨0⟩

/-- A number of seconds. -/
def ofSeconds (n : Nat) : Duration := ⟨n * 1000000000⟩

/-- A number of milliseconds. -/
def ofMillis (n : Nat) : Duration := ⟨n * 1000000⟩

/-- Seconds and the nanoseconds beyond them. -/
def ofParts (seconds nanos : Nat) : Duration := ⟨seconds * 1000000000 + nanos⟩

/-- The whole seconds. -/
def seconds (d : Duration) : Nat := d.nanos / 1000000000

/-- The nanoseconds beyond the whole seconds. -/
def subsecond (d : Duration) : Nat := d.nanos % 1000000000

/-- The two spans one after the other. -/
def add (a b : Duration) : Duration := ⟨a.nanos + b.nanos⟩

/-- What is left of a span after another, nothing if the other is longer. -/
def minus (a b : Duration) : Duration := ⟨a.nanos - b.nanos⟩

/-- The greatest length a 64-bit count of nanoseconds can state. -/
def maxNanos : Nat := Whole.max64

/-- A part below one, written after the point with the zeros at its end dropped. -/
def fractionText (digits part : Nat) : List Char :=
  let ds := Nat.toDigits 10 part
  let padded := List.replicate (digits - ds.length) '0' ++ ds
  let kept := (padded.reverse.dropWhile (· == '0')).reverse
  if kept.isEmpty then [] else '.' :: kept

/-- The text of a span in the largest unit of which it holds at least one. -/
def describe (d : Duration) : String :=
  let write (unit digits : Nat) (suffix : String) : String :=
    String.ofList (Nat.toDigits 10 (d.nanos / unit) ++ fractionText digits (d.nanos % unit)) ++
      suffix
  if 1000000000 ≤ d.nanos then write 1000000000 9 "s"
  else if 1000000 ≤ d.nanos then write 1000000 6 "ms"
  else if 1000 ≤ d.nanos then write 1000 3 "µs"
  else write 1 0 "ns"

@[simp] theorem add_nanos (a b : Duration) : (a.add b).nanos = a.nanos + b.nanos := rfl

end Duration

end Microbench
