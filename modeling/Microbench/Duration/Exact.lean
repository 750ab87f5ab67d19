import Microbench.Duration
import Microbench.Number.Whole
import Microbench.Text.Blank

/-!
# Durations as whole numbers of a unit

The exact text of a duration: a whole number of the largest unit that divides it.

## Main definitions

* `Duration.exact` — that text.
* `Duration.parseExact` — the reader, which takes any whole number of any of the units.
-/

namespace Microbench.Duration

/-- The units of exact durations above the nanosecond, from the largest. -/
def exactUnits : List (String × Nat) :=
  [("min", 60000000000), ("s", 1000000000), ("ms", 1000000), ("us", 1000)]

/-- A whole number of the largest unit that divides the duration. -/
def exact (d : Duration) : String :=
  match exactUnits.find? fun u => d.nanos ≠ 0 && d.nanos % u.2 = 0 with
  | some (suffix, scale) => Whole.text (d.nanos / scale) ++ suffix
  | none => Whole.text d.nanos ++ "ns"

/-- The nanoseconds in a unit of exact durations. -/
def unitNanos? : String → Option Nat
  | "ns" => some 1
  | "us" => some 1000
  | "ms" => some 1000000
  | "s" => some 1000000000
  | "min" => some 60000000000
  | _ => none

/-- Whether a character is an ASCII digit. -/
def isDigit (c : Char) : Bool := 48 ≤ c.toNat && c.toNat ≤ 57

/-- Read a whole number of a unit; both the number and the duration must fit 64 bits. -/
def parseExact (s : String) : Option Duration := do
  let cs := Text.trim s.toList
  let unit := cs.dropWhile isDigit
  let value ← (Whole.readNat 10 Whole.max64 (cs.takeWhile isDigit)).toOption
  let scale ← unitNanos? (String.ofList unit)
  if value * scale ≤ maxNanos then some ⟨value * scale⟩ else none

end Microbench.Duration
