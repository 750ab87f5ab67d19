import Microbench.Duration
import Microbench.Number.Binary
import Microbench.Number.Decimal
import Microbench.Text.Blank
import Microbench.Text.Quoted

/-!
# Durations as people write them

A duration in a configuration: a decimal number with a unit in any letter case,
or a number of seconds without one.

## Main definitions

* `Duration.parse` — the reader.
* `BadDuration` — a text that it refuses.
-/

namespace Microbench

/-- A text that is no duration. -/
structure BadDuration where
  /-- The text. -/
  text : String
  deriving DecidableEq, Repr

/-- The wording of the error. -/
def BadDuration.message (e : BadDuration) : String := "invalid duration " ++ Text.quote e.text

namespace Duration

/-- Whether a unit may start with this character.  Only ASCII letters and the micro sign start
one; what starts with any other letter is refused as a number. -/
def startsUnit (c : Char) : Bool := c.isAlpha || c == 'µ'

/-- The nanoseconds in a unit written in lower case. -/
def looseNanos? : String → Option Float
  | "ns" => some 1.0
  | "us" | "µs" => some 1e3
  | "ms" => some 1e6
  | "s" | "" => some 1e9
  | "m" | "min" => some 60e9
  | "h" => some 3600e9
  | _ => none

/-- Read a duration; what is beyond 64 bits of nanoseconds is cut off there. -/
def parse (s : String) : Except BadDuration Duration :=
  let cs := Text.trim s.toList
  let number := cs.takeWhile fun c => !startsUnit c
  let unit := String.ofList ((cs.drop number.length).map Char.toLower)
  let parsed : Option Duration := do
    if cs.isEmpty then none
    let value ← (Decimal.read (Text.trim number)).toOption
    if !Binary.isFinite value || value < 0.0 then none
    let scale ← looseNanos? unit
    return ⟨(value * scale).toUInt64.toNat⟩
  match parsed with
  | some d => .ok d
  | none => .error ⟨s⟩

end Duration

end Microbench
