import Microbench.Duration
import Microbench.Mode

/-!
# Units of time

The units in which times are reported, and the unit of a score in each mode.

## Main definitions

* `TimeUnit` — the units.
* `TimeUnit.suffix`, `TimeUnit.parse` — the suffix and the reader, which knows more spellings.
* `TimeUnit.scoreUnit` — the unit of a score: operations per unit, or units per operation.
* `Mode.defaultUnit` — the unit a mode reports in when none is chosen.
-/

namespace Microbench

/-- A unit of time. -/
inductive TimeUnit
  /-- A nanosecond. -/
  | nanoseconds
  /-- A microsecond. -/
  | microseconds
  /-- A millisecond. -/
  | milliseconds
  /-- A second. -/
  | seconds
  /-- A minute. -/
  | minutes
  deriving DecidableEq, Repr, Inhabited

/-- A word that names no unit of time; it is kept trimmed. -/
structure UnknownUnit where
  /-- The word. -/
  word : String
  deriving DecidableEq, Repr

/-- The wording of the error. -/
def UnknownUnit.message (e : UnknownUnit) : String := "unknown time unit: " ++ e.word

/-- The unit a mode reports in when none is chosen. -/
def Mode.defaultUnit : Mode → TimeUnit
  | .throughput => .seconds
  | .singleShot => .microseconds
  | _ => .nanoseconds

namespace TimeUnit

/-- The suffix of the unit. -/
def suffix : TimeUnit → String
  | nanoseconds => "ns"
  | microseconds => "us"
  | milliseconds => "ms"
  | seconds => "s"
  | minutes => "min"

/-- Nanoseconds in one unit. -/
def nanos : TimeUnit → Nat
  | nanoseconds => 1
  | microseconds => 1000
  | milliseconds => 1000000
  | seconds => 1000000000
  | minutes => 60000000000

/-- The unit that a word names. -/
def ofWord? : String → Option TimeUnit
  | "ns" => some nanoseconds
  | "us" | "µs" => some microseconds
  | "ms" => some milliseconds
  | "s" => some seconds
  | "m" | "min" => some minutes
  | _ => none

/-- Read a unit; blanks around it do not matter, letter case does. -/
def parse (s : String) : Except UnknownUnit TimeUnit :=
  let word := Text.trimmed s
  match ofWord? word with
  | some u => .ok u
  | none => .error ⟨word⟩

/-- A duration in this unit. -/
def convert (u : TimeUnit) (d : Duration) : Float := Float.ofNat d.nanos / Float.ofNat u.nanos

/-- The unit of a score in a mode. -/
def scoreUnit (u : TimeUnit) : Mode → String
  | .throughput => "ops/" ++ u.suffix
  | _ => u.suffix ++ "/op"

/-- The suffix of a unit names it. -/
theorem ofWord?_suffix (u : TimeUnit) : ofWord? u.suffix = some u := by cases u <;> rfl

end TimeUnit

end Microbench
