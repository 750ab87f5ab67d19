/-!
# Phases of a trial

A trial runs its warmup iterations first and then those that count.

## Main definitions

* `Phase` — the two phases, with their names.
-/

namespace Microbench

/-- A phase of a trial. -/
inductive Phase
  /-- Results are discarded. -/
  | warmup
  /-- Results count. -/
  | measurement
  deriving DecidableEq, Repr, Inhabited

/-- The phase in running text. -/
def Phase.text : Phase → String
  | warmup => "warmup"
  | measurement => "measurement"

end Microbench
