import Microbench.Number.Binary

/-!
# Errors of tasks

What benchmarked code may raise, and what the measurement itself objects to.

## Main definitions

* `TaskError`, `TaskError.message` — the errors and their wording.
-/

namespace Microbench

/-- An error raised while a task runs. -/
inductive TaskError
  /-- The task says so. -/
  | message (text : String)
  /-- The task broke off. -/
  | panicked (text : String)
  /-- The task reported a sample that is not finite. -/
  | nonFinite (value : Float)
  /-- The operating system says so. -/
  | io (text : String)
  deriving Inhabited

/-- The wording for a value that is not finite. -/
def nonFiniteText (x : Float) : String :=
  if Binary.isUndefined x then "NaN" else if Binary.isNegative x then "-inf" else "inf"

/-- The wording of an error. -/
def TaskError.text : TaskError → String
  | message text => text
  | panicked text => "panicked: " ++ text
  | nonFinite value => "non-finite sample value " ++ nonFiniteText value
  | io text => text

/-- What a task that broke off without a text is said to have said. -/
def unknownPanic : String := "unknown panic"

end Microbench
