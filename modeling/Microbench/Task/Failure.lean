import Microbench.Number.Whole

/-!
# Failures of tasks

What is known about a failure that benchmarked code or its fixtures raised: the
task, where in its life it happened, the thread if there is one, and a message.

## Main definitions

* `Level` — how often a fixture runs.
* `Site` — where in the life of a task a failure happened.
* `Failure`, `Failure.describe` — the failure and its text.
-/

namespace Microbench

/-- How often a fixture runs. -/
inductive Level
  /-- Once for a trial. -/
  | trial
  /-- Once for an iteration. -/
  | iteration
  /-- Around every invocation. -/
  | invocation
  deriving DecidableEq, Repr, Inhabited

/-- The level in running text. -/
def Level.text : Level → String
  | trial => "trial"
  | iteration => "iteration"
  | invocation => "invocation"

/-- Where in the life of a task a failure happened. -/
inductive Site
  /-- The task is not known or cannot be configured. -/
  | configuration
  /-- A fixture that prepares. -/
  | setup (level : Level)
  /-- The benchmarked call itself. -/
  | invocation
  /-- A fixture that clears up. -/
  | teardown (level : Level)
  deriving DecidableEq, Repr, Inhabited

/-- The site in running text. -/
def Site.text : Site → String
  | configuration => "configuration"
  | setup level => level.text ++ " setup"
  | invocation => "invocation"
  | teardown level => level.text ++ " teardown"

/-- A failure of a task. -/
structure Failure where
  /-- The task. -/
  task : String
  /-- Where it happened. -/
  site : Site
  /-- The thread, if the failure belongs to one. -/
  thread : Option Nat
  /-- What the task said. -/
  message : String
  deriving DecidableEq, Repr, Inhabited

/-- The failure in one line. -/
def Failure.describe (f : Failure) : String :=
  let place := match f.thread with
    | none => ""
    | some n => " on thread " ++ Whole.text n
  f.task ++ " failed during " ++ f.site.text ++ place ++ ": " ++ f.message

end Microbench
