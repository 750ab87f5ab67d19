import Microbench.Mode

/-!
# Declarations of tasks

What is known about a task before it runs.

## Main definitions

* `Group`, `Param` — a thread group with its size, a parameter with its values.
* `Declaration` — the task's name, its mode, its groups and its parameters.
-/

namespace Microbench

/-- A thread group with its size. -/
structure Group where
  /-- Its name. -/
  name : String
  /-- How many threads it has. -/
  threads : UInt32
  deriving DecidableEq, Repr, Inhabited

/-- A parameter with the values that are tried when none are asked for. -/
structure Param where
  /-- Its name. -/
  name : String
  /-- Its values. -/
  values : List String
  deriving DecidableEq, Repr, Inhabited

/-- What a task declares. -/
structure Declaration where
  /-- Its name, by which it is registered. -/
  id : String
  /-- The mode of a run that asks for none. -/
  mode : Mode
  /-- Its thread groups; without any there is one implicit group. -/
  groups : List Group
  /-- Its parameters. -/
  params : List Param
  deriving DecidableEq, Repr, Inhabited

end Microbench
