import Microbench.Breakdown
import Microbench.Dict
import Microbench.Task.Basic
import Microbench.Text.Quoted

/-!
# Registered tasks

A registry holds tasks under their names.  A registered task knows what it
declares, and makes an instance of itself for the parameter values of a trial.
All calls to the instance are guarded, but not the one that makes it.

## Main definitions

* `TaskEntry` — a registered task.
* `Registry` — the registered tasks, in the order of their names.
-/

namespace Microbench

/-- A registered task. -/
structure TaskEntry (m : Type → Type) where
  /-- What it declares. -/
  declaration : Declaration
  /-- Make an instance for the parameter values of a trial; nothing guards this call. -/
  create : Dict String → ExceptT (Abort TaskError) m (Task m)

/-- The wording of what keeps an instance from being made. -/
def Abort.text : Abort TaskError → String
  | error e => e.text
  | breakdown b => b.text

/-- The name of a registered task. -/
def TaskEntry.id {m : Type → Type} (e : TaskEntry m) : String := e.declaration.id

/-- A registered task as text. -/
def TaskEntry.describe {m : Type → Type} (e : TaskEntry m) : String :=
  "TaskDef \x7b id: " ++ Text.quote e.id ++ " \x7d"

/-- Registered tasks by name. -/
abbrev Registry (m : Type → Type) := Dict (TaskEntry m)

/-- Register a task, in place of one with its name. -/
def Registry.register {m : Type → Type} (r : Registry m) (e : TaskEntry m) : Registry m :=
  r.insert e.id e

/-- Tasks registered one after the other. -/
def Registry.ofList {m : Type → Type} (entries : List (TaskEntry m)) : Registry m :=
  entries.foldl Registry.register .empty

end Microbench
