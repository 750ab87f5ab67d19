import Microbench.Stats.Pooling
import Microbench.Task.Failure
import Microbench.Text.Quoted
import Microbench.Text.Blank
import Microbench.Trial.Phase

/-!
# What controller and worker say to each other

The controller gives commands, one word a line.  The worker greets, reports every
iteration, and ends with its failure or with the count of its iterations.

## Main definitions

* `Command` — what the controller says, with its line and the reader.
* `Report`, `Message` — what the worker says.
* `protocolVersion` — the version in the greeting.
-/

namespace Microbench

/-- What the controller says to a worker. -/
inductive Command
  /-- Run the next iteration. -/
  | iterate
  /-- Tear down and end. -/
  | terminate
  deriving DecidableEq, Repr

/-- A line that is no command; it is kept trimmed. -/
structure UnknownCommand where
  /-- The line. -/
  line : String
  deriving DecidableEq, Repr

/-- The wording of the error. -/
def UnknownCommand.message (e : UnknownCommand) : String :=
  "unknown command: " ++ Text.quote e.line

/-- A command as a line. -/
def Command.line : Command → String
  | iterate => "iterate"
  | terminate => "terminate"

/-- Read a command; blanks around it do not matter. -/
def Command.parse (line : String) : Except UnknownCommand Command :=
  match Text.trimmed line with
  | "iterate" => .ok iterate
  | "terminate" => .ok terminate
  | other => .error ⟨other⟩

/-- The version of the conversation. -/
def protocolVersion : UInt32 := 1

/-- One iteration that a worker has run. -/
structure Report where
  /-- Its phase. -/
  phase : Phase
  /-- Its index within the phase. -/
  index : UInt32
  /-- What was measured. -/
  result : IterationResult
  /-- What went wrong beside it. -/
  warnings : List String := []
  deriving Inhabited

/-- What a worker says. -/
inductive Message
  /-- The greeting: its version of the conversation, its process and its task. -/
  | hello (version pid : UInt32) (task : String)
  /-- The report of an iteration. -/
  | iteration (report : Report)
  /-- The failure that ends the session. -/
  | failure (failure : Failure)
  /-- The end of the session: how many iterations were run. -/
  | complete (iterations : UInt32)
  deriving Inhabited

end Microbench
