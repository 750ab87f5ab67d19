import Microbench.Duration
import Microbench.Wire.Frame

/-!
# Failures of worker processes

What goes wrong with a worker or with the channel to it, as opposed to failures
of the benchmarked task.

## Main definitions

* `ExitStatus` — how a process has ended.
* `ProcessFailure` — what goes wrong.
-/

namespace Microbench

/-- How a process has ended. -/
inductive ExitStatus
  /-- With an exit code. -/
  | code (n : Nat)
  /-- By a signal. -/
  | signal (number : Nat) (name : String)
  deriving DecidableEq, Repr, Inhabited

namespace ExitStatus

/-- Whether the process says that all went well. -/
def isSuccess : ExitStatus → Bool
  | code n => n = 0
  | signal _ _ => false

/-- The status as text. -/
def text : ExitStatus → String
  | code n => "exit status: " ++ Whole.text n
  | signal number name => "signal: " ++ Whole.text number ++ " (" ++ name ++ ")"

end ExitStatus

/-- What a worker has to say next. -/
inductive Expected
  /-- Its greeting. -/
  | greeting
  /-- A report. -/
  | report
  /-- The report of the iteration whose turn it is. -/
  | nextReport
  /-- The end of the session. -/
  | completion
  deriving DecidableEq, Repr

/-- What is expected, as text. -/
def Expected.text : Expected → String
  | greeting => "Hello"
  | report => "Iteration"
  | nextReport => "the next iteration"
  | completion => "Complete"

/-- A position within a trial as text. -/
def positionText (phase : Phase) (index : UInt32) : String :=
  phase.text ++ " " ++ Whole.text index.toNat

/-- A message as text, in short. -/
def Message.describe : Message → String
  | hello _ _ task => "Hello(" ++ task ++ ")"
  | iteration r => "Iteration(" ++ positionText r.phase r.index ++ ")"
  | failure f => "Failure(" ++ f.describe ++ ")"
  | complete n => "Complete(" ++ Whole.text n.toNat ++ ")"

/-- The wording of an error without a frame. -/
def FrameError.message : FrameError → String
  | line e => e.message
  | unreadable => "Deserialization error"

/-- What goes wrong with a worker or with the channel to it. -/
inductive ProcessFailure
  /-- The worker cannot be started. -/
  | launch (program reason : String)
  /-- There is no command to start it with. -/
  | emptyCommand
  /-- A line cannot be sent or is no frame. -/
  | channel (e : FrameError)
  /-- The worker has ended badly. -/
  | exited (status : ExitStatus)
  /-- The worker has ended without a word, or does not listen any more. -/
  | closed
  /-- The worker says something else than it should. -/
  | desync (expected : Expected) (got : String)
  /-- The worker speaks another version. -/
  | version (got : UInt32)
  /-- The worker does not answer. -/
  | timeout (limit : Duration)
  deriving DecidableEq, Repr

namespace ProcessFailure

/-- The wording of a failure. -/
def message : ProcessFailure → String
  | launch program reason => "failed to launch worker " ++ program ++ ": " ++ reason
  | emptyCommand => "empty worker command line"
  | channel e => "worker channel error: " ++ e.message
  | exited status => "worker exited unexpectedly (" ++ status.text ++ ")"
  | closed => "worker closed the channel"
  | desync expected got => "channel desync: expected " ++ expected.text ++ ", got " ++ got
  | version got =>
    "worker speaks protocol version " ++ Whole.text got.toNat ++ ", expected " ++
      Whole.text protocolVersion.toNat
  | timeout limit => "no response from worker within " ++ limit.describe

/-- Why a channel has come to its end, from what is known of the worker's. -/
def ofEnd : Option ExitStatus → ProcessFailure
  | some status => if status.isSuccess then closed else exited status
  | none => closed

end ProcessFailure

end Microbench
