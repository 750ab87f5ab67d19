import Microbench.Session.Launcher

/-!
# Launching commands in a rehearsal

Which commands can be launched in a rehearsal: the program that is a worker, with
or without a command in front of it that only changes its surroundings, and the
two commands that do nothing but end.

## Main definitions

* `Launching` — what becomes of a command.
* `launching` — the rule.
-/

namespace Microbench.Rehearsal

/-- What becomes of a command. -/
inductive Launching
  /-- The program runs with these arguments. -/
  | runs (args : List String)
  /-- The command ends at once. -/
  | ends (status : ExitStatus)
  /-- There is no such program. -/
  | missing
  deriving DecidableEq, Repr

/-- Why a program cannot be started that is not there. -/
def missingReason : String := "No such file or directory (os error 2)"

/-- The commands that run another command in other surroundings. -/
def wrappers : List String :=
  ["env", "nice", "nohup", "setsid", "stdbuf", "ionice", "chrt", "taskset"]

/-- Whether an argument of a wrapper is about the surroundings. -/
def isAboutSurroundings (arg : String) : Bool :=
  arg.startsWith "-" || arg.toList.contains '=' || (arg != "" && arg.all Char.isDigit)

/-- What becomes of a command; `inner` says that it is run by another command. -/
def launching (program : String) (inner : Bool) : List String → Launching
  | [] => if inner then .ends (.code 0) else .missing
  | head :: rest =>
    if head = program then .runs rest
    else if inner && isAboutSurroundings head then launching program true rest
    else if wrappers.contains head then launching program true rest
    else if head = "true" then .ends (.code 0)
    else if head = "false" then .ends (.code 1)
    else if inner then .ends (.code 127)
    else .missing

/-- What becomes of a launch. -/
def launchingOf (program : String) (l : Launch) : Launching :=
  launching program false (l.program :: l.args)

end Microbench.Rehearsal
