import Microbench.Config.Runner
import Microbench.Dict
import Microbench.Text.Blank
import Microbench.Text.Pieces
import Microbench.Text.Quoted

/-!
# Options of a plan

What the command line chooses for a run, beyond the settings of all trials.

## Main definitions

* `PlanOptions` — the choices.
* `PlanOptions.parseParam` — read the values chosen for a parameter.
-/

namespace Microbench

/-- The choices of a run. -/
structure PlanOptions where
  /-- A mode in place of the tasks' own. -/
  mode : Option Mode := none
  /-- The sizes of the thread groups. -/
  groupSizes : List UInt32 := []
  /-- Values of parameters in place of the declared ones. -/
  params : Dict (List String) := .empty
  /-- Settings for all trials. -/
  runner : Runner := {}
  /-- Arguments for the workers; none leaves the specification without any. -/
  launchArgs : List String := []
  /-- A command to be put before the workers'; none leaves the specification without one. -/
  launchPrefix : List String := []
  deriving DecidableEq, Inhabited

/-- Why a text does not choose values for a parameter. -/
inductive BadParam
  /-- There is no equals sign. -/
  | noValue (text : String)
  /-- Nothing is in front of the equals sign. -/
  | noName (text : String)
  deriving DecidableEq, Repr

/-- The wording of the error. -/
def BadParam.message : BadParam → String
  | noValue text => "expected name=value[,value...], got " ++ Text.quote text
  | noName text => "missing parameter name in " ++ Text.quote text

/-- Read the values chosen for a parameter: its name, an equals sign and the values with commas
between them. -/
def PlanOptions.parseParam (s : String) : Except BadParam (String × List String) :=
  let cs := s.toList
  let name := cs.takeWhile (· != '=')
  match cs.drop name.length with
  | [] => .error (.noValue s)
  | _ :: values =>
    let name := Text.trim name
    if name.isEmpty then .error (.noName s)
    else .ok (String.ofList name,
      (Text.pieces ',' values).map fun v => String.ofList (Text.trim v))

end Microbench
