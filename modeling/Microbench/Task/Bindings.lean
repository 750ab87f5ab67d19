import Microbench.Dict
import Microbench.Number.Decimal
import Microbench.Number.Whole
import Microbench.Task.Error
import Microbench.Text.Quoted

/-!
# Parameter values

The parameter values a task runs with, and how a task reads one of them: a value
that is missing or does not read is an error of the task.

## Main definitions

* `readCharacter` — a text of one character.
* `Dict.bound` — read the value of a parameter.
-/

namespace Microbench

/-- Why a text is not one character. -/
inductive CharacterError
  /-- There is none. -/
  | none
  /-- There are several. -/
  | several
  deriving DecidableEq, Repr

/-- The wording of an error. -/
def CharacterError.message : CharacterError → String
  | none => "cannot parse char from empty string"
  | several => "too many characters in string"

/-- Read a text of one character. -/
def readCharacter (s : String) : Except CharacterError Char :=
  match s.toList with
  | [] => .error .none
  | [c] => .ok c
  | _ => .error .several

/-- Read the value of a parameter with a reader of its type. -/
def Dict.bound {α ε : Type} (bindings : Dict String) (name : String)
    (read : String → Except ε α) (wording : ε → String) : Except TaskError α :=
  match bindings.get? name with
  | none => .error (.message ("parameter " ++ name ++ " is not bound"))
  | some raw =>
    match read raw with
    | .ok a => .ok a
    | .error e =>
      .error (.message ("parameter " ++ name ++ "=" ++ Text.quote raw ++ ": " ++ wording e))

end Microbench
