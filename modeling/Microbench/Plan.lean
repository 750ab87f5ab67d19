import Microbench.Plan.Options
import Microbench.Trial.Settings

/-!
# Plans

A plan lists the trials of a run: a specification for every task that the filter
selects, every mode that its mode stands for, and every choice of values for its
parameters.  All of them can be run, because each is resolved against its task
before the plan is given out.

## Main definitions

* `Plan.choices` — the choices of values.
* `Plan.expand` — the specifications of one task.
* `Plan.build` — the specifications of a run in their order.
-/

namespace Microbench

/-- Why there is no plan. -/
inductive PlanError
  /-- A trial cannot be run. -/
  | unrunnable (label : String) (cause : SettingsError)
  /-- The settings cannot be used. -/
  | config (cause : ConfigError)
  /-- Values are chosen for a parameter that no selected task declares. -/
  | unknownParam (name : String)
  /-- A parameter is left without values. -/
  | emptyParam (name : String)
  deriving DecidableEq, Repr

/-- The wording of an error. -/
def PlanError.message : PlanError → String
  | unrunnable label cause => label ++ ": " ++ cause.message
  | config cause => cause.message
  | unknownParam name =>
    "parameter " ++ name ++ " is not declared by any selected benchmark"
  | emptyParam name => "parameter " ++ name ++ " has no values"

namespace Plan

/-- All choices of one value for each parameter; the last parameter changes fastest. -/
def choices (params : Dict (List String)) : List (Dict String) :=
  params.toList.foldl (fun chosen (name, values) =>
    chosen.flatMap fun bindings => values.map fun v => bindings.insert name v) [.empty]

/-- The values of the parameters of a task: those chosen for the run if there are any. -/
def paramValues (chosen : Dict (List String)) (params : List Param) :
    Except PlanError (Dict (List String)) :=
  params.foldlM (fun d p =>
    let values := (chosen.get? p.name).getD p.values
    if values.isEmpty then .error (.emptyParam p.name) else .ok (d.insert p.name values)) .empty

/-- A list, unless it is empty. -/
def given (l : List String) : Option (List String) := if l.isEmpty then none else some l

/-- The specifications of one task. -/
def expand (options : PlanOptions) (task : Declaration) : Except PlanError (List Spec) := do
  let base ← match options.runner.applied { name := task.id, mode := task.mode } with
    | .ok s => pure s
    | .error e => throw (.config e)
  let params ← paramValues options.params task.params
  let base := { base with
    groupSizes := options.groupSizes
    launch := { args := given options.launchArgs, before := given options.launchPrefix }
    params := if params.isEmpty then none else some params }
  return (options.mode.getD task.mode).expand.flatMap fun mode =>
    (choices params).map fun bindings => { base with mode, bindings }

/-- The specifications of one task, each of which can be run. -/
def runnable (options : PlanOptions) (task : Declaration) : Except PlanError (List Spec) := do
  let specs ← expand options task
  specs.forM fun s =>
    match Settings.resolve s task with
    | .ok _ => .ok ()
    | .error e => .error (.unrunnable s.label e)
  return specs

/-- The first parameter with chosen values that none of the tasks declares. -/
def undeclared? (tasks : List Declaration) (chosen : Dict (List String)) : Option String :=
  chosen.keys.find? fun name => !tasks.any fun t => t.params.any (·.name = name)

/-- The specifications of a run in their order.  The tasks are those that are registered, in
the order of their names; they are selected by their names. -/
def build (tasks : List Declaration) (selects : String → Bool) (options : PlanOptions) :
    Except PlanError (List Spec) := do
  let selected := tasks.filter fun t => selects t.id
  match undeclared? selected options.params with
  | some name => throw (.unknownParam name)
  | none =>
    let specs ← selected.mapM (runnable options)
    return specs.flatten.mergeSort Spec.notAfter

end Plan

end Microbench
